import Mathlib

/-!
# Sorting by exchanges

Two nested loops over the places of a buffer, the outer one with every place, the
inner one with the places after it: entries in the wrong order are exchanged. A pass
of the inner loop leaves a least entry at its place, and so the buffer is sorted.

Nothing here knows what the places and the entries are.
-/

namespace Exchanges
set_option autoImplicit false
open Function

variable {ι α : Type} [DecidableEq ι] [LinearOrder α]

/-- Two places, exchanged where the first entry is the greater one. -/
def step (buf : ι → α) (ij : ι × ι) : ι → α :=
  if buf ij.1 > buf ij.2 then update (update buf ij.1 (buf ij.2)) ij.2 (buf ij.1) else buf

/-- The pairs that the two loops compare, in order. -/
def rounds : List ι → List (ι × ι)
  | [] => []
  | i :: rest => rest.map (fun j => (i, j)) ++ rounds rest

/-- The inner loop for the place `i`. -/
def pass (buf : ι → α) (i : ι) (rest : List ι) : ι → α := (rest.map fun j => (i, j)).foldl step buf

/-- Both loops. -/
def sort (buf : ι → α) (places : List ι) : ι → α := (rounds places).foldl step buf

theorem pass_cons (buf : ι → α) (i j : ι) (rest : List ι) : pass buf i (j :: rest) = pass (step buf (i, j)) i rest := rfl

theorem sort_cons (buf : ι → α) (i : ι) (rest : List ι) : sort buf (i :: rest) = sort (pass buf i rest) rest := by
  show (rest.map _ ++ rounds rest).foldl step buf = _
  rw [List.foldl_append]
  rfl

variable (buf : ι → α) {i j k : ι} {places rest : List ι}

theorem step_eq (i j : ι) : step buf (i, j) = buf ∘ Equiv.swap j i ∨ step buf (i, j) = buf := by
  unfold step
  split
  · exact .inl (Equiv.comp_swap_eq_update j i buf).symm
  · exact .inr rfl

theorem step_of_ne (first : k ≠ i) (second : k ≠ j) : step buf (i, j) k = buf k := by
  rcases step_eq buf i j with swapped | kept
  · rw [swapped, comp_apply, Equiv.swap_apply_of_ne_of_ne second first]
  · rw [kept]

/-- The lesser entry comes first. -/
theorem step_fst (i j : ι) : step buf (i, j) i = min (buf i) (buf j) := by
  by_cases wrong : buf i > buf j
  · have swapped : step buf (i, j) i = buf j := by
      unfold step
      rw [if_pos wrong, ← Equiv.comp_swap_eq_update j i buf]
      exact congrArg buf (Equiv.swap_apply_right j i)
    rw [swapped, min_eq_right wrong.le]
  · rw [step, if_neg wrong, min_eq_left (not_lt.mp wrong)]

theorem step_snd (i j : ι) : step buf (i, j) j = max (buf i) (buf j) := by
  by_cases wrong : buf i > buf j
  · rw [step, if_pos wrong, update_self, max_eq_left wrong.le]
  · rw [step, if_neg wrong, max_eq_right (not_lt.mp wrong)]

theorem swap_mem (first : i ∈ places) (second : j ∈ places) (inside : k ∈ places) : Equiv.swap j i k ∈ places := by
  rcases eq_or_ne k j with rfl | notSecond
  · rwa [Equiv.swap_apply_left]
  · rcases eq_or_ne k i with rfl | notFirst
    · rwa [Equiv.swap_apply_right]
    · rwa [Equiv.swap_apply_of_ne_of_ne notSecond notFirst]

/-- An exchange of two of the places rearranges them. -/
theorem step_perm (nodup : places.Nodup) (first : i ∈ places) (second : j ∈ places) :
    (places.map (step buf (i, j))).Perm (places.map buf) := by
  rcases step_eq buf i j with swapped | kept
  · have rearranged : (places.map (Equiv.swap j i)).Perm places := by
      apply (List.perm_ext_iff_of_nodup (nodup.map (Equiv.swap j i).injective) nodup).mpr
      intro k
      rw [List.mem_map]
      constructor
      · rintro ⟨l, inside, rfl⟩
        exact swap_mem first second inside
      · intro inside
        exact ⟨Equiv.swap j i k, swap_mem first second inside, Equiv.swap_apply_self j i k⟩
    rw [swapped, ← List.map_map]
    exact rearranged.map buf
  · rw [kept]

theorem pass_untouched (first : k ≠ i) (outside : k ∉ rest) : pass buf i rest k = buf k := by
  induction rest generalizing buf with
  | nil => rfl
  | cons j rest ih =>
    obtain ⟨second, outside⟩ := List.ne_and_not_mem_of_not_mem_cons outside
    rw [pass_cons, ih (step buf (i, j)) outside, step_of_ne buf first second]

theorem pass_perm (nodup : places.Nodup) (first : i ∈ places) (inside : ∀ j ∈ rest, j ∈ places) :
    (places.map (pass buf i rest)).Perm (places.map buf) := by
  induction rest generalizing buf with
  | nil => exact .refl _
  | cons j rest ih =>
    obtain ⟨second, inside⟩ := List.forall_mem_cons.mp inside
    rw [pass_cons]
    exact (ih (step buf (i, j)) inside).trans (step_perm buf nodup first second)

theorem pass_le (i : ι) (rest : List ι) : pass buf i rest i ≤ buf i := by
  induction rest generalizing buf with
  | nil => exact le_refl _
  | cons j rest ih =>
    calc pass buf i (j :: rest) i ≤ step buf (i, j) i := ih (step buf (i, j))
      _ = min (buf i) (buf j) := step_fst buf i j
      _ ≤ buf i := min_le_left _ _

/-- **A pass leaves a least entry at its place.** -/
theorem pass_least (nodup : (i :: rest).Nodup) : ∀ j ∈ rest, pass buf i rest i ≤ pass buf i rest j := by
  induction rest generalizing buf with
  | nil => nofun
  | cons j rest ih =>
    obtain ⟨notHere, later⟩ := List.nodup_cons.mp nodup
    obtain ⟨notLater, distinct⟩ := List.nodup_cons.mp later
    obtain ⟨other, outside⟩ := List.ne_and_not_mem_of_not_mem_cons notHere
    rw [pass_cons]
    refine List.forall_mem_cons.mpr ⟨?_, ih (step buf (i, j)) (List.nodup_cons.mpr ⟨outside, distinct⟩)⟩
    calc pass (step buf (i, j)) i rest i ≤ step buf (i, j) i := pass_le _ i rest
      _ = min (buf i) (buf j) := step_fst buf i j
      _ ≤ max (buf i) (buf j) := min_le_max
      _ = step buf (i, j) j := (step_snd buf i j).symm
      _ = pass (step buf (i, j)) i rest j := (pass_untouched _ other.symm notLater).symm

theorem sort_untouched (outside : k ∉ places) : sort buf places k = buf k := by
  induction places generalizing buf with
  | nil => rfl
  | cons i rest ih =>
    obtain ⟨first, outside⟩ := List.ne_and_not_mem_of_not_mem_cons outside
    rw [sort_cons, ih (pass buf i rest) outside, pass_untouched buf first outside]

/-- The loops rearrange the entries. -/
theorem sort_perm (nodup : places.Nodup) : (places.map (sort buf places)).Perm (places.map buf) := by
  induction places generalizing buf with
  | nil => exact .refl _
  | cons i rest ih =>
    obtain ⟨outside, distinct⟩ := List.nodup_cons.mp nodup
    have later : (rest.map (sort (pass buf i rest) rest)).Perm (rest.map (pass buf i rest)) := ih (pass buf i rest) distinct
    have whole : ((i :: rest).map (pass buf i rest)).Perm ((i :: rest).map buf) :=
      pass_perm buf nodup List.mem_cons_self fun j inside => List.mem_cons_of_mem i inside
    rw [sort_cons, List.map_cons, sort_untouched _ outside]
    exact (later.cons _).trans whole

/-- **The loops sort the entries.** -/
theorem sort_sorted (nodup : places.Nodup) : (places.map (sort buf places)).Pairwise (· ≤ ·) := by
  induction places generalizing buf with
  | nil => exact .nil
  | cons i rest ih =>
    obtain ⟨outside, distinct⟩ := List.nodup_cons.mp nodup
    have rearranged := sort_perm (pass buf i rest) distinct
    rw [sort_cons, List.map_cons, List.pairwise_cons, sort_untouched _ outside]
    refine ⟨fun b inside => ?_, ih (pass buf i rest) distinct⟩
    obtain ⟨j, place, rfl⟩ := List.mem_map.mp (rearranged.mem_iff.mp inside)
    exact pass_least buf nodup j place

/-- The entries in the order of the places are the sorted entries. -/
theorem map_sort (nodup : places.Nodup) : places.map (sort buf places) = (places.map buf).insertionSort (· ≤ ·) := by
  apply List.Perm.eq_of_pairwise' (sort_sorted buf nodup) (List.pairwise_insertionSort _ _)
  exact (sort_perm buf nodup).trans (List.perm_insertionSort _ _).symm

end Exchanges
