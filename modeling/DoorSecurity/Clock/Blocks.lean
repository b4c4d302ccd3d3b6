import Mathlib

/-!
# Positions in consecutive blocks

A line of blocks with given lengths: a position is a block and an offset in it, or
the number of units before it. `locate` walks the blocks and is inverse to summing
the lengths of the blocks before.

Nothing here knows what the blocks are.
-/

namespace Blocks
set_option autoImplicit false

/-- The block and the offset of a position, `none` past the last block. -/
def locate : List Nat → Nat → Option (Nat × Nat)
  | [], _ => none
  | l :: ls, d => if d < l then some (0, d) else (locate ls (d - l)).map fun p => (p.1 + 1, p.2)

theorem locate_here {l d : Nat} (ls : List Nat) (here : d < l) : locate (l :: ls) d = some (0, d) := if_pos here

theorem locate_later {l d : Nat} (ls : List Nat) (later : ¬ d < l) :
    locate (l :: ls) d = (locate ls (d - l)).map fun p => (p.1 + 1, p.2) := if_neg later

/-- **A position is located exactly** at the block before which the sum of the lengths leaves
an offset inside the block. -/
theorem locate_eq_some_iff {ls : List Nat} {d i r : Nat} :
    locate ls d = some (i, r) ↔ ∃ h : i < ls.length, r < ls[i] ∧ d = (ls.take i).sum + r := by
  induction ls generalizing d i with
  | nil =>
    apply iff_of_false
    · exact Option.some_ne_none _ ∘ Eq.symm
    · rintro ⟨h, -⟩
      exact absurd h (Nat.not_lt_zero i)
  | cons l ls ih =>
    by_cases here : d < l
    · rw [locate_here ls here]
      constructor
      · intro found
        obtain ⟨rfl, rfl⟩ := Prod.mk.inj (Option.some.inj found)
        exact ⟨Nat.zero_lt_succ _, here, (Nat.zero_add d).symm⟩
      · rintro ⟨h, inside, sum⟩
        cases i with
        | zero => rw [sum]; simp
        | succ i => rw [List.take_succ_cons, List.sum_cons] at sum; omega
    · rw [locate_later ls here, Option.map_eq_some_iff]
      constructor
      · rintro ⟨⟨j, q⟩, found, same⟩
        obtain ⟨rfl, rfl⟩ := Prod.mk.inj same
        obtain ⟨h, inside, sum⟩ := ih.mp found
        refine ⟨Nat.succ_lt_succ h, inside, ?_⟩
        show d = (List.take (j + 1) (l :: ls)).sum + q
        rw [List.take_succ_cons, List.sum_cons]
        omega
      · rintro ⟨h, inside, sum⟩
        cases i with
        | zero => exact absurd (show d < l by simpa [sum] using inside) here
        | succ i =>
          rw [List.take_succ_cons, List.sum_cons] at sum
          exact ⟨(i, r), ih.mpr ⟨Nat.lt_of_succ_lt_succ h, inside, by omega⟩, rfl⟩

/-- The positions before the end are located. -/
theorem exists_locate {ls : List Nat} {d : Nat} (inside : d < ls.sum) : ∃ i r, locate ls d = some (i, r) := by
  induction ls generalizing d with
  | nil => exact absurd inside (Nat.not_lt_zero d)
  | cons l ls ih =>
    by_cases here : d < l
    · exact ⟨0, d, locate_here ls here⟩
    · rw [List.sum_cons] at inside
      obtain ⟨i, r, found⟩ := ih (d := d - l) (by omega)
      refine ⟨i + 1, r, ?_⟩
      rw [locate_later ls here, found]
      rfl

/-- A position in a block lies before the end. -/
theorem locate_lt_sum {ls : List Nat} {d i r : Nat} (found : locate ls d = some (i, r)) : d < ls.sum := by
  obtain ⟨h, inside, sum⟩ := locate_eq_some_iff.mp found
  have split := congrArg List.sum (List.take_append_drop i ls)
  rw [List.sum_append, List.drop_eq_getElem_cons h, List.sum_cons] at split
  omega

/-- The lengths of the `n` blocks from the one numbered `s` on. -/
def blocks (f : Nat → Nat) (s n : Nat) : List Nat := (List.range' s n).map f

variable (f : Nat → Nat)

@[simp] theorem blocks_length (s n : Nat) : (blocks f s n).length = n := by simp [blocks]

@[simp] theorem blocks_getElem (s n i : Nat) (h : i < (blocks f s n).length) : (blocks f s n)[i] = f (s + i) := by
  simp [blocks]

theorem blocks_succ (s n : Nat) : blocks f s (n + 1) = f s :: blocks f (s + 1) n := by
  rw [blocks, List.range'_succ]; rfl

theorem blocks_sum_succ (s n : Nat) : (blocks f s (n + 1)).sum = (blocks f s n).sum + f (s + n) := by
  simp [blocks, List.range'_1_concat]

theorem take_blocks (s : Nat) {k n : Nat} (le : k ≤ n) : (blocks f s n).take k = blocks f s k := by
  rw [blocks, ← List.map_take, List.take_range'_of_length_ge le]; rfl

theorem blocks_sum_mono (s : Nat) {i j : Nat} (le : i ≤ j) : (blocks f s i).sum ≤ (blocks f s j).sum := by
  induction le with
  | refl => exact Nat.le_refl _
  | step _ ih =>
    rw [blocks_sum_succ]
    omega

/-- A whole block lies between its begin and the begin of any later one. -/
theorem blocks_sum_add_le (s : Nat) {i j : Nat} (lt : i < j) : (blocks f s i).sum + f (s + i) ≤ (blocks f s j).sum := by
  rw [← blocks_sum_succ]
  exact blocks_sum_mono f s lt

variable {f}

theorem locate_blocks_iff {s n d i r : Nat} :
    locate (blocks f s n) d = some (i, r) ↔ i < n ∧ r < f (s + i) ∧ d = (blocks f s i).sum + r := by
  rw [locate_eq_some_iff]
  simp only [blocks_getElem, blocks_length, exists_prop]
  apply and_congr_right
  intro inside
  rw [take_blocks f s (Nat.le_of_lt inside)]

/-- **The rule for a subtracting loop**: one that leaves with an offset inside a block, and else
subtracts the block and goes on, ends at the position's block. -/
theorem loop_of_locate {ρ : Type} (loop done : Nat → Nat → ρ) {n : Nat} :
    ∀ {s d i r : Nat}, (∀ t d, s ≤ t → t < s + n → loop d t = if d < f t then done d t else loop (d - f t) (t + 1)) →
      locate (blocks f s n) d = some (i, r) → loop d s = done r (s + i) := by
  induction n with
  | zero => intro s d i r _ found; exact absurd found.symm (Option.some_ne_none _)
  | succ n ih =>
    intro s d i r step found
    rw [blocks_succ] at found
    rw [step s d (Nat.le_refl s) (by omega)]
    by_cases here : d < f s
    · rw [locate_here _ here] at found
      obtain ⟨rfl, rfl⟩ := Prod.mk.inj (Option.some.inj found)
      rw [if_pos here, Nat.add_zero]
    · rw [locate_later _ here, Option.map_eq_some_iff] at found
      obtain ⟨⟨j, q⟩, later, same⟩ := found
      obtain ⟨rfl, rfl⟩ := Prod.mk.inj same
      rw [if_neg here, ih (fun t d lower upper => step t d (by omega) (by omega)) later, Nat.add_assoc, Nat.add_comm 1 j]

end Blocks
