import DoorSecurity.Sorting.Exchanges
import DoorSecurity.Touch.Scan

/-!
# The filter of the readings (`TP_Read_XOY`, `TP_Read_XY2`)

The sorting loops of an axis are those of `Exchanges`, so that the least and the
greatest sample are left out of the mean. Two rounds are accepted when they differ
by less than `ERR_RANGE` in each axis.
-/

namespace DoorSecurity
set_option autoImplicit false

/-- The samples in ascending order. -/
def sortedSamples (samples : Samples) : List Nat := (List.ofFn fun i => (samples i).val).insertionSort (· ≤ ·)

/-- All but the least and the greatest one. -/
def middleSamples (samples : Samples) : List Nat := (sortedSamples samples).tail.dropLast

/-- `TP_Read_XY`: its answer, `*x` and `*y`. -/
def tpReadXY (x y : Samples) : UInt8 × UInt16 × UInt16 := (1, UInt16.ofNat (tpReadXoy x), UInt16.ofNat (tpReadXoy y))

/-- `TP_Read_XY2` on what `x` and `y` point to: its answer, `*x` and `*y`. -/
def tpReadXY2At (r : Reading) (x y : UInt16) : UInt8 × UInt16 × UInt16 :=
  let (flag, x1, y1) := tpReadXY r.x1 r.y1
  if flag = 0 then (0, x, y) else
    let (flag, x2, y2) := tpReadXY r.x2 r.y2
    if flag = 0 then (0, x, y) else
      if Agree x1.toNat x2.toNat ∧ Agree y1.toNat y2.toNat then
        (1, UInt16.ofNat ((x1.toNat + x2.toNat) / 2), UInt16.ofNat ((y1.toNat + y2.toNat) / 2))
      else (0, x, y)

section Axis

variable (samples : Samples) {a b : Nat}

theorem sortRounds_eq : sortRounds = Exchanges.rounds [0, 1, 2, 3, 4] := rfl

/-- The buffer after the sorting loops, first to last. -/
theorem sortRounds_sorts :
    [0, 1, 2, 3, 4].map (sortRounds.foldl exchange fun i => (samples i).val) = sortedSamples samples := by
  have nodup : [0, 1, 2, 3, (4 : Fin 5)].Nodup := by decide
  have entries : [0, 1, 2, 3, 4].map (fun i => (samples i).val) = List.ofFn fun i => (samples i).val := rfl
  rw [sortedSamples, ← entries, ← Exchanges.map_sort _ nodup, sortRounds_eq]
  rfl

theorem sortedSamples_perm : (sortedSamples samples).Perm (List.ofFn fun i => (samples i).val) := List.perm_insertionSort _ _

theorem sortedSamples_sorted : (sortedSamples samples).Pairwise (· ≤ ·) := List.pairwise_insertionSort _ _

theorem exists_sortedSamples : ∃ v0 v1 v2 v3 v4, sortedSamples samples = [v0, v1, v2, v3, v4] ∧
    middleSamples samples = [v1, v2, v3] ∧ tpReadXoy samples = uint16 (uint16 (uint16 (0 + v1) + v2) + v3) / 3 := by
  have sorted := sortRounds_sorts samples
  refine ⟨_, _, _, _, _, sorted.symm, ?_, rfl⟩
  rw [middleSamples, ← sorted]
  rfl

theorem sortedSamples_lt {v : Nat} (inside : v ∈ sortedSamples samples) : v < 4096 := by
  obtain ⟨i, rfl⟩ := List.mem_ofFn.mp ((sortedSamples_perm samples).mem_iff.mp inside)
  exact (samples i).isLt

theorem sum_three (v1 v2 v3 : Nat) : [v1, v2, v3].sum = v1 + v2 + v3 := by
  rw [List.sum_cons, List.sum_cons, List.sum_singleton, Nat.add_assoc]

/-- **The floor of the mean of the three middle samples**, whose sum fits. -/
theorem tpReadXoy_eq : tpReadXoy samples = (middleSamples samples).sum / 3 ∧ (middleSamples samples).sum < 2 ^ 16 := by
  obtain ⟨v0, v1, v2, v3, v4, sorted, middle, read⟩ := exists_sortedSamples samples
  have small : ∀ v ∈ [v0, v1, v2, v3, v4], v < 4096 := fun v inside => sortedSamples_lt samples (sorted ▸ inside)
  have small1 := small v1 (by simp)
  have small2 := small v2 (by simp)
  have small3 := small v3 (by simp)
  have fits : uint16 (uint16 (uint16 (0 + v1) + v2) + v3) = v1 + v2 + v3 := by
    unfold uint16
    omega
  rw [read, fits, middle, sum_three]
  exact ⟨rfl, by omega⟩

theorem card_eq_countP (p : Nat → Prop) [DecidablePred p] :
    (Finset.univ.filter fun i => p (samples i).val).card = (sortedSamples samples).countP p := by
  rw [(sortedSamples_perm samples).countP_eq, Finset.card_filter, Fin.sum_univ_five]
  simp [List.ofFn_succ, List.countP_cons]
  omega

/-- Four of the samples in an interval put the three middle ones there. -/
theorem middleSamples_mem (most : 4 ≤ (Finset.univ.filter fun i => a ≤ (samples i).val ∧ (samples i).val ≤ b).card) :
    ∀ v ∈ middleSamples samples, a ≤ v ∧ v ≤ b := by
  rw [card_eq_countP samples fun v => a ≤ v ∧ v ≤ b] at most
  obtain ⟨v0, v1, v2, v3, v4, sorted, middle, -⟩ := exists_sortedSamples samples
  have order := sortedSamples_sorted samples
  rw [sorted] at most order
  simp only [List.pairwise_cons, List.forall_mem_cons] at order
  obtain ⟨⟨first, -⟩, ⟨second, -⟩, ⟨third, -⟩, ⟨fourth, -⟩, -⟩ := order
  have lower : a ≤ v1 := by
    by_contra below
    have few : [v0, v1, v2, v3, v4].countP (fun v => decide (a ≤ v ∧ v ≤ b)) ≤ 3 := by
      rw [List.countP_cons_of_neg (by simp; omega), List.countP_cons_of_neg (by simp; omega)]
      exact List.countP_le_length
    omega
  have upper : v3 ≤ b := by
    by_contra above
    have few : ([v0, v1, v2] ++ [v3, v4]).countP (fun v => decide (a ≤ v ∧ v ≤ b)) ≤ 3 := by
      rw [List.countP_append, List.countP_cons_of_neg (a := v3) (by simp; omega), List.countP_cons_of_neg (a := v4) (by simp; omega)]
      exact List.countP_le_length
    exact absurd (most.trans few) (by decide)
  intro v inside
  have values : v = v1 ∨ v = v2 ∨ v = v3 := by simpa [middle] using inside
  omega

/-- **The filter keeps an interval** that holds four of the five samples. -/
theorem tpReadXoy_mem (most : 4 ≤ (Finset.univ.filter fun i => a ≤ (samples i).val ∧ (samples i).val ≤ b).card) :
    a ≤ tpReadXoy samples ∧ tpReadXoy samples ≤ b := by
  have inside := middleSamples_mem samples most
  obtain ⟨v0, v1, v2, v3, v4, -, middle, -⟩ := exists_sortedSamples samples
  rw [(tpReadXoy_eq samples).1]
  rw [middle] at inside ⊢
  have in1 := inside v1 (by simp)
  have in2 := inside v2 (by simp)
  have in3 := inside v3 (by simp)
  rw [sum_three]
  omega

theorem tpReadXoy_lt : tpReadXoy samples < 65536 := by
  obtain ⟨mean, fits⟩ := tpReadXoy_eq samples
  rw [mean]
  omega

end Axis

section Rounds

variable {r : Reading} {x y : UInt16}

/-- The window test, as a distance. -/
theorem agree_iff (a1 a2 : Nat) : Agree a1 a2 ↔ |(a1 : Int) - a2| < 50 := by
  unfold Agree errRange
  rw [abs_lt]
  omega

theorem ofNat_tpReadXoy (samples : Samples) : (UInt16.ofNat (tpReadXoy samples)).toNat = tpReadXoy samples :=
  UInt16.toNat_ofNat_of_lt' (tpReadXoy_lt samples)

/-- The answer is 1 with the reading's coordinates, or 0 and both are as they were. -/
theorem tpReadXY2At_eq (r : Reading) (x y : UInt16) :
    tpReadXY2At r x y = match tpReadXY2 r with | some (x', y') => (1, x', y') | none => (0, x, y) := by
  simp only [tpReadXY2At, tpReadXY2, tpReadXY, ofNat_tpReadXoy]
  rw [if_neg (by decide), if_neg (by decide)]
  split <;> rfl

/-- What a scan keeps of a raw reading. -/
theorem TpDev.read_eq (s : TpDev) (cal : Calibration) (r : Reading) :
    s.read cal true r = { s with x0 := (tpReadXY2At r s.x0 s.y0).2.1, y0 := (tpReadXY2At r s.x0 s.y0).2.2 } := by
  rw [tpReadXY2At_eq, TpDev.read]
  cases tpReadXY2 r <;> rfl

theorem tpReadXY2At_agree (agree : Agree (tpReadXoy r.x1) (tpReadXoy r.x2) ∧ Agree (tpReadXoy r.y1) (tpReadXoy r.y2)) :
    tpReadXY2At r x y = (1, UInt16.ofNat ((tpReadXoy r.x1 + tpReadXoy r.x2) / 2), UInt16.ofNat ((tpReadXoy r.y1 + tpReadXoy r.y2) / 2)) := by
  rw [tpReadXY2At_eq, tpReadXY2, if_pos agree]

theorem tpReadXY2At_disagree (disagree : ¬ (Agree (tpReadXoy r.x1) (tpReadXoy r.x2) ∧ Agree (tpReadXoy r.y1) (tpReadXoy r.y2))) :
    tpReadXY2At r x y = (0, x, y) := by
  rw [tpReadXY2At_eq, tpReadXY2, if_neg disagree]

/-- Half of the sum of two rounds. -/
theorem half_mem (a1 a2 : Samples) :
    min (tpReadXoy a1) (tpReadXoy a2) ≤ (UInt16.ofNat ((tpReadXoy a1 + tpReadXoy a2) / 2)).toNat ∧
      (UInt16.ofNat ((tpReadXoy a1 + tpReadXoy a2) / 2)).toNat ≤ max (tpReadXoy a1) (tpReadXoy a2) := by
  have small1 := tpReadXoy_lt a1
  have small2 := tpReadXoy_lt a2
  rw [UInt16.toNat_ofNat_of_lt' (by show (tpReadXoy a1 + tpReadXoy a2) / 2 < 65536; omega)]
  omega

theorem tpReadXY2At_accepted_iff :
    (tpReadXY2At r x y).1 = 1 ↔ Agree (tpReadXoy r.x1) (tpReadXoy r.x2) ∧ Agree (tpReadXoy r.y1) (tpReadXoy r.y2) := by
  constructor
  · intro accepted
    by_contra disagree
    rw [tpReadXY2At_disagree disagree] at accepted
    exact absurd accepted (show (0 : UInt8) ≠ 1 by decide)
  · intro agree
    rw [tpReadXY2At_agree agree]

end Rounds

/-- **The touch filter.** -/
theorem touchFilter_sound :
    (∀ samples : Samples, tpReadXoy samples = (middleSamples samples).sum / 3 ∧ (middleSamples samples).sum < 2 ^ 16) ∧
    (∀ (samples : Samples) (a b : Nat), 4 ≤ (Finset.univ.filter fun i => a ≤ (samples i).val ∧ (samples i).val ≤ b).card →
      a ≤ tpReadXoy samples ∧ tpReadXoy samples ≤ b) ∧
    ∀ (r : Reading) (x y : UInt16),
      ((tpReadXY2At r x y).1 = 1 ↔ |(tpReadXoy r.x1 : Int) - tpReadXoy r.x2| < 50 ∧ |(tpReadXoy r.y1 : Int) - tpReadXoy r.y2| < 50) ∧
      ((tpReadXY2At r x y).1 = 1 →
        (min (tpReadXoy r.x1) (tpReadXoy r.x2) ≤ (tpReadXY2At r x y).2.1.toNat ∧
          (tpReadXY2At r x y).2.1.toNat ≤ max (tpReadXoy r.x1) (tpReadXoy r.x2)) ∧
        (min (tpReadXoy r.y1) (tpReadXoy r.y2) ≤ (tpReadXY2At r x y).2.2.toNat ∧
          (tpReadXY2At r x y).2.2.toNat ≤ max (tpReadXoy r.y1) (tpReadXoy r.y2))) ∧
      ((tpReadXY2At r x y).1 ≠ 1 → tpReadXY2At r x y = (0, x, y)) := by
  refine ⟨tpReadXoy_eq, fun samples a b most => tpReadXoy_mem samples most, fun r x y => ⟨?_, ?_, ?_⟩⟩
  · rw [← agree_iff, ← agree_iff]
    exact tpReadXY2At_accepted_iff
  · intro accepted
    rw [tpReadXY2At_agree (tpReadXY2At_accepted_iff.mp accepted)]
    exact ⟨half_mem r.x1 r.x2, half_mem r.y1 r.y2⟩
  · intro refused
    exact tpReadXY2At_disagree fun agree => refused (tpReadXY2At_accepted_iff.mpr agree)

/-- Four samples from 100 to 110 and one that is far off; two rounds that agree, and two that do not. -/
theorem touchFilter_sound_outlier :
    let near : Samples := ![105, 4000, 100, 110, 103]
    let far : Samples := ![200, 200, 200, 200, 200]
    (100 ≤ tpReadXoy near ∧ tpReadXoy near ≤ 110) ∧ (tpReadXY2At ⟨near, near, near, near⟩ 7 9).2.1.toNat ≤ max 106 106 ∧
      tpReadXY2At ⟨near, near, far, near⟩ 7 9 = (0, 7, 9) := by
  intro near far
  have mean : tpReadXoy near = 106 := by decide
  refine ⟨touchFilter_sound.2.1 near 100 110 (by decide), ?_, (touchFilter_sound.2.2 ⟨near, near, far, near⟩ 7 9).2.2 (by decide)⟩
  rw [← mean]
  exact ((touchFilter_sound.2.2 ⟨near, near, near, near⟩ 7 9).2.1 (by decide)).1.2

end DoorSecurity
