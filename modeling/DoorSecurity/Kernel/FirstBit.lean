import Mathlib

/-!
# The first bit set (`__rt_ffs` in `rt-thread/src/kservice.c`)

The ready priorities are a word with one bit for each priority. `__rt_ffs` looks the
lowest bit up a byte at a time.
-/

namespace DoorSecurity
set_option autoImplicit false

/-- `__lowest_bit_bitmap`. -/
def lowestBitBitmap : List Nat := [
  0, 0, 1, 0, 2, 0, 1, 0, 3, 0, 1, 0, 2, 0, 1, 0,
  4, 0, 1, 0, 2, 0, 1, 0, 3, 0, 1, 0, 2, 0, 1, 0,
  5, 0, 1, 0, 2, 0, 1, 0, 3, 0, 1, 0, 2, 0, 1, 0,
  4, 0, 1, 0, 2, 0, 1, 0, 3, 0, 1, 0, 2, 0, 1, 0,
  6, 0, 1, 0, 2, 0, 1, 0, 3, 0, 1, 0, 2, 0, 1, 0,
  4, 0, 1, 0, 2, 0, 1, 0, 3, 0, 1, 0, 2, 0, 1, 0,
  5, 0, 1, 0, 2, 0, 1, 0, 3, 0, 1, 0, 2, 0, 1, 0,
  4, 0, 1, 0, 2, 0, 1, 0, 3, 0, 1, 0, 2, 0, 1, 0,
  7, 0, 1, 0, 2, 0, 1, 0, 3, 0, 1, 0, 2, 0, 1, 0,
  4, 0, 1, 0, 2, 0, 1, 0, 3, 0, 1, 0, 2, 0, 1, 0,
  5, 0, 1, 0, 2, 0, 1, 0, 3, 0, 1, 0, 2, 0, 1, 0,
  4, 0, 1, 0, 2, 0, 1, 0, 3, 0, 1, 0, 2, 0, 1, 0,
  6, 0, 1, 0, 2, 0, 1, 0, 3, 0, 1, 0, 2, 0, 1, 0,
  4, 0, 1, 0, 2, 0, 1, 0, 3, 0, 1, 0, 2, 0, 1, 0,
  5, 0, 1, 0, 2, 0, 1, 0, 3, 0, 1, 0, 2, 0, 1, 0,
  4, 0, 1, 0, 2, 0, 1, 0, 3, 0, 1, 0, 2, 0, 1, 0]

/-- `__lowest_bit_bitmap[byte]`, for a byte. -/
def lowestBit (byte : BitVec 32) : Nat := lowestBitBitmap.getD byte.toNat 0

/-- `__rt_ffs`. -/
def rtFfs (value : BitVec 32) : Nat :=
  if value = 0 then 0
  else if value &&& 0xff#32 ≠ 0 then lowestBit (value &&& 0xff#32) + 1
  else if value &&& 0xff00#32 ≠ 0 then lowestBit ((value &&& 0xff00#32) >>> 8) + 9
  else if value &&& 0xff0000#32 ≠ 0 then lowestBit ((value &&& 0xff0000#32) >>> 16) + 17
  else lowestBit ((value &&& 0xff000000#32) >>> 24) + 25

/-- `i` is the lowest bit that is set. -/
def IsLowest (value : BitVec 32) (i : Nat) : Prop := value.getLsbD i = true ∧ ∀ j, j < i → value.getLsbD j = false

/-- The table holds the lowest bit of each byte. -/
theorem lowestBitBitmap_spec : ∀ b : Fin 256, b.val ≠ 0 →
    b.val.testBit (lowestBitBitmap.getD b.val 0) = true ∧ lowestBitBitmap.getD b.val 0 < 8 ∧
      ∀ j : Fin 8, j.val < lowestBitBitmap.getD b.val 0 → b.val.testBit j = false := by
  decide +kernel

section Bytes

variable (value : BitVec 32) {k : Nat}

/-- The byte at bit `k`. -/
def byteAt (value : BitVec 32) (k : Nat) : BitVec 32 := (value &&& (0xff#32 <<< k)) >>> k

theorem getLsbD_byteAt (k i : Nat) : (byteAt value k).getLsbD i = (value.getLsbD (k + i) && decide (i < 8)) := by
  have mask : (0xff#32).getLsbD i = decide (i < 8) := by
    rw [show 0xff#32 = BitVec.setWidth 32 (BitVec.allOnes 8) by decide, BitVec.getLsbD_setWidth, BitVec.getLsbD_allOnes]
    by_cases inside : i < 8 <;> simp [inside]
    omega
  rw [byteAt, BitVec.getLsbD_ushiftRight, BitVec.getLsbD_and, BitVec.getLsbD_shiftLeft, Nat.add_sub_cancel_left, mask]
  by_cases inside : k + i < 32
  · simp [inside]
  · rw [BitVec.getLsbD_of_ge value _ (by omega)]
    simp

theorem byteAt_lt (k : Nat) : (byteAt value k).toNat < 256 := by
  apply Nat.lt_pow_two_of_testBit (n := 8)
  intro i high
  show (byteAt value k).getLsbD i = false
  rw [getLsbD_byteAt, decide_eq_false (show ¬ i < 8 by omega), Bool.and_false]

/-- The lookup in the lowest byte that is not 0. -/
theorem isLowest_byteAt (some : byteAt value k ≠ 0) (below : ∀ j, j < k → value.getLsbD j = false) :
    lowestBit (byteAt value k) < 8 ∧ IsLowest value (k + lowestBit (byteAt value k)) := by
  obtain ⟨set, small, first⟩ : (byteAt value k).toNat.testBit (lowestBit (byteAt value k)) = true ∧ lowestBit (byteAt value k) < 8 ∧
      ∀ j : Fin 8, j.val < lowestBit (byteAt value k) → (byteAt value k).toNat.testBit j = false :=
    lowestBitBitmap_spec ⟨(byteAt value k).toNat, byteAt_lt value k⟩ fun none => some (BitVec.eq_of_toNat_eq none)
  refine ⟨small, ?_, fun j lower => ?_⟩
  · have bit : (byteAt value k).getLsbD (lowestBit (byteAt value k)) = true := set
    rw [getLsbD_byteAt, Bool.and_eq_true] at bit
    exact bit.1
  · rcases Nat.lt_or_ge j k with outside | inside
    · exact below j outside
    · have clear : (byteAt value k).getLsbD (j - k) = false :=
        first ⟨j - k, by omega⟩ (show j - k < lowestBit (byteAt value k) by omega)
      rw [getLsbD_byteAt, Nat.add_sub_cancel' inside, decide_eq_true (show j - k < 8 by omega), Bool.and_true] at clear
      exact clear

/-- A byte of 0 has no bit. -/
theorem byte_clear (none : byteAt value k = 0) {j : Nat} (lower : k ≤ j) (upper : j < k + 8) : value.getLsbD j = false := by
  have bit := getLsbD_byteAt value k (j - k)
  rw [none, Nat.add_sub_cancel' lower, decide_eq_true (show j - k < 8 by omega), Bool.and_true] at bit
  exact bit.symm.trans (BitVec.getLsbD_zero)

end Bytes

/-- A byte is 0 just when its mask leaves nothing. -/
theorem byteAt_eq_zero_iff (value : BitVec 32) (k : Nat) : byteAt value k = 0 ↔ value &&& (0xff#32 <<< k) = 0 := by
  constructor
  · intro none
    apply BitVec.eq_of_getLsbD_eq
    intro i inside
    rw [BitVec.getLsbD_and, BitVec.getLsbD_shiftLeft]
    rcases Nat.lt_or_ge i k with below | above
    · simp [below]
    · have bit : (byteAt value k).getLsbD (i - k) = false := by rw [none]; exact BitVec.getLsbD_zero
      rw [byteAt, BitVec.getLsbD_ushiftRight, Nat.add_sub_cancel' above, BitVec.getLsbD_and, BitVec.getLsbD_shiftLeft] at bit
      rw [bit]
      exact BitVec.getLsbD_zero.symm
  · intro none
    rw [byteAt, none]
    exact BitVec.zero_ushiftRight

/-- The tests of the four bytes, lowest first. -/
theorem rtFfs_eq (value : BitVec 32) : rtFfs value =
    if value = 0 then 0
    else if byteAt value 0 ≠ 0 then lowestBit (byteAt value 0) + 1
    else if byteAt value 8 ≠ 0 then lowestBit (byteAt value 8) + 9
    else if byteAt value 16 ≠ 0 then lowestBit (byteAt value 16) + 17
    else lowestBit (byteAt value 24) + 25 := by
  have byte0 : value &&& 0xff#32 = byteAt value 0 := by rw [byteAt, BitVec.shiftLeft_zero, BitVec.ushiftRight_zero]
  have byte1 : (value &&& 0xff00#32) >>> 8 = byteAt value 8 := rfl
  have byte2 : (value &&& 0xff0000#32) >>> 16 = byteAt value 16 := rfl
  have byte3 : (value &&& 0xff000000#32) >>> 24 = byteAt value 24 := rfl
  have mask1 : value &&& 0xff00#32 = 0 ↔ byteAt value 8 = 0 := (byteAt_eq_zero_iff value 8).symm
  have mask2 : value &&& 0xff0000#32 = 0 ↔ byteAt value 16 = 0 := (byteAt_eq_zero_iff value 16).symm
  simp only [rtFfs, ne_eq, byte0, byte1, byte2, byte3, mask1, mask2]

/-- **`__rt_ffs`** answers one more than the lowest bit of a word that is not 0. -/
theorem rtFfs_spec {value : BitVec 32} (some : value ≠ 0) : ∃ i : Fin 32, rtFfs value = i.val + 1 ∧ IsLowest value i := by
  have clear : ∀ {k}, byteAt value k = 0 → (∀ j, j < k → value.getLsbD j = false) → ∀ j, j < k + 8 → value.getLsbD j = false := by
    intro k none below j upper
    rcases Nat.lt_or_ge j k with outside | inside
    · exact below j outside
    · exact byte_clear value none inside upper
  have found : ∀ {k}, k ≤ 24 → byteAt value k ≠ 0 → (∀ j, j < k → value.getLsbD j = false) →
      ∃ i : Fin 32, lowestBit (byteAt value k) + (k + 1) = i.val + 1 ∧ IsLowest value i := by
    intro k fits some below
    obtain ⟨small, lowest⟩ := isLowest_byteAt value some below
    exact ⟨⟨k + lowestBit (byteAt value k), by omega⟩, by rw [Nat.add_left_comm, Nat.add_assoc], lowest⟩
  rw [rtFfs_eq, if_neg some]
  have below0 : ∀ j, j < 0 → value.getLsbD j = false := fun j none => absurd none (Nat.not_lt_zero j)
  split
  · exact found (by decide) ‹_› below0
  · rename_i byte0
    have below8 := clear (not_not.mp byte0) below0
    split
    · exact found (by decide) ‹_› below8
    · rename_i byte1
      have below16 := clear (not_not.mp byte1) below8
      split
      · exact found (by decide) ‹_› below16
      · rename_i byte2
        have below24 := clear (not_not.mp byte2) below16
        refine found (by decide) (fun byte3 => some ?_) below24
        apply BitVec.eq_of_getLsbD_eq
        intro i inside
        exact (clear byte3 below24 i inside).trans BitVec.getLsbD_zero.symm

end DoorSecurity
