import DoorSecurity.Eeprom.Device

/-!
# Tag slots and the count byte (`bsp/rc522_function.h`)

Byte 0 carries the mark `10` in its top two bits and the number of registered
tags in the other six. Tag `j`, counted from one, occupies the four bytes from
`Tag_Stored_Base_Add(j)`. Slots and the count byte are the vocabulary of
every later statement about the access list.
-/

namespace DoorSecurity
set_option autoImplicit false
open Bus

instance neZeroFour : NeZero 4 := ⟨by decide⟩

/-- A card's UID. -/
abbrev TagId := Fin 4 → UInt8

def modCntTagAdd : Nat := 0x00
def baseAdd : Int := 0x01
def ifModified : UInt8 := 0xc0
def getTagCnt : UInt8 := 0x3f
def modified : UInt8 := 0x80

/-- `Tag_Stored_Base_Add(cnt)`: integer arithmetic, negative at zero. -/
def tagStoredBaseAdd (cnt : Nat) : Int := (cnt : Int) * 4 - 4 + baseAdd

theorem uint16_slot {j i : Nat} (first : 1 ≤ j) (last : j ≤ 64) (byte : i < 4) :
    uint16 (tagStoredBaseAdd j + i) = 4 * j - 3 + i := by
  unfold uint16 tagStoredBaseAdd baseAdd
  omega

/-- The tag count held in byte 0. -/
def countOf (b : UInt8) : Nat := (b &&& getTagCnt).toNat

/-- `cnt|Modified` as a byte. -/
def countByte (cnt : Nat) : UInt8 := UInt8.ofNat cnt ||| modified

theorem countOf_lt (b : UInt8) : countOf b < 64 := by
  unfold countOf getTagCnt
  rw [UInt8.toNat_and]
  exact Nat.and_lt_two_pow (n := 6) _ (by decide)

theorem countOf_countByte {n : Nat} (h : n < 64) : countOf (countByte n) = n := by
  have table : ∀ k : Fin 64, countOf (countByte k.val) = k.val := by decide
  exact table ⟨n, h⟩

theorem countByte_marked {n : Nat} (h : n < 64) : countByte n &&& ifModified = 0x80 := by
  have table : ∀ k : Fin 64, countByte k.val &&& ifModified = 0x80 := by decide
  exact table ⟨n, h⟩

/-- The first `c` bytes of `new`, the others of `old`: a slot cut off between two
byte writes. -/
def splice (c : Nat) (new old : TagId) : TagId := fun i => if i.val < c then new i else old i

theorem splice_of_le {c : Nat} (h : 4 ≤ c) (new old : TagId) : splice c new old = new := by
  funext i
  simp only [splice, if_pos (show i.val < c by omega)]

@[simp] theorem splice_four (new old : TagId) : splice 4 new old = new := splice_of_le (Nat.le_refl _) new old

namespace Eeprom

variable (m : Eeprom)

/-- The ID in slot `j`. -/
def slot (j : Nat) : TagId := fun i => m.get (4 * j - 3 + i.val)

def count : Nat := countOf (m.get 0)

/-- The first `c` bytes of `id` written to slot `j`. -/
def putBytes (j : Nat) (id : TagId) : Nat → Eeprom
  | 0 => m
  | c + 1 => (putBytes j id c).set (4 * j - 3 + c) (id (Fin.ofNat 4 c))

def setSlot (j : Nat) (id : TagId) : Eeprom := m.putBytes j id 4

theorem putBytes_succ (j : Nat) (id : TagId) (c : Nat) :
    m.putBytes j id (c + 1) = (m.putBytes j id c).set (4 * j - 3 + c) (id (Fin.ofNat 4 c)) := rfl

/-- Byte 0 read as a count. -/
theorem countOf_byte0 : countOf (m.get 0) = m.count := by rw [count]

theorem count_lt : m.count < 64 := countOf_lt _

variable {m}

/-- Bytes outside the written prefix stay. -/
theorem get_putBytes_outside {j : Nat} (hj : j ≤ 63) (id : TagId) {a : Nat} (ha : a < 256) {c : Nat} (hc : c ≤ 4)
    (outside : ¬ (4 * j - 3 ≤ a ∧ a < 4 * j - 3 + c)) : (m.putBytes j id c).get a = m.get a := by
  induction c with
  | zero => rfl
  | succ c ih =>
    rw [putBytes_succ, get_set_ne _ _ (by omega) ha (by omega)]
    exact ih (by omega) (by omega)

theorem get_putBytes_inside {j : Nat} (hj : j ≤ 63) (id : TagId) (i : Fin 4) {c : Nat} (hc : c ≤ 4)
    (hi : i.val < c) : (m.putBytes j id c).get (4 * j - 3 + i.val) = id i := by
  induction c with
  | zero => omega
  | succ c ih =>
    rw [putBytes_succ]
    by_cases last : i.val = c
    · rw [← last, get_set_self]
      congr 1
      exact Fin.ext (Nat.mod_eq_of_lt i.isLt)
    · rw [get_set_ne _ _ (by omega) (by omega) (by omega)]
      exact ih (by omega) (by omega)

theorem slot_putBytes_self {j : Nat} (hj : j ≤ 63) (id : TagId) {c : Nat} (hc : c ≤ 4) :
    (m.putBytes j id c).slot j = splice c id (m.slot j) := by
  funext i
  unfold splice slot
  split
  · rename_i h; exact get_putBytes_inside hj id i hc h
  · exact get_putBytes_outside hj id (by omega) hc (by omega)

theorem slot_putBytes_ne {j q : Nat} (hj : j ≤ 63) (hq : q ≤ 63) (first : 1 ≤ j) (firstq : 1 ≤ q) (ne : q ≠ j)
    (id : TagId) {c : Nat} (hc : c ≤ 4) : (m.putBytes j id c).slot q = m.slot q := by
  funext i
  exact get_putBytes_outside hj id (by omega) hc (by omega)

@[simp] theorem slot_setSlot_self {j : Nat} (hj : j ≤ 63) (id : TagId) : (m.setSlot j id).slot j = id := by
  rw [setSlot, slot_putBytes_self hj id (Nat.le_refl _), splice_four]

theorem slot_setSlot_ne {j q : Nat} (hj : j ≤ 63) (hq : q ≤ 63) (first : 1 ≤ j) (firstq : 1 ≤ q) (ne : q ≠ j)
    (id : TagId) : (m.setSlot j id).slot q = m.slot q :=
  slot_putBytes_ne hj hq first firstq ne id (Nat.le_refl _)

theorem get_setSlot_outside {j : Nat} (first : 1 ≤ j) (hj : j ≤ 63) (id : TagId) {a : Nat} (ha : a < 256)
    (outside : ¬ (4 * j - 3 ≤ a ∧ a < 4 * j + 1)) : (m.setSlot j id).get a = m.get a :=
  get_putBytes_outside hj id ha (Nat.le_refl _) (by omega)

theorem count_putBytes {j : Nat} (first : 1 ≤ j) (hj : j ≤ 63) (id : TagId) {c : Nat} (hc : c ≤ 4) :
    (m.putBytes j id c).count = m.count := by
  unfold count
  rw [get_putBytes_outside hj id (by omega) hc (by omega)]

theorem slot_set_zero {q : Nat} (first : 1 ≤ q) (hq : q ≤ 63) (v : UInt8) : (m.set 0 v).slot q = m.slot q := by
  funext i
  exact get_set_ne m v (by omega) (by omega) (by omega)

theorem count_set_zero (v : UInt8) : (m.set 0 v).count = countOf v := by
  unfold count; rw [get_set_self]

end Eeprom

end DoorSecurity
