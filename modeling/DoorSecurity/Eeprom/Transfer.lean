import DoorSecurity.Eeprom.Device

/-!
# Blocks and numbers in the EEPROM (`bsp/24cxx.c`)

`AT24CXX_Read` is the other half of `AT24CXX_Write`. A number goes out low byte first
and comes in high byte first, from the last address down: both sides have its
digits to the base 256 at ascending addresses.
-/

namespace DoorSecurity
set_option autoImplicit false
open Bus Eeprom

/-- `AT24CXX_Read`: `*pBuffer++=AT24CXX_ReadOneByte(ReadAddr++)`, `NumToRead` times. -/
def at24cxxRead : Nat → Nat → Code (List UInt8)
  | _, 0 => pure []
  | readAddr, numToRead + 1 => do
    let b ← at24cxxReadOneByte readAddr
    let pBuffer ← at24cxxRead (uint16 (readAddr + 1)) numToRead
    return b :: pBuffer

/-- `(DataToWrite>>(8*t))&0xff`. -/
def lenByte (dataToWrite : UInt32) (t : Nat) : UInt8 := (dataToWrite >>> UInt32.ofNat (8 * t) &&& 0xff).toUInt8

/-- `AT24CXX_WriteLenByte`. -/
def at24cxxWriteLenByte (writeAddr : Nat) (dataToWrite : UInt32) (len : UInt8) : Code Unit :=
  Prog.forLoop 0 len.toNat () fun t _ => at24cxxWriteOneByte (uint16 (writeAddr + t)) (lenByte dataToWrite t)

/-- `AT24CXX_ReadLenByte`. -/
def at24cxxReadLenByte (readAddr : Nat) (len : UInt8) : Code UInt32 :=
  Prog.forLoop 0 len.toNat 0 fun t temp => do
    let b ← at24cxxReadOneByte (uint16 (readAddr + len.toNat - t - 1))
    return (temp <<< 8) + b.toUInt32

namespace Eeprom

/-- The `n` bytes from `a` on. -/
def bytes (m : Eeprom) (a n : Nat) : List UInt8 := (List.range' a n).map m.get

/-- The number that has these bytes as its digits, the lowest one first. -/
def number (m : Eeprom) (a n : Nat) : Nat := Nat.ofDigits 256 ((m.bytes a n).map UInt8.toNat)

variable (m : Eeprom) (a n : Nat)

theorem bytes_succ : m.bytes a (n + 1) = m.get a :: m.bytes (a + 1) n := rfl

theorem number_succ : m.number a (n + 1) = (m.get a).toNat + 256 * m.number (a + 1) n := by
  rw [number, bytes_succ, List.map_cons, Nat.ofDigits_cons]
  rfl

/-- A write past a block leaves the block. -/
theorem bytes_set {a b n : Nat} (v : UInt8) (after : a + n ≤ b) (small : b < 256) : (m.set b v).bytes a n = m.bytes a n := by
  apply List.map_congr_left
  intro x inside
  obtain ⟨-, below⟩ := List.mem_range'_1.mp inside
  exact get_set_ne m v small (by omega) (by omega)

end Eeprom

section Block

variable {a : Nat}

/-- `AT24CXX_Read` is the block, and the memory stays as it is. -/
theorem exec_at24cxxRead (m : Eeprom) (n : Nat) (fits : a + n ≤ 256) : at24c02.exec (at24cxxRead a n) m = (m.bytes a n, m) := by
  induction n generalizing a with
  | zero => rfl
  | succ n ih =>
    have next : uint16 (a + 1) = a + 1 := uint16_of_lt (show a + 1 < 65536 by omega)
    rw [at24cxxRead, exec_readOneByte_bind (by omega), next, Device.exec_bind_of _ (ih (by omega)), bytes_succ]
    rfl

/-- **What a block write leaves in its block.** -/
theorem bytes_exec_at24cxxWrite (buffer : List UInt8) (m : Eeprom) (fits : a + buffer.length ≤ 256) :
    (at24c02.exec (at24cxxWrite a buffer) m).2.bytes a buffer.length = buffer := by
  induction buffer generalizing a m with
  | nil => rfl
  | cons v buffer ih =>
    rw [List.length_cons] at fits
    have first : (at24c02.exec (at24cxxWrite (a + 1) buffer) (m.set a v)).2.get a = v := by
      rw [get_exec_at24cxxWrite buffer (a + 1) (m.set a v) (by omega) a (by omega) (by omega), get_set_self]
    rw [exec_at24cxxWrite_cons buffer m fits, List.length_cons, bytes_succ, first, ih (m.set a v) (by omega)]

end Block

section Number

variable {a : Nat}

/-- A byte that goes out is a digit. -/
theorem lenByte_toNat (v : UInt32) {t : Nat} (low : t < 4) : (lenByte v t).toNat = v.toNat / 256 ^ t % 256 := by
  have shift : (UInt32.ofNat (8 * t)).toNat = 8 * t := UInt32.toNat_ofNat_of_lt' (by show 8 * t < 4294967296; omega)
  have mask : (0xff : UInt32).toNat = 2 ^ 8 - 1 := rfl
  have power : 256 ^ t = 2 ^ (8 * t) := by rw [Nat.pow_mul]
  rw [lenByte, UInt32.toNat_toUInt8, UInt32.toNat_and, UInt32.toNat_shiftRight, shift, mask, Nat.and_two_pow_sub_one_eq_mod,
    Nat.mod_eq_of_lt (show 8 * t < 32 by omega), Nat.shiftRight_eq_div_pow, Nat.mod_mod, power]

/-- `AT24CXX_WriteLenByte` is a block write of the digits. -/
theorem exec_at24cxxWriteLenByte (v : UInt32) (len : UInt8) (m : Eeprom) (fits : a + len.toNat ≤ 256) :
    at24c02.exec (at24cxxWriteLenByte a v len) m = at24c02.exec (at24cxxWrite a ((List.range len.toNat).map (lenByte v))) m := by
  have rounds : ∀ n lo m, a + (lo + n) ≤ 256 →
      at24c02.exec (Prog.forLoop lo n () fun t _ => at24cxxWriteOneByte (uint16 (a + t)) (lenByte v t)) m =
        at24c02.exec (at24cxxWrite (a + lo) ((List.range' lo n).map (lenByte v))) m := by
    intro n
    induction n with
    | zero => intro lo m _; rfl
    | succ n ih =>
      intro lo m fits
      have here : uint16 (a + lo) = a + lo := uint16_of_lt (by omega)
      rw [Prog.forLoop_succ, here, exec_writeOneByte_bind (by omega), ih (lo + 1) _ (by omega), List.range'_succ, List.map_cons,
        exec_at24cxxWrite_cons _ m (by simp; omega), Nat.add_assoc]
  rw [at24cxxWriteLenByte, rounds len.toNat 0 m (by omega), List.range_eq_range', Nat.add_zero]

/-- The first digits of a number are those of its remainder. -/
theorem ofDigits_range (v n : Nat) : Nat.ofDigits 256 ((List.range n).map fun t => v / 256 ^ t % 256) = v % 256 ^ n := by
  induction n with
  | zero => exact (Nat.mod_one v).symm
  | succ n ih =>
    rw [List.range_succ, List.map_append, List.map_singleton, Nat.ofDigits_append, ih, List.length_map, List.length_range,
      Nat.ofDigits_singleton, Nat.mod_pow_succ]

/-- One round of the read: the digits so far move up and the next lower one comes in. -/
theorem shift_add_digit (n : Nat) (b : UInt8) : (UInt32.ofNat n <<< 8) + b.toUInt32 = UInt32.ofNat (b.toNat + 256 * n) := by
  apply UInt32.toNat_inj.mp
  rw [UInt32.toNat_add, UInt32.toNat_shiftLeft, UInt32.toNat_ofNat', UInt32.toNat_ofNat', UInt8.toNat_toUInt32]
  have shift : (8 : UInt32).toNat % 32 = 8 := rfl
  rw [shift, Nat.shiftLeft_eq]
  omega

/-- **`AT24CXX_ReadLenByte` is the number** that has the bytes as its digits, as far as it fits. -/
theorem exec_at24cxxReadLenByte (m : Eeprom) (len : UInt8) (fits : a + len.toNat ≤ 256) :
    at24c02.exec (at24cxxReadLenByte a len) m = (UInt32.ofNat (m.number a len.toNat), m) := by
  -- after `t` rounds: the number of the block's last `t` bytes
  apply at24c02.exec_forLoop (fun t => UInt32.ofNat (m.number (a + (len.toNat - t)) t)) (fun _ => m) rfl
  · rw [Nat.zero_add, Nat.sub_self, Nat.add_zero]
  · intro t _ inside
    rw [Nat.zero_add] at inside
    have here : uint16 ((a : Int) + len.toNat - t - 1) = a + (len.toNat - (t + 1)) := by
      unfold uint16
      omega
    have above : a + (len.toNat - (t + 1)) + 1 = a + (len.toNat - t) := by omega
    rw [here, exec_readOneByte_bind (by omega), shift_add_digit, number_succ, above]
    rfl

/-- A number that is written comes back modulo the width that is read. -/
theorem exec_at24cxxReadLenByte_write (m : Eeprom) (v : UInt32) (len : UInt8) (low : len.toNat ≤ 4) (fits : a + len.toNat ≤ 256) :
    let m' := (at24c02.exec (at24cxxWriteLenByte a v len) m).2
    at24c02.exec (at24cxxReadLenByte a len) m' = (UInt32.ofNat (v.toNat % 2 ^ (8 * len.toNat)), m') := by
  intro m'
  have length : ((List.range len.toNat).map (lenByte v)).length = len.toNat := by rw [List.length_map, List.length_range]
  have block := bytes_exec_at24cxxWrite ((List.range len.toNat).map (lenByte v)) m (a := a) (by omega)
  rw [← exec_at24cxxWriteLenByte v len m fits, length] at block
  have digits : ((List.range len.toNat).map (lenByte v)).map UInt8.toNat = (List.range len.toNat).map fun t => v.toNat / 256 ^ t % 256 := by
    rw [List.map_map]
    apply List.map_congr_left
    intro t inside
    have below := List.mem_range.mp inside
    exact lenByte_toNat v (by omega)
  rw [exec_at24cxxReadLenByte m' len fits, number, block, digits, ofDigits_range, Nat.pow_mul]

end Number

end DoorSecurity
