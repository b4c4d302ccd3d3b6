import DoorSecurity.Bus.Program

/-!
# The AT24C02 and its driver (`bsp/24cxx.c`)

The driver takes a 16-bit address and puts two bytes on the I2C bus: a
device-select byte carrying the address bits above 255 and the low address byte.
The 256-byte part answers the select byte `0xA0` alone: a write with any other
select byte leaves the memory as it is. No count below 63 makes the driver read
with another select byte, and such a read is taken to sample the pulled-up line.
-/

namespace DoorSecurity
set_option autoImplicit false
open Bus

/-- The memory of an AT24C02. -/
structure Eeprom where
  cells : Fin 256 → UInt8

namespace Eeprom

/-- The cell at a word address; the part decodes eight address bits. -/
def get (m : Eeprom) (a : Nat) : UInt8 := m.cells (Fin.ofNat 256 a)

def set (m : Eeprom) (a : Nat) (v : UInt8) : Eeprom := ⟨Function.update m.cells (Fin.ofNat 256 a) v⟩

/-- A part as it leaves the factory. -/
def blank : Eeprom := ⟨fun _ => 0xFF⟩

theorem get_set (m : Eeprom) (a b : Nat) (v : UInt8) :
    (m.set a v).get b = if b % 256 = a % 256 then v else m.get b := by
  simp only [get, set]
  by_cases h : b % 256 = a % 256
  · rw [if_pos h, show Fin.ofNat 256 b = Fin.ofNat 256 a from Fin.ext h, Function.update_self]
  · rw [if_neg h, Function.update_of_ne]
    exact fun e => h (congrArg Fin.val e)

@[simp] theorem get_set_self (m : Eeprom) (a : Nat) (v : UInt8) : (m.set a v).get a = v := by
  rw [get_set, if_pos rfl]

theorem get_set_ne (m : Eeprom) {a b : Nat} (v : UInt8) (ha : a < 256) (hb : b < 256) (h : b ≠ a) :
    (m.set a v).get b = m.get b := by
  rw [get_set, if_neg (by omega)]

@[simp] theorem set_set (m : Eeprom) (a : Nat) (v w : UInt8) : (m.set a v).set a w = m.set a w := by
  simp only [set, Function.update_idem]

end Eeprom

/-- The two bytes that address a transaction on the bus. -/
structure BusAddr where
  select : Nat
  word : Nat

/-- A C integer passed as `uint16_t`. -/
def uint16 (x : Int) : Nat := (x % 65536).toNat

theorem uint16_of_lt {a : Nat} (small : a < 65536) : uint16 a = a := by
  unfold uint16
  omega

/-- A C integer passed as `uint32_t`. -/
def uint32 (x : Int) : Nat := (x % 4294967296).toNat

/-- `0XA0+((addr/256)<<1)` as a byte, and `addr%256`. -/
def busAddr (addr : Nat) : BusAddr := ⟨(0xA0 + addr / 256 * 2) % 256, addr % 256⟩

theorem busAddr_of_lt {a : Nat} (h : a < 256) : busAddr a = ⟨0xA0, a⟩ := by
  simp only [busAddr, Nat.div_eq_of_lt h, Nat.mod_eq_of_lt h]

/-- The part on the bus: it takes part in a transaction whose select byte is its own. -/
def at24c02 : Device Eeprom BusAddr UInt8 where
  read m x := if x.select = 0xA0 then m.get x.word else 0xFF
  write m x v := if x.select = 0xA0 then m.set x.word v else m

theorem at24c02_read {a : Nat} (h : a < 256) (m : Eeprom) : at24c02.read m (busAddr a) = m.get a := by
  rw [busAddr_of_lt h]; rfl

theorem at24c02_write {a : Nat} (h : a < 256) (m : Eeprom) (v : UInt8) :
    at24c02.write m (busAddr a) v = m.set a v := by
  rw [busAddr_of_lt h]; rfl

/-- Driver code: a program over the bus. -/
abbrev Code := Prog BusAddr UInt8

/-- `AT24CXX_ReadOneByte`. -/
def at24cxxReadOneByte (readAddr : Nat) : Code UInt8 := Prog.get (busAddr readAddr)

/-- `AT24CXX_WriteOneByte`. -/
def at24cxxWriteOneByte (writeAddr : Nat) (dataToWrite : UInt8) : Code Unit :=
  Prog.put (busAddr writeAddr) dataToWrite

/-- `AT24CXX_Write`: the buffer goes out byte by byte. -/
def at24cxxWrite : Nat → List UInt8 → Code Unit
  | _, [] => pure ()
  | writeAddr, b :: pBuffer => do
    at24cxxWriteOneByte writeAddr b
    at24cxxWrite (uint16 (writeAddr + 1)) pBuffer

section Exec

variable {α β : Type}

theorem exec_readOneByte_bind {a : Nat} (h : a < 256) (f : UInt8 → Code α) (m : Eeprom) :
    at24c02.exec (at24cxxReadOneByte a >>= f) m = at24c02.exec (f (m.get a)) m := by
  simp only [at24cxxReadOneByte, Prog.get_bind, Device.exec_read, at24c02_read h]

theorem exec_writeOneByte_bind {a : Nat} (h : a < 256) (v : UInt8) (f : Unit → Code α) (m : Eeprom) :
    at24c02.exec (at24cxxWriteOneByte a v >>= f) m = at24c02.exec (f ()) (m.set a v) := by
  simp only [at24cxxWriteOneByte, Prog.put_bind, Device.exec_write, at24c02_write h]

theorem exec_writeOneByte {a : Nat} (h : a < 256) (v : UInt8) (m : Eeprom) :
    at24c02.exec (at24cxxWriteOneByte a v) m = ((), m.set a v) :=
  exec_writeOneByte_bind h v .ret m

theorem exec_at24cxxWrite_cons {a : Nat} {v : UInt8} (buffer : List UInt8) (m : Eeprom) (fits : a + (buffer.length + 1) ≤ 256) :
    at24c02.exec (at24cxxWrite a (v :: buffer)) m = at24c02.exec (at24cxxWrite (a + 1) buffer) (m.set a v) := by
  have next : uint16 (a + 1) = a + 1 := uint16_of_lt (show a + 1 < 65536 by omega)
  rw [at24cxxWrite, exec_writeOneByte_bind (by omega), next]

/-- A block write changes the block's cells only. -/
theorem get_exec_at24cxxWrite (buffer : List UInt8) :
    ∀ (a : Nat) (m : Eeprom), a + buffer.length ≤ 256 → ∀ b, b < 256 → ¬ (a ≤ b ∧ b < a + buffer.length) →
      (at24c02.exec (at24cxxWrite a buffer) m).2.get b = m.get b := by
  induction buffer with
  | nil => intro a m _ b _ _; rfl
  | cons v buffer ih =>
    intro a m fits b small outside
    rw [List.length_cons] at fits outside
    rw [exec_at24cxxWrite_cons buffer m fits, ih (a + 1) _ (by omega) b small (by omega)]
    exact Eeprom.get_set_ne _ _ (by omega) small (by omega)

end Exec

end DoorSecurity
