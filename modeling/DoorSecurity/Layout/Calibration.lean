import DoorSecurity.Eeprom.Transfer
import DoorSecurity.Layout.Areas

/-!
# The saved calibration

`TP_Save_Adjdata` stores `tp_dev` from `xfac` on as a block of bytes and marks it,
`TP_Get_Adjdata` reads a marked block back over the same bytes. It is a round trip
since block writes and reads are.
-/

namespace DoorSecurity
set_option autoImplicit false
open Bus Eeprom

/-- What `TP_Get_Adjdata` sets: the fourteen bytes of `tp_dev` from `xfac` on, and the commands of the two axes. -/
structure Adjdata where
  xfac : List UInt8
  cmdRdx : UInt8
  cmdRdy : UInt8
deriving DecidableEq

/-- `tp_dev.touchtype`, after two `float` and two `short` fields. -/
def touchtype (xfac : List UInt8) : UInt8 := xfac.getD 12 0

/-- The bytes, with the commands exchanged where `touchtype` is set. -/
def Adjdata.ofBytes (xfac : List UInt8) : Adjdata := if touchtype xfac ≠ 0 then ⟨xfac, 0x90, 0xD0⟩ else ⟨xfac, 0xD0, 0x90⟩

/-- `TP_Get_Adjdata`. -/
def tpGetAdjdata (s : Adjdata) : Code (UInt8 × Adjdata) := do
  let temp ← at24cxxReadOneByte (saveAddrBase + 14)
  if temp = 0x0A then
    let xfac ← at24cxxRead saveAddrBase 14
    return (1, .ofBytes xfac)
  else return (0, s)

variable (m : Eeprom)

/-- The calibration area after `TP_Save_Adjdata`. -/
theorem tpSaveAdjdata_area (xfac : Fin 14 → UInt8) :
    let m' := (at24c02.exec (tpSaveAdjdata xfac) m).2
    m'.bytes saveAddrBase 14 = List.ofFn xfac ∧ m'.get (saveAddrBase + 14) = 0x0A := by
  intro m'
  have length : (List.ofFn xfac).length = 14 := List.length_ofFn
  have block := bytes_exec_at24cxxWrite (List.ofFn xfac) m (a := saveAddrBase) (by rw [length]; decide)
  have marked : m' = (at24c02.exec (at24cxxWrite saveAddrBase (List.ofFn xfac)) m).2.set (saveAddrBase + 14) 0x0A := by
    show (at24c02.exec (tpSaveAdjdata xfac) m).2 = _
    rw [tpSaveAdjdata, Device.exec_bind, exec_writeOneByte (by decide)]
  rw [length] at block
  rw [marked, bytes_set _ _ (Nat.le_refl _) (by decide), block]
  exact ⟨rfl, get_set_self _ _ _⟩

theorem exec_tpGetAdjdata (s : Adjdata) :
    at24c02.exec (tpGetAdjdata s) m =
      (if m.get (saveAddrBase + 14) = 0x0A then (1, Adjdata.ofBytes (m.bytes saveAddrBase 14)) else (0, s), m) := by
  rw [tpGetAdjdata, exec_readOneByte_bind (by decide)]
  split
  · rw [Device.exec_bind_of _ (exec_at24cxxRead m 14 (by decide))]
    rfl
  · rfl

/-- **Block access is a round trip**: for buffers, for numbers of up to four bytes, and so for the calibration. -/
theorem eeprom_roundTrip :
    (∀ (m : Eeprom) (a : Nat) (buffer : List UInt8), a + buffer.length ≤ 256 →
      let m' := (at24c02.exec (at24cxxWrite a buffer) m).2
      at24c02.exec (at24cxxRead a buffer.length) m' = (buffer, m') ∧
        ∀ b < 256, ¬ (a ≤ b ∧ b < a + buffer.length) → m'.get b = m.get b) ∧
    (∀ (m : Eeprom) (a : Nat) (v : UInt32) (len : UInt8), len.toNat ≤ 4 → a + len.toNat ≤ 256 →
      let m' := (at24c02.exec (at24cxxWriteLenByte a v len) m).2
      (at24c02.exec (at24cxxReadLenByte a len) m').1.toNat = v.toNat % 2 ^ (8 * len.toNat)) ∧
    ∀ (m : Eeprom) (xfac : Fin 14 → UInt8) (s : Adjdata),
      let m' := (at24c02.exec (tpSaveAdjdata xfac) m).2
      at24c02.exec (tpGetAdjdata s) m' = ((1, Adjdata.ofBytes (List.ofFn xfac)), m') ∧
        (Adjdata.ofBytes (List.ofFn xfac)).xfac = List.ofFn xfac := by
  refine ⟨fun m a buffer fits => ⟨?_, ?_⟩, fun m a v len low fits => ?_, fun m xfac s => ⟨?_, ?_⟩⟩
  · rw [exec_at24cxxRead _ _ fits, bytes_exec_at24cxxWrite buffer m fits]
  · exact get_exec_at24cxxWrite buffer a m fits
  · have small : v.toNat % 2 ^ (8 * len.toNat) < 4294967296 := (Nat.mod_le _ _).trans_lt v.toNat_lt
    intro m'
    rw [exec_at24cxxReadLenByte_write m v len low fits]
    exact UInt32.toNat_ofNat_of_lt' small
  · obtain ⟨area, mark⟩ := tpSaveAdjdata_area m xfac
    rw [exec_tpGetAdjdata, if_pos mark, area]
  · unfold Adjdata.ofBytes
    split <;> rfl

/-- Four bytes up to the end of the memory, the number of two bytes that has three, and a calibration. -/
theorem eeprom_roundTrip_blank :
    (at24c02.exec (at24cxxRead 252 4) (at24c02.exec (at24cxxWrite 252 [1, 2, 3, 4]) .blank).2).1 = [1, 2, 3, 4] ∧
      (at24c02.exec (at24cxxReadLenByte 16 2) (at24c02.exec (at24cxxWriteLenByte 16 0x123456 2) .blank).2).1.toNat = 0x3456 ∧
      (at24c02.exec (tpGetAdjdata ⟨[], 0, 0⟩) (at24c02.exec (tpSaveAdjdata fun i => UInt8.ofNat i) .blank).2).1 =
        (1, ⟨List.ofFn fun i : Fin 14 => UInt8.ofNat i, 0x90, 0xD0⟩) := by
  refine ⟨?_, ?_, ?_⟩
  · exact congrArg Prod.fst (eeprom_roundTrip.1 .blank 252 [1, 2, 3, 4] (by decide)).1
  · exact eeprom_roundTrip.2.1 .blank 16 0x123456 2 (by decide) (by decide)
  · rw [(eeprom_roundTrip.2.2 .blank (fun i => UInt8.ofNat i) ⟨[], 0, 0⟩).1]
    rfl

end DoorSecurity
