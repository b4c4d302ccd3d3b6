import DoorSecurity.Bus.Lower
import DoorSecurity.Reader.Rc522
import DoorSecurity.Wire.Serial

/-!
# The reader's registers on the serial lines (`bsp/rc522_function.c`)

`ReadRawRC` and `WriteRawRC` down to the clock, and the RC522 as its data sheet has it: an
address byte taken bit by bit, then the bytes of the register. What the registers
hold and what reading one does is left open: for any such chip a call on the lines is
one access of one register (`lines_simulate_registers`), whatever stood in the variable
that `SPI_RC522_ReadByte` shifts its bits into.
-/

namespace DoorSecurity
set_option autoImplicit false
open Bus Wire Serial

instance neZeroSixtyFour : NeZero 64 := ⟨by decide⟩

/-- Code for the reader's lines. -/
abbrev SpiCode := Prog SerialPin Bool

/-- `RC522_CS_Enable` is low, `RC522_CS_Disable` high. -/
def rc522Cs (v : Bool) : SpiCode Unit := Prog.put .ncs v

def rc522Sck (v : Bool) : SpiCode Unit := Prog.put .sck v

def rc522Mosi (v : Bool) : SpiCode Unit := Prog.put .mosi v

/-- `RC522_MISO_GET`. -/
def rc522MisoGet : SpiCode Bool := Prog.get .miso

/-- `SPI_RC522_SendByte`. -/
def spiRc522SendByte (byte : UInt8) : SpiCode Unit := do
  let _ ← Prog.forLoop 0 8 byte fun _ byte => do
    rc522Mosi (byte &&& 0x80 ≠ 0)
    rc522Sck false
    rc522Sck true
    return byte <<< 1
  return ()

/-- `SPI_RC522_ReadByte`, on what `SPI_Data` holds at its start. -/
def spiRc522ReadByte (spiData : UInt8) : SpiCode UInt8 :=
  Prog.forLoop 0 8 spiData fun _ spiData => do
    rc522Sck false
    let bit ← rc522MisoGet
    rc522Sck true
    return if bit then spiData <<< 1 ||| 0x01 else spiData <<< 1

/-- `ReadRawRC` on the lines. -/
def readRawRcLines (spiData ucAddress : UInt8) : SpiCode UInt8 := do
  let ucAddr := ((ucAddress <<< 1) &&& 0x7E) ||| 0x80
  rc522Cs false
  spiRc522SendByte ucAddr
  let ucReturn ← spiRc522ReadByte spiData
  rc522Cs true
  return ucReturn

/-- `WriteRawRC` on the lines. -/
def writeRawRcLines (ucAddress ucValue : UInt8) : SpiCode Unit := do
  let ucAddr := (ucAddress <<< 1) &&& 0x7E
  rc522Cs false
  spiRc522SendByte ucAddr
  spiRc522SendByte ucValue
  rc522Cs true

/-- What the chip does between two edges of the clock: not selected, taking the address,
taking bytes for a register, showing a register's byte while it takes the next address, or
done until it is deselected. -/
inductive SpiPhase where
  | off
  | addr (bits : List Bool)
  | store (a : Fin 64) (bits : List Bool)
  | answer (line : Bool) (bits next : List Bool)
  | done (line : Bool)

/-- The chip on the lines, over what its registers are. -/
structure Rc522Spi (ρ : Type) where
  regs : ρ
  phase : SpiPhase

section Chip

variable {ρ : Type} (H : Handler ρ (Fin 64) UInt8)

/-- The register that an address byte names. -/
def regOf (b : UInt8) : Fin 64 := Fin.ofNat 64 (b.toNat / 2)

namespace Rc522Spi

/-- A register is read into the byte to show. -/
def load (d : Rc522Spi ρ) (line : Bool) (a : Fin 64) : Rc522Spi ρ :=
  ⟨(H.read a d.regs).2, .answer line (byteBits (H.read a d.regs).1) []⟩

/-- The first byte: bit 7 asks for a read. -/
def addressed (d : Rc522Spi ρ) (b : UInt8) : Rc522Spi ρ :=
  if b &&& 0x80 ≠ 0 then d.load H false (regOf b) else ⟨d.regs, .store (regOf b) []⟩

/-- The byte that comes in under a read: the next address, or the end. -/
def readOn (d : Rc522Spi ρ) (line : Bool) (b : UInt8) : Rc522Spi ρ :=
  if b &&& 0x80 ≠ 0 then d.load H line (regOf b) else ⟨d.regs, .done line⟩

def rose (d : Rc522Spi ρ) (bit : Bool) : Rc522Spi ρ :=
  match d.phase with
  | .addr bits => if bits.length + 1 = 8 then d.addressed H (byteOf (bits ++ [bit])) else ⟨d.regs, .addr (bits ++ [bit])⟩
  | .store a bits =>
    if bits.length + 1 = 8 then ⟨H.write a (byteOf (bits ++ [bit])) d.regs, .store a []⟩ else ⟨d.regs, .store a (bits ++ [bit])⟩
  | .answer line bits next =>
    if next.length + 1 = 8 then d.readOn H line (byteOf (next ++ [bit])) else ⟨d.regs, .answer line bits (next ++ [bit])⟩
  | _ => d

def fell (d : Rc522Spi ρ) : Rc522Spi ρ :=
  match d.phase with
  | .answer _ (b :: bits) next => ⟨d.regs, .answer b bits next⟩
  | _ => d

end Rc522Spi

/-- The data sheet's chip. -/
def rc522Lines : SerialChip (Rc522Spi ρ) where
  miso d :=
    match d.phase with
    | .answer line _ _ | .done line => line
    | _ => false
  hear d e :=
    match e with
    | .select => ⟨d.regs, .addr []⟩
    | .deselect => ⟨d.regs, .off⟩
    | .rise bit => d.rose H bit
    | .fall => d.fell

/-- The lines between two calls. -/
def released (k o : Bool) (t : ρ) : Serial (Rc522Spi ρ) := ⟨true, k, o, ⟨t, .off⟩⟩

variable {H} {k o : Bool} {t : ρ}

/-- The chip while the address byte comes in, and with it. -/
def addrTaken (H : Handler ρ (Fin 64) UInt8) (t : ρ) : List Bool → Rc522Spi ρ :=
  collected 8 (fun bits => ⟨t, .addr bits⟩) fun bits => Rc522Spi.addressed H ⟨t, .addr bits⟩ (byteOf bits)

theorem addrTaken_clocked : Clocked (rc522Lines H) 8 (addrTaken H t) := clocked_collected (fun _ => rfl) fun _ _ => rfl

/-- The chip while a data byte comes in, and with it stored. -/
def dataTaken (H : Handler ρ (Fin 64) UInt8) (t : ρ) (a : Fin 64) : List Bool → Rc522Spi ρ :=
  collected 8 (fun bits => ⟨t, .store a bits⟩) fun bits => ⟨H.write a (byteOf bits) t, .store a []⟩

theorem dataTaken_clocked (a : Fin 64) : Clocked (rc522Lines H) 8 (dataTaken H t a) := clocked_collected (fun _ => rfl) fun _ _ => rfl

/-- The chip while it shows a byte and the master keeps its data line low. -/
def shownLow (t : ρ) (b : Bool) (bits : List Bool) : Rc522Spi ρ := ⟨t, .answer b bits (List.replicate (7 - bits.length) false)⟩

def shownHigh (t : ρ) (b : Bool) (bits : List Bool) : Rc522Spi ρ :=
  match bits with
  | [] => ⟨t, .done b⟩
  | bits => ⟨t, .answer b bits (List.replicate (8 - bits.length) false)⟩

theorem byteShown : Shown (rc522Lines H) false 8 (shownLow t) (shownHigh t) where
  fall {l b bits} short := by
    simp [shownHigh, shownLow, rc522Lines, Rc522Spi.fell]
  rise {b bits} short := by
    have grown : List.replicate (7 - bits.length) false ++ [false] = List.replicate (8 - bits.length) false := by
      rw [← List.replicate_succ', show 7 - bits.length + 1 = 8 - bits.length by omega]
    cases bits with
    | nil => rfl
    | cons b' bits =>
      simp only [rc522Lines, shownLow, Rc522Spi.rose, List.length_replicate, grown]
      rw [if_neg (by simp; omega)]
      rfl
  miso_low := rfl
  miso_high {b bits} := by cases bits <;> rfl

/-- A byte sent to a selected chip. -/
theorem run_spiRc522SendByte {taken : List Bool → Rc522Spi ρ} (clocked : Clocked (rc522Lines H) 8 taken) (byte : UInt8) :
    run (bus (rc522Lines H)) (spiRc522SendByte byte) ⟨false, k, o, taken []⟩ =
      ((), ⟨false, true, (byteBits byte).getLastD o, taken (byteBits byte)⟩) := by
  have parts : spiRc522SendByte byte = do
      let _ ← shiftOut byteTop (· <<< 1) bitOut 8 byte
      return () := rfl
  obtain ⟨k', final, high⟩ : WordSent taken o (taps byteTop (· <<< 1) 8 byte) (run (bus (rc522Lines H)) (shiftOut byteTop (· <<< 1) bitOut 8 byte)
      ⟨false, k, o, taken []⟩).2 := run_bitsOut clocked byte
  rw [taps_byte byteTop_eq] at final high
  rw [high (List.ne_nil_of_length_eq_add_one (length_byteBits byte))] at final
  rw [parts, run_bind, final]
  rfl

/-- One sample of `SPI_RC522_ReadByte`. -/
def misoBit : SpiCode Bool := do
  rc522Sck false
  let bit ← rc522MisoGet
  rc522Sck true
  return bit

def spiPush (spiData : UInt8) (bit : Bool) : UInt8 := if bit then spiData <<< 1 ||| 0x01 else spiData <<< 1

theorem spiPush_toBitVec (x : UInt8) (b : Bool) : (spiPush x b).toBitVec = x.toBitVec.shiftConcat b := by
  apply BitVec.eq_of_getLsbD_eq
  intro i inside
  cases b <;> cases i <;> simp [spiPush, inside]

/-- The byte that the chip shows, whatever `SPI_Data` held. -/
theorem run_spiRc522ReadByte (spiData byte : UInt8) (l : Bool) :
    ∃ l', run (bus (rc522Lines H)) (spiRc522ReadByte spiData) ⟨false, true, false, ⟨t, .answer l (byteBits byte) []⟩⟩ =
      (byte, ⟨false, true, false, ⟨t, .done l'⟩⟩) := by
  have shown : shownHigh t l (byteBits byte) = ⟨t, .answer l (byteBits byte) []⟩ := rfl
  have entry : ToCome false 8 (shownLow t) (shownHigh t) (byteBits byte) ⟨false, true, false, shownHigh t l (byteBits byte)⟩ :=
    ⟨Nat.le_of_eq (length_byteBits byte), .inl ⟨l, rfl⟩⟩
  have parts : spiRc522ReadByte spiData = shiftIn spiPush misoBit (byteBits byte).length spiData := by
    rw [length_byteBits]
    rfl
  obtain ⟨l', whole⟩ : ∃ l', run (bus (rc522Lines H)) (shiftIn spiPush misoBit (byteBits byte).length spiData)
      ⟨false, true, false, shownHigh t l (byteBits byte)⟩ = ((byteBits byte).foldl spiPush spiData, ⟨false, true, false, shownHigh t l' []⟩) := by
    apply run_bitsIn byteShown _ spiData entry
    intro k d b rest short low
    simp [misoBit, rc522Sck, rc522MisoGet, bus_lowered, low, byteShown.miso_low, byteShown.rise short]
  rw [parts, ← shown, whole, foldl_byteBits spiPush_toBitVec]
  exact ⟨l', rfl⟩

/-- The address bytes of `ReadRawRC` and `WriteRawRC`: the read bit, six address bits, a zero. -/
theorem readAddr_spec (ucAddress : UInt8) :
    ((ucAddress <<< 1) &&& 0x7E ||| 0x80) &&& 0x80 ≠ 0 ∧ regOf ((ucAddress <<< 1) &&& 0x7E ||| 0x80) = Fin.ofNat 64 ucAddress.toNat ∧
      (byteBits ((ucAddress <<< 1) &&& 0x7E ||| 0x80)).getLast? = some false := by
  have table : ∀ i : Fin 256, ((UInt8.ofNat i.val <<< 1) &&& 0x7E ||| 0x80) &&& 0x80 ≠ 0 ∧
      regOf ((UInt8.ofNat i.val <<< 1) &&& 0x7E ||| 0x80) = Fin.ofNat 64 i.val ∧
        (byteBits ((UInt8.ofNat i.val <<< 1) &&& 0x7E ||| 0x80)).getLast? = some false := by decide +kernel
  have entry := table ⟨ucAddress.toNat, ucAddress.toNat_lt⟩
  rwa [UInt8.ofNat_toNat] at entry

theorem writeAddr_spec (ucAddress : UInt8) :
    ((ucAddress <<< 1) &&& 0x7E) &&& 0x80 = 0 ∧ regOf ((ucAddress <<< 1) &&& 0x7E) = Fin.ofNat 64 ucAddress.toNat := by
  have table : ∀ i : Fin 256, ((UInt8.ofNat i.val <<< 1) &&& 0x7E) &&& 0x80 = 0 ∧
      regOf ((UInt8.ofNat i.val <<< 1) &&& 0x7E) = Fin.ofNat 64 i.val := by decide +kernel
  have entry := table ⟨ucAddress.toNat, ucAddress.toNat_lt⟩
  rwa [UInt8.ofNat_toNat] at entry

/-- The chip is selected. -/
theorem run_select {α : Type} (f : Unit → SpiCode α) :
    run (bus (rc522Lines H)) (rc522Cs false >>= f) (released k o t) = run (bus (rc522Lines H)) (f ()) ⟨false, k, o, addrTaken H t []⟩ := by
  rw [rc522Cs, Prog.put_bind, run_write, released, bus_select]
  rfl

/-- **One call of `ReadRawRC`** is one read of the register that its address names. -/
theorem run_readRawRcLines (spiData ucAddress : UInt8) :
    run (bus (rc522Lines H)) (readRawRcLines spiData ucAddress) (released k o t) =
      ((H.read (Fin.ofNat 64 ucAddress.toNat) t).1, released true false (H.read (Fin.ofNat 64 ucAddress.toNat) t).2) := by
  obtain ⟨asks, register, low⟩ := readAddr_spec ucAddress
  rw [readRawRcLines]
  generalize (ucAddress <<< 1) &&& 0x7E ||| 0x80 = ucAddr at asks register low ⊢
  have loaded : addrTaken H t (byteBits ucAddr) =
      ⟨(H.read (Fin.ofNat 64 ucAddress.toNat) t).2, .answer false (byteBits (H.read (Fin.ofNat 64 ucAddress.toNat) t).1) []⟩ := by
    rw [addrTaken, collected, if_pos (length_byteBits ucAddr), byteOf_byteBits, Rc522Spi.addressed, if_pos asks, register]
    rfl
  have quiet : (byteBits ucAddr).getLastD o = false := by rw [List.getLastD_eq_getLast?, low, Option.getD_some]
  obtain ⟨l, answered⟩ := run_spiRc522ReadByte (H := H) (t := (H.read (Fin.ofNat 64 ucAddress.toNat) t).2) spiData
    (H.read (Fin.ofNat 64 ucAddress.toNat) t).1 false
  rw [run_select, run_bind_of _ (run_spiRc522SendByte addrTaken_clocked ucAddr), quiet, loaded, run_bind_of _ answered,
    rc522Cs, Prog.put_bind, run_write, bus_deselect]
  rfl

/-- **One call of `WriteRawRC`** is one write. -/
theorem run_writeRawRcLines (ucAddress ucValue : UInt8) :
    ∃ o', run (bus (rc522Lines H)) (writeRawRcLines ucAddress ucValue) (released k o t) =
      ((), released true o' (H.write (Fin.ofNat 64 ucAddress.toNat) ucValue t)) := by
  obtain ⟨stores, register⟩ := writeAddr_spec ucAddress
  rw [writeRawRcLines]
  generalize (ucAddress <<< 1) &&& 0x7E = ucAddr at stores register ⊢
  have named : addrTaken H t (byteBits ucAddr) = dataTaken H t (Fin.ofNat 64 ucAddress.toNat) [] := by
    rw [addrTaken, collected, if_pos (length_byteBits ucAddr), byteOf_byteBits, Rc522Spi.addressed, if_neg (not_not_intro stores), register]
    rfl
  have stored : dataTaken H t (Fin.ofNat 64 ucAddress.toNat) (byteBits ucValue) =
      ⟨H.write (Fin.ofNat 64 ucAddress.toNat) ucValue t, .store (Fin.ofNat 64 ucAddress.toNat) []⟩ := by
    rw [dataTaken, collected, if_pos (length_byteBits ucValue), byteOf_byteBits]
  rw [run_select, run_bind_of _ (run_spiRc522SendByte addrTaken_clocked ucAddr), named,
    run_bind_of _ (run_spiRc522SendByte (dataTaken_clocked _) ucValue), stored, rc522Cs, run_put, bus_deselect]
  exact ⟨_, rfl⟩

end Chip

/-- Code over the register numbers of `rc522_config.h`. -/
abbrev RegCode := Prog (Fin 64) UInt8

section Registers

variable {ρ α : Type}

/-- The register accesses as calls on the lines; `SPI_Data` starts call `n` with `garbage n`. -/
def onLines (H : Handler ρ (Fin 64) UInt8) (garbage : Nat → UInt8) : Handler (Nat × Serial (Rc522Spi ρ)) (Fin 64) UInt8 where
  read a x :=
    let r := run (bus (rc522Lines H)) (readRawRcLines (garbage x.1) (UInt8.ofNat a.val)) x.2
    (r.1, (x.1 + 1, r.2))
  write a v x := (x.1 + 1, (run (bus (rc522Lines H)) (writeRawRcLines (UInt8.ofNat a.val) v) x.2).2)

/-- The chip is not selected, and its registers are `t`. -/
def Released (t : ρ) (x : Nat × Serial (Rc522Spi ρ)) : Prop := ∃ k o, x.2 = released k o t

theorem number_ofNat (a : Fin 64) : Fin.ofNat 64 (UInt8.ofNat a.val).toNat = a := by
  apply Fin.ext
  simp

/-- **One call on the lines is one access of a register.** -/
theorem lines_simulate_registers (H : Handler ρ (Fin 64) UInt8) (garbage : Nat → UInt8) :
    Simulates (onLines H garbage) H (fun _ _ => True) Released where
  read {a x t} free _ := by
    obtain ⟨n, w⟩ := x
    obtain ⟨k, o, same⟩ := free
    replace same : w = released k o t := same
    subst same
    have call := run_readRawRcLines (H := H) (k := k) (o := o) (t := t) (garbage n) (UInt8.ofNat a.val)
    rw [number_ofNat] at call
    simp only [onLines, call, true_and]
    exact ⟨true, false, rfl⟩
  write {a v x t} free _ := by
    obtain ⟨n, w⟩ := x
    obtain ⟨k, o, same⟩ := free
    replace same : w = released k o t := same
    subst same
    obtain ⟨o', call⟩ := run_writeRawRcLines (H := H) (k := k) (o := o) (t := t) (UInt8.ofNat a.val) v
    rw [number_ofNat] at call
    simp only [onLines, call]
    exact ⟨true, o', rfl⟩

/-- **Every program over the registers runs on the lines as on the registers**, whatever chip
answers and whatever the driver's variables hold, and leaves the chip deselected. -/
theorem run_onLines (H : Handler ρ (Fin 64) UInt8) (garbage : Nat → UInt8) (prog : RegCode α) (n : Nat) (k o : Bool) (t : ρ) :
    (run (onLines H garbage) prog (n, released k o t)).1 = (run H prog t).1 ∧
      Released (run H prog t).2 (run (onLines H garbage) prog (n, released k o t)).2 := by
  exact (lines_simulate_registers H garbage).run prog ⟨k, o, rfl⟩ (Handler.within_of_always (fun _ _ => trivial) prog t)

end Registers

end DoorSecurity
