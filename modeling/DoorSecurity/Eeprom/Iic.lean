import DoorSecurity.Wire.TwoWire
import DoorSecurity.Wire.Shift

/-!
# The software I2C master (`bsp/myiic.c`)

The functions as they move the two pins, the short delays between the moves left
out, and what each makes of the bus for any chip on it. The direction of the data
pin is a pin of its own; as an input the pin is pulled up.
-/

namespace DoorSecurity
set_option autoImplicit false
open Bus Wire

/-- Code for the two pins. -/
abbrev IicCode := Prog Pin Bool

/-- `SDA_IN()`. -/
def sdaIn : IicCode Unit := Prog.put .dir false

/-- `SDA_OUT()`. -/
def sdaOut : IicCode Unit := Prog.put .dir true

/-- `IIC_SDA=v`. -/
def iicSda (v : Bool) : IicCode Unit := Prog.put .sda v

/-- `IIC_SCL=v`. -/
def iicScl (v : Bool) : IicCode Unit := Prog.put .scl v

/-- `READ_SDA`. -/
def readSda : IicCode Bool := Prog.get .sda

/-- `IIC_Start`. -/
def iicStart : IicCode Unit := do
  sdaOut
  iicSda true
  iicScl true
  iicSda false
  iicScl false

/-- `IIC_Stop`. -/
def iicStop : IicCode Unit := do
  sdaOut
  iicScl false
  iicSda false
  iicScl true
  iicSda true

/-- The `while(READ_SDA)` of `IIC_Wait_Ack`, with `250 - ucErrTime` rounds to go. -/
def iicWaitAckLoop : Nat → IicCode UInt8
  | 0 => do
    if ← readSda then do
      iicStop
      return 1
    else do
      iicScl false
      return 0
  | n + 1 => do
    if ← readSda then iicWaitAckLoop n
    else do
      iicScl false
      return 0

/-- `IIC_Wait_Ack`. -/
def iicWaitAck : IicCode UInt8 := do
  sdaIn
  iicSda true
  iicScl true
  iicWaitAckLoop 250

/-- `IIC_Ack` (`bit = 0`) and `IIC_NAck` (`bit = 1`). -/
def iicAckBit (bit : Bool) : IicCode Unit := do
  iicScl false
  sdaOut
  iicSda bit
  iicScl true
  iicScl false

/-- `IIC_Ack`. -/
def iicAck : IicCode Unit := iicAckBit false

/-- `IIC_NAck`. -/
def iicNAck : IicCode Unit := iicAckBit true

/-- `IIC_Send_Byte`. -/
def iicSendByte (txd : UInt8) : IicCode Unit := do
  sdaOut
  iicScl false
  let _ ← Prog.forLoop 0 8 txd fun _ txd => do
    iicSda ((txd &&& 0x80) >>> 7 = 1)
    iicScl true
    iicScl false
    return txd <<< 1
  return ()

/-- `IIC_Read_Byte`. -/
def iicReadByte (ack : UInt8) : IicCode UInt8 := do
  sdaIn
  let receive ← Prog.forLoop 0 8 (0 : UInt8) fun _ receive => do
    iicScl false
    iicScl true
    let bit ← readSda
    return receive <<< 1 + if bit then 1 else 0
  if ack = 0 then iicNAck else iicAck
  return receive

section Master

variable {δ : Type} {c : TwoWireChip δ} {o s v : Bool} {d : δ}

open TwoWire

/-- The bus at rest: both lines high. -/
def atRest (d : δ) : TwoWire δ := ⟨true, true, true, d⟩

theorem run_iicStart_high (free : c.releases d = true) :
    run (bus c) iicStart ⟨o, true, true, d⟩ = ((), ⟨true, false, false, c.hear (c.hear d .start) .fall⟩) := by
  simp [iicStart, sdaOut, iicSda, iicScl, run_put, bus_dir_high, bus_sda_high, bus_scl_high, bus_start free]

/-- A start in the middle of a transaction. -/
theorem run_iicStart_low (free : c.releases d = true) (still : c.releases (c.hear d (.rise true)) = true) :
    run (bus c) iicStart ⟨o, s, false, d⟩ =
      ((), ⟨true, false, false, c.hear (c.hear (c.hear d (.rise true)) .start) .fall⟩) := by
  simp [iicStart, sdaOut, iicSda, iicScl, run_put, free, bus_start still]

theorem run_iicStop_low (still : c.releases (c.hear d (.rise false)) = true) :
    run (bus c) iicStop ⟨o, s, false, d⟩ = ((), atRest (c.hear (c.hear d (.rise false)) .stop)) := by
  simp [iicStop, sdaOut, iicSda, iicScl, run_put, atRest, bus_stop still]

/-- A stop after the clock was left high. -/
theorem run_iicStop_high (still : c.releases (c.hear (c.hear d .fall) (.rise false)) = true) :
    run (bus c) iicStop ⟨o, true, true, d⟩ = ((), atRest (c.hear (c.hear (c.hear d .fall) (.rise false)) .stop)) := by
  simp [iicStop, sdaOut, iicSda, iicScl, run_put, atRest, bus_dir_high, bus_stop still]

/-- The chip after bits clocked in. -/
def feed (c : TwoWireChip δ) (d : δ) (bits : List Bool) : δ := bits.foldl (fun d b => c.hear (c.hear d (.rise b)) .fall) d

theorem feed_append (bits : List Bool) (b : Bool) : feed c d (bits ++ [b]) = c.hear (c.hear (feed c d bits) (.rise b)) .fall :=
  List.foldl_append

/-- `(txd&0x80)>>7`. -/
def txdTop (txd : UInt8) : Bool := (txd &&& 0x80) >>> 7 = 1

theorem txdTop_eq (txd : UInt8) : txdTop txd = txd.toBitVec.msb := by
  unfold txdTop
  rw [and_0x80]
  cases txd.toBitVec.msb <;> rfl

/-- One bit of `IIC_Send_Byte`. -/
def clockBit (bit : Bool) : IicCode Unit := do
  iicSda bit
  iicScl true
  iicScl false

/-- The master drives the line under a low clock, these bits sent. -/
def Sent (c : TwoWireChip δ) (d : δ) (bits : List Bool) (w : TwoWire δ) : Prop := ∃ s, w = ⟨true, s, false, feed c d bits⟩

/-- **A byte sent** is its eight bits clocked in, while the chip does not pull the line. -/
theorem run_iicSendByte {w : TwoWire δ} (lowered : run (bus c) (do sdaOut; iicScl false) w = ((), ⟨true, s, false, d⟩))
    (free : ∀ bits, bits.length < 8 → c.releases (feed c d bits) = true) (txd : UInt8) :
    Sent c d (byteBits txd) (run (bus c) (iicSendByte txd) w).2 := by
  have shifted : Sent c d (taps txdTop (· <<< 1) 8 txd) (run (bus c) (shiftOut txdTop (· <<< 1) clockBit 8 txd) ⟨true, s, false, d⟩).2 := by
    apply run_shiftOut (bus c) _ ⟨s, rfl⟩
    rintro b bits _ short ⟨s', rfl⟩
    refine ⟨b, ?_⟩
    simp [clockBit, iicSda, iicScl, run_put, free bits short, feed_append]
  have parts : iicSendByte txd = (do sdaOut; iicScl false) >>= fun _ => do
      let _ ← shiftOut txdTop (· <<< 1) clockBit 8 txd
      return () := rfl
  rw [parts, run_bind_of _ lowered, run_bind, ← taps_byte txdTop_eq]
  exact shifted

theorem run_iicWaitAckLoop_pulled (pulls : c.releases d = false) (n : Nat) :
    run (bus c) (iicWaitAckLoop n) ⟨false, s, true, d⟩ = (0, ⟨false, s, false, c.hear d .fall⟩) := by
  cases n <;> simp [iicWaitAckLoop, readSda, iicScl, line, pulls]

/-- A low data line at the ninth clock. -/
theorem run_iicWaitAck_pulled (pulls : c.releases (c.hear d (.rise (c.releases d))) = false) :
    run (bus c) iicWaitAck ⟨o, s, false, d⟩ = (0, ⟨false, true, false, c.hear (c.hear d (.rise (c.releases d))) .fall⟩) := by
  simp [iicWaitAck, sdaIn, iicSda, iicScl, run_iicWaitAckLoop_pulled pulls]

theorem run_iicWaitAckLoop_free (free : c.releases d = true) (n : Nat) :
    run (bus c) (iicWaitAckLoop n) ⟨false, s, true, d⟩ = (1, (run (bus c) iicStop ⟨false, s, true, d⟩).2) := by
  induction n with
  | zero => simp [iicWaitAckLoop, readSda, run_bind, line, free]
  | succ n ih =>
    rw [iicWaitAckLoop, run_bind, readSda, run_get, bus_read_sda]
    simp only [line, free]
    exact ih

/-- One sample of `IIC_Read_Byte`. -/
def sampleBit : IicCode Bool := do
  iicScl false
  iicScl true
  readSda

def receivePush (receive : UInt8) (bit : Bool) : UInt8 := receive <<< 1 + if bit then 1 else 0

theorem receivePush_toBitVec (x : UInt8) (b : Bool) : (receivePush x b).toBitVec = x.toBitVec.shiftConcat b := by
  apply BitVec.eq_of_toNat_eq
  rw [BitVec.toNat_shiftConcat]
  cases b <;> simp [receivePush, BitVec.toNat_add, BitVec.toNat_shiftLeft]

/-- `IIC_Read_Byte` with its `IIC_NAck`, once the eight samples are known. -/
theorem run_iicReadByte {w w' : TwoWire δ} {byte : UInt8} (turned : run (bus c) sdaIn w = ((), w'))
    (sampled : run (bus c) (shiftIn receivePush sampleBit 8 0) w' = (byte, ⟨false, s, true, d⟩)) {done : δ} (last : done = c.hear d .fall) :
    run (bus c) (iicReadByte 0) w = (byte, ⟨true, true, false, c.hear (c.hear done (.rise (c.releases done))) .fall⟩) := by
  have parts : iicReadByte 0 = do
      sdaIn
      let receive ← shiftIn receivePush sampleBit 8 0
      iicNAck
      return receive := rfl
  rw [parts, run_bind_of _ turned, run_bind_of _ sampled, last]
  simp [iicNAck, iicAckBit, iicScl, sdaOut, iicSda]

/-- The chip shows the first of these bits, or still the one before them under a high clock. -/
def Showing (give : List Bool → δ) (bits : List Bool) (w : TwoWire δ) : Prop :=
  (bits ≠ [] ∧ ∃ s, w = ⟨false, s, false, give bits⟩) ∨ ∃ s b, w = ⟨false, s, true, give (b :: bits)⟩

/-- **A byte read** from a chip that shows its bits one by one. -/
theorem run_shiftIn_showing {give : List Bool → δ} (shows : ∀ b bits, c.releases (give (b :: bits)) = b)
    (rises : ∀ b bits, c.hear (give bits) (.rise b) = give bits) (falls : ∀ b b' bits, c.hear (give (b :: b' :: bits)) .fall = give (b' :: bits))
    (byte : UInt8) : ∃ s' last,
      run (bus c) (shiftIn receivePush sampleBit 8 0) ⟨false, s, false, give (byteBits byte)⟩ = (byte, ⟨false, s', true, give [last]⟩) := by
  have filled : byteBits byte ≠ [] := List.ne_nil_of_length_eq_add_one (length_byteBits byte)
  obtain ⟨answer, final⟩ : (run (bus c) (shiftIn receivePush sampleBit (byteBits byte).length 0) ⟨false, s, false, give (byteBits byte)⟩).1 =
        (byteBits byte).foldl receivePush 0 ∧
      Showing give [] (run (bus c) (shiftIn receivePush sampleBit (byteBits byte).length 0) ⟨false, s, false, give (byteBits byte)⟩).2 := by
    apply run_shiftIn (bus c) _ 0 (.inl ⟨filled, s, rfl⟩)
    rintro b bits _ (⟨-, s, rfl⟩ | ⟨s, b0, rfl⟩)
    · refine ⟨?_, .inr ⟨s, b, ?_⟩⟩ <;> simp [sampleBit, iicScl, readSda, run_get, line, shows, rises]
    · refine ⟨?_, .inr ⟨s, b, ?_⟩⟩ <;> simp [sampleBit, iicScl, readSda, run_get, line, shows, rises, falls]
  rw [length_byteBits, foldl_byteBits receivePush_toBitVec] at answer
  rw [length_byteBits] at final
  obtain ⟨empty, -⟩ | ⟨s', last, final⟩ := final
  · exact absurd rfl empty
  · exact ⟨s', last, Prod.ext answer final⟩

/-- A chip that takes no part until the next start. -/
structure Silent (c : TwoWireChip δ) (d : δ) : Prop where
  free : c.releases d = true
  rise : ∀ b, c.hear d (.rise b) = d
  fall : c.hear d .fall = d
  stop : c.hear d .stop = d

/-- The lines between two calls that nothing answered: the clock low, or both lines high. -/
def Unanswered (d : δ) (w : TwoWire δ) : Prop := (∃ o s, w = ⟨o, s, false, d⟩) ∨ ∃ o, w = ⟨o, true, true, d⟩

theorem unanswered_atRest (d : δ) : Unanswered d (atRest d) := .inr ⟨true, rfl⟩

/-- The data pin is an input, and only ones are still to be sampled. -/
def PulledUp (d : δ) (bits : List Bool) (w : TwoWire δ) : Prop :=
  (∀ b ∈ bits, b = true) ∧ ∃ s scl, w = ⟨false, s, scl, d⟩ ∧ (bits = [] → scl = true)

namespace Silent

variable {w : TwoWire δ} (silent : Silent c d)

include silent

theorem feed (bits : List Bool) : DoorSecurity.feed c d bits = d := by
  induction bits with
  | nil => rfl
  | cons b bits ih =>
    show DoorSecurity.feed c (c.hear (c.hear d (.rise b)) .fall) bits = d
    rw [silent.rise, silent.fall, ih]

theorem start (lines : Unanswered d w) : run (bus c) iicStart w = ((), ⟨true, false, false, c.hear (c.hear d .start) .fall⟩) := by
  obtain ⟨o, s, rfl⟩ | ⟨o, rfl⟩ := lines
  · rw [run_iicStart_low silent.free (by rw [silent.rise, silent.free]), silent.rise]
  · rw [run_iicStart_high silent.free]

theorem stopped (lines : Unanswered d w) : run (bus c) iicStop w = ((), atRest d) := by
  obtain ⟨o, s, rfl⟩ | ⟨o, rfl⟩ := lines
  · rw [run_iicStop_low (by rw [silent.rise, silent.free]), silent.rise, silent.stop]
  · rw [run_iicStop_high (by rw [silent.fall, silent.rise, silent.free]), silent.fall, silent.rise, silent.stop]

theorem sendByte (lines : Unanswered d w) (txd : UInt8) : Unanswered d (run (bus c) (iicSendByte txd) w).2 := by
  obtain ⟨s, lowered⟩ : ∃ s, run (bus c) (do sdaOut; iicScl false) w = ((), ⟨true, s, false, d⟩) := by
    obtain ⟨o, s, rfl⟩ | ⟨o, rfl⟩ := lines
    · exact ⟨s, rfl⟩
    · refine ⟨true, ?_⟩
      simp [sdaOut, iicScl, run_put, bus_dir_high, silent.fall]
  obtain ⟨s', final⟩ := run_iicSendByte lowered (fun bits _ => by rw [silent.feed, silent.free]) txd
  rw [silent.feed] at final
  exact .inl ⟨true, s', final⟩

theorem waitAck (lines : Unanswered d w) : run (bus c) iicWaitAck w = (1, atRest d) := by
  have raised : run (bus c) (do sdaIn; iicSda true; iicScl true) w = ((), ⟨false, true, true, d⟩) := by
    obtain ⟨o, s, rfl⟩ | ⟨o, rfl⟩ := lines
    · simp [sdaIn, iicSda, iicScl, run_put, silent.rise]
    · simp [sdaIn, iicSda, iicScl, run_put, bus_dir_high, bus_sda_high, bus_scl_high]
  have parts : iicWaitAck = (do sdaIn; iicSda true; iicScl true) >>= fun _ => iicWaitAckLoop 250 := rfl
  rw [parts, run_bind_of _ raised, run_iicWaitAckLoop_free silent.free, silent.stopped (.inr ⟨false, rfl⟩)]

theorem sendAck {α : Type} (lines : Unanswered d w) (txd : UInt8) (k : UInt8 → IicCode α) :
    run (bus c) (iicSendByte txd >>= fun _ => iicWaitAck >>= k) w = run (bus c) (k 1) (atRest d) := by
  rw [run_bind]
  exact run_bind_of _ (silent.waitAck (silent.sendByte lines txd))

/-- Each sample finds the line pulled up. -/
theorem readByte (lines : Unanswered d w) : run (bus c) (iicReadByte 0) w = (0xFF, ⟨true, true, false, d⟩) := by
  obtain ⟨s, scl, turned⟩ : ∃ s scl, run (bus c) sdaIn w = ((), ⟨false, s, scl, d⟩) := by
    obtain ⟨o, s, rfl⟩ | ⟨o, rfl⟩ := lines
    · exact ⟨s, false, rfl⟩
    · exact ⟨true, true, by rw [sdaIn, run_put, bus_dir_high]⟩
  have ones : PulledUp d (byteBits 0xFF) ⟨false, s, scl, d⟩ := ⟨by decide, s, scl, rfl, fun empty => absurd empty (by decide)⟩
  obtain ⟨answer, final⟩ : (run (bus c) (shiftIn receivePush sampleBit 8 0) ⟨false, s, scl, d⟩).1 = (byteBits 0xFF).foldl receivePush 0 ∧
      PulledUp d [] (run (bus c) (shiftIn receivePush sampleBit 8 0) ⟨false, s, scl, d⟩).2 := by
    apply run_shiftIn (bus c) _ 0 ones
    rintro b bits _ ⟨all, s, scl, rfl, -⟩
    have one : b = true := all b (by simp)
    have rest : ∀ b ∈ bits, b = true := fun b mem => all b (by simp [mem])
    cases scl with
    | false => exact ⟨by simp [sampleBit, iicScl, readSda, run_get, line, silent.rise, silent.free, one], rest, s, true,
        by simp [sampleBit, iicScl, readSda, run_get, silent.rise], fun _ => rfl⟩
    | true => exact ⟨by simp [sampleBit, iicScl, readSda, run_get, line, silent.fall, silent.rise, silent.free, one], rest, s, true,
        by simp [sampleBit, iicScl, readSda, run_get, silent.fall, silent.rise], fun _ => rfl⟩
  obtain ⟨-, s', scl', final, clocked⟩ := final
  rw [clocked rfl] at final
  rw [foldl_byteBits receivePush_toBitVec] at answer
  rw [run_iicReadByte turned (Prod.ext answer final) silent.fall.symm, silent.rise, silent.fall]

end Silent

end Master

end DoorSecurity
