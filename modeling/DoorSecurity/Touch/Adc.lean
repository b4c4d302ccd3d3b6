import DoorSecurity.Bus.Lower
import DoorSecurity.Touch.Filter
import DoorSecurity.Wire.Serial

/-!
# The touch controller on its serial lines (`bsp/touch.c`)

`TP_Read_AD` down to the clock, and the controller as its data sheet has it: a control
byte that begins with a start bit, one clock of conversion, then the twelve bits of the
value and zeros. What is converted is left open. A reading of `TP_Read_XY2` on the
lines is the reading of the controller's next twenty conversions (`run_tpReadXY2Lines`).
-/

namespace DoorSecurity
set_option autoImplicit false
open Bus Wire Serial

instance neZeroFive : NeZero 5 := ⟨by decide⟩

/-- Code for the controller's lines. -/
abbrev TpCode := Prog SerialPin Bool

def tcs (v : Bool) : TpCode Unit := Prog.put .ncs v

def tclk (v : Bool) : TpCode Unit := Prog.put .sck v

def tdin (v : Bool) : TpCode Unit := Prog.put .mosi v

def dout : TpCode Bool := Prog.get .miso

/-- `CMD_RDX` and `CMD_RDY`, which `touchtype` exchanges. -/
structure AxisCommands where
  cmdRdx : UInt8
  cmdRdy : UInt8

def axisCommands (touchtype : UInt8) : AxisCommands := if touchtype ≠ 0 then ⟨0x90, 0xD0⟩ else ⟨0xD0, 0x90⟩

/-- `TP_Write_Byte`. -/
def tpWriteByte (num : UInt8) : TpCode Unit := do
  let _ ← Prog.forLoop 0 8 num fun _ num => do
    tdin (num &&& 0x80 ≠ 0)
    tclk false
    tclk true
    return num <<< 1
  return ()

/-- `TP_Read_AD`. -/
def tpReadAd (cmd : UInt8) : TpCode UInt16 := do
  tclk false
  tdin false
  tcs false
  tpWriteByte cmd
  tclk false
  tclk true
  tclk false
  let num ← Prog.forLoop 0 16 (0 : UInt16) fun _ num => do
    tclk false
    tclk true
    let bit ← dout
    return num <<< 1 + if bit then 1 else 0
  tcs true
  return num >>> 4

/-- `TP_Read_XOY`; `buf` is what the stack held. -/
def tpReadXoyLines (buf : Fin 5 → UInt16) (xy : UInt8) : TpCode Nat := do
  let buf ← Prog.forLoop 0 5 buf fun i buf => do
    let v ← tpReadAd xy
    return Function.update buf (Fin.ofNat 5 i) v
  let buf := sortRounds.foldl exchange fun i => (buf i).toNat
  return uint16 (uint16 (uint16 (0 + buf 1) + buf 2) + buf 3) / 3

/-- `TP_Read_XY`: its answer, `*x` and `*y`. -/
def tpReadXYLines (stack : Fin 5 → UInt16) (cmds : AxisCommands) : TpCode (UInt8 × UInt16 × UInt16) := do
  let xtemp ← tpReadXoyLines stack cmds.cmdRdx
  let ytemp ← tpReadXoyLines stack cmds.cmdRdy
  return (1, UInt16.ofNat xtemp, UInt16.ofNat ytemp)

/-- `TP_Read_XY2` on what `x` and `y` point to: its answer, `*x` and `*y`. -/
def tpReadXY2Lines (stack : Fin 5 → UInt16) (cmds : AxisCommands) (x y : UInt16) : TpCode (UInt8 × UInt16 × UInt16) := do
  let (flag, x1, y1) ← tpReadXYLines stack cmds
  if flag = 0 then return (0, x, y)
  let (flag, x2, y2) ← tpReadXYLines stack cmds
  if flag = 0 then return (0, x, y)
  if Agree x1.toNat x2.toNat ∧ Agree y1.toNat y2.toNat then
    return (1, UInt16.ofNat ((x1.toNat + x2.toNat) / 2), UInt16.ofNat ((y1.toNat + y2.toNat) / 2))
  else return (0, x, y)

/-- What the controller does between two edges: not selected, taking the control byte from its
start bit on, converting for one clock, giving the value's bits. -/
inductive AdcPhase where
  | off
  | control (bits : List Bool)
  | acquired (v : Fin 4096)
  | busy (v : Fin 4096)
  | give (line : Bool) (bits : List Bool)

/-- The controller, over where its conversions come from. -/
structure Adc (ρ : Type) where
  source : ρ
  phase : AdcPhase

/-- The twelve bits of a value and four zeros. -/
def adcBits (v : Fin 4096) : List Bool := msbs (BitVec.ofNat 16 (v.val * 16))

section Chip

variable {ρ : Type} (conv : ρ → UInt8 → Fin 4096 × ρ)

namespace Adc

def rose (d : Adc ρ) (bit : Bool) : Adc ρ :=
  match d.phase with
  | .control [] => ⟨d.source, .control (if bit then [true] else [])⟩
  | .control bits =>
    if bits.length + 1 = 8 then ⟨(conv d.source (byteOf (bits ++ [bit]))).2, .acquired (conv d.source (byteOf (bits ++ [bit]))).1⟩
    else ⟨d.source, .control (bits ++ [bit])⟩
  -- a start bit begins the next control byte; the value is not given to its end here
  | .give _ _ => if bit then ⟨d.source, .control [true]⟩ else d
  | _ => d

def fell (d : Adc ρ) : Adc ρ :=
  match d.phase with
  | .acquired v => ⟨d.source, .busy v⟩
  | .busy v => ⟨d.source, .give ((adcBits v).headD false) (adcBits v).tail⟩
  | .give _ (b :: bits) => ⟨d.source, .give b bits⟩
  | _ => d

end Adc

/-- The data sheet's controller. -/
def adc : SerialChip (Adc ρ) where
  miso d :=
    match d.phase with
    | .give line _ => line
    | _ => false
  hear d e :=
    match e with
    | .select => ⟨d.source, .control []⟩
    | .deselect => ⟨d.source, .off⟩
    | .rise bit => d.rose conv bit
    | .fall => d.fell

/-- The lines between two conversions. -/
def unselected (k o : Bool) (t : ρ) : Serial (Adc ρ) := ⟨true, k, o, ⟨t, .off⟩⟩

variable {conv} {k o : Bool} {t : ρ}

/-- The controller while the control byte comes in: zeros before the start bit are not part of it. -/
def controlTaken (conv : ρ → UInt8 → Fin 4096 × ρ) (t : ρ) (bits : List Bool) : Adc ρ :=
  collected 8 (fun bits => ⟨t, .control bits⟩) (fun bits => ⟨(conv t (byteOf bits)).2, .acquired (conv t (byteOf bits)).1⟩)
    (bits.dropWhile (!·))

theorem controlTaken_clocked : Clocked (adc conv) 8 (controlTaken conv t) := by
  intro k b bits short
  have few : (bits.dropWhile (!·)).length < 8 := Nat.lt_of_le_of_lt (List.length_dropWhile_le _ _) short
  have still : lowered (adc conv) k (controlTaken conv t bits) = ⟨t, .control (bits.dropWhile (!·))⟩ := by
    rw [controlTaken, collected, if_neg (by omega)]
    cases k <;> rfl
  rw [still, controlTaken, List.dropWhile_append]
  cases collects : bits.dropWhile (!·) with
  | nil => cases b <;> rfl
  | cons b' rest =>
    rw [collects] at few
    simp only [List.isEmpty_cons, collected, Bool.false_eq_true, if_false, List.length_append, List.length_singleton]
    rfl

/-- The controller gives a value's bits as the clock falls, while no start bit comes. -/
def giving (t : ρ) (b : Bool) (bits : List Bool) : Adc ρ := ⟨t, .give b bits⟩

theorem valueShown (n : Nat) : Shown (adc conv) false n (giving t) (giving t) where
  fall _ := rfl
  rise _ := rfl
  miso_low := rfl
  miso_high := rfl

/-- One sample of `TP_Read_AD`. -/
def doutBit : TpCode Bool := do
  tclk false
  tclk true
  dout

theorem run_doutBit {d : Adc ρ} {b : Bool} {rest : List Bool} (low : lowered (adc conv) k d = giving t b rest) :
    run (bus (adc conv)) doutBit ⟨false, k, false, d⟩ = (b, ⟨false, true, false, giving t b rest⟩) := by
  simp only [doutBit, tclk, dout, Prog.put_bind, run_write, bus_lowered, low, bus_rise]
  rfl

def numPush (num : UInt16) (bit : Bool) : UInt16 := num <<< 1 + if bit then 1 else 0

theorem numPush_toBitVec (x : UInt16) (b : Bool) : (numPush x b).toBitVec = x.toBitVec.shiftConcat b := by
  apply BitVec.eq_of_toNat_eq
  rw [BitVec.toNat_shiftConcat]
  cases b <;> simp [numPush, BitVec.toNat_add, BitVec.toNat_shiftLeft]

theorem foldl_adcBits (v : Fin 4096) : ((adcBits v).foldl numPush 0) >>> 4 = UInt16.ofNat v.val := by
  have word : (adcBits v).foldl numPush 0 = ⟨BitVec.ofNat 16 (v.val * 16)⟩ := by
    apply UInt16.toBitVec_inj.mp
    rw [foldl_push_map UInt16.toBitVec numPush_toBitVec]
    exact pushed_msbs _ _
  have small := v.isLt
  have whole : (⟨BitVec.ofNat 16 (v.val * 16)⟩ : UInt16).toNat = v.val * 16 := Nat.mod_eq_of_lt (by omega)
  rw [word]
  apply UInt16.toNat_inj.mp
  rw [UInt16.toNat_shiftRight, whole, UInt16.toNat_ofNat', Nat.mod_eq_of_lt (show v.val < 2 ^ 16 by omega)]
  exact (Nat.shiftRight_eq_div_pow _ 4).trans (Nat.mul_div_cancel _ (by decide))

/-- A command of the two axes: it begins with a start bit and leaves the data line low. -/
def IsAxis (cmd : UInt8) : Prop := byteTop cmd = true ∧ ∀ o, (byteBits cmd).getLastD o = false

theorem isAxis_0xD0 : IsAxis 0xD0 := ⟨by decide, fun _ => rfl⟩

theorem isAxis_0x90 : IsAxis 0x90 := ⟨by decide, fun _ => rfl⟩

theorem isAxis_axisCommands (touchtype : UInt8) :
    IsAxis (axisCommands touchtype).cmdRdx ∧ IsAxis (axisCommands touchtype).cmdRdy := by
  unfold axisCommands
  split
  · exact ⟨isAxis_0x90, isAxis_0xD0⟩
  · exact ⟨isAxis_0xD0, isAxis_0x90⟩

variable {cmd : UInt8}

theorem run_tpWriteByte (axis : IsAxis cmd) :
    run (bus (adc conv)) (tpWriteByte cmd) ⟨false, k, o, ⟨t, .control []⟩⟩ =
      ((), ⟨false, true, false, ⟨(conv t cmd).2, .acquired (conv t cmd).1⟩⟩) := by
  have parts : tpWriteByte cmd = do
      let _ ← shiftOut byteTop (· <<< 1) bitOut 8 cmd
      return () := rfl
  obtain ⟨k', final, high⟩ : WordSent (controlTaken conv t) o (taps byteTop (· <<< 1) 8 cmd)
      (run (bus (adc conv)) (shiftOut byteTop (· <<< 1) bitOut 8 cmd) ⟨false, k, o, controlTaken conv t []⟩).2 :=
    run_bitsOut controlTaken_clocked cmd
  rw [taps_byte byteTop_eq] at final high
  rw [high (List.ne_nil_of_length_eq_add_one (length_byteBits cmd)), axis.2] at final
  have whole : controlTaken conv t (byteBits cmd) = ⟨(conv t cmd).2, .acquired (conv t cmd).1⟩ := by
    have first : byteBits cmd = true :: taps byteTop (· <<< 1) 7 (cmd <<< 1) := by
      rw [← taps_byte byteTop_eq, taps, axis.1]
    have all : (byteBits cmd).dropWhile (!·) = byteBits cmd := by
      rw [first]
      rfl
    rw [controlTaken, all, collected, if_pos (length_byteBits cmd), byteOf_byteBits]
  have sent : (run (bus (adc conv)) (shiftOut byteTop (· <<< 1) bitOut 8 cmd) ⟨false, k, o, ⟨t, .control []⟩⟩).2 =
    ⟨false, true, false, controlTaken conv t (byteBits cmd)⟩ := final
  rw [parts, run_bind, sent, whole]
  rfl

/-- The sixteen samples, from the falling clock that shows the value's first bit. -/
theorem run_samples (v : Fin 4096) :
    ∃ l, run (bus (adc conv)) (shiftIn numPush doutBit 16 0) ⟨false, false, false, giving t ((adcBits v).headD false) (adcBits v).tail⟩ =
      ((adcBits v).foldl numPush 0, ⟨false, true, false, giving t l []⟩) := by
  have width : (adcBits v).length = 16 := length_msbs _
  obtain ⟨b, rest, bits⟩ := List.exists_cons_of_length_eq_add_one width
  have entry : ToCome false 16 (giving t) (giving t) (adcBits v) ⟨false, false, false, giving t ((adcBits v).headD false) (adcBits v).tail⟩ := by
    refine ⟨Nat.le_of_eq width, .inr ⟨b, rest, bits, ?_⟩⟩
    rw [bits]
    rfl
  have shown : Shown (adc conv) false 16 (giving t) (giving t) := valueShown 16
  obtain ⟨l, taken⟩ : ∃ l, run (bus (adc conv)) (shiftIn numPush doutBit (adcBits v).length 0)
      ⟨false, false, false, giving t ((adcBits v).headD false) (adcBits v).tail⟩ =
        ((adcBits v).foldl numPush 0, ⟨false, true, false, giving t l []⟩) :=
    run_bitsIn shown (fun _ low => run_doutBit low) 0 entry
  rw [width] at taken
  exact ⟨l, taken⟩

/-- **One call of `TP_Read_AD`** is one conversion. -/
theorem run_tpReadAd (axis : IsAxis cmd) :
    run (bus (adc conv)) (tpReadAd cmd) (unselected k o t) =
      (UInt16.ofNat (conv t cmd).1.val, unselected true false (conv t cmd).2) := by
  have parts : tpReadAd cmd = do
      tclk false
      tdin false
      tcs false
      tpWriteByte cmd
      tclk false
      tclk true
      tclk false
      let num ← shiftIn numPush doutBit 16 0
      tcs true
      return num >>> 4 := rfl
  have select : (bus (adc conv)).write .ncs false ((bus (adc conv)).write .mosi false ((bus (adc conv)).write .sck false (unselected k o t))) =
      ⟨false, false, false, ⟨t, .control []⟩⟩ := by
    cases k <;> rfl
  have acquired : ∀ v t', (bus (adc conv)).write .sck false ((bus (adc conv)).write .sck true
      ((bus (adc conv)).write .sck false ⟨false, true, false, ⟨t', .acquired v⟩⟩)) =
        ⟨false, false, false, giving t' ((adcBits v).headD false) (adcBits v).tail⟩ := fun _ _ => rfl
  obtain ⟨l, samples⟩ : ∃ l, run (bus (adc conv)) (shiftIn numPush doutBit 16 0)
      ⟨false, false, false, giving (conv t cmd).2 ((adcBits (conv t cmd).1).headD false) (adcBits (conv t cmd).1).tail⟩ =
        ((adcBits (conv t cmd).1).foldl numPush 0, ⟨false, true, false, giving (conv t cmd).2 l []⟩) :=
    run_samples (conv t cmd).1
  have converts : run (bus (adc conv)) (tpReadAd cmd) (unselected k o t) =
      (((adcBits (conv t cmd).1).foldl numPush 0) >>> 4, unselected true false (conv t cmd).2) := by
    simp only [parts, tclk, tdin, tcs, Prog.put_bind, run_write, select, run_bind_of _ (run_tpWriteByte axis), acquired,
      run_bind_of _ samples]
    rfl
  rw [converts, foldl_adcBits]

/-- The converter after `n` conversions. -/
def converted (conv : ρ → UInt8 → Fin 4096 × ρ) (cmd : UInt8) : Nat → ρ → ρ
  | 0, t => t
  | n + 1, t => (conv (converted conv cmd n t) cmd).2

/-- Five conversions. -/
def conversions (conv : ρ → UInt8 → Fin 4096 × ρ) (cmd : UInt8) (t : ρ) : Samples := fun i => (conv (converted conv cmd i t) cmd).1

/-- The lines and the controller between two calls. -/
def Resting (t : ρ) (w : Serial (Adc ρ)) : Prop := ∃ k o, w = unselected k o t

/-- The first `n` entries of the buffer are the conversions so far. -/
def BufferHolds (conv : ρ → UInt8 → Fin 4096 × ρ) (cmd : UInt8) (t : ρ) (n : Nat) (buf : Fin 5 → UInt16) (w : Serial (Adc ρ)) : Prop :=
  (∀ i : Fin 5, i.val < n → buf i = UInt16.ofNat (conversions conv cmd t i).val) ∧ Resting (converted conv cmd n t) w

/-- One round of the loop that fills the buffer. -/
def tpReadXoyRound (cmd : UInt8) (i : Nat) (buf : Fin 5 → UInt16) : TpCode (Fin 5 → UInt16) := do
  let v ← tpReadAd cmd
  return Function.update buf (Fin.ofNat 5 i) v

theorem BufferHolds.round (axis : IsAxis cmd) {n : Nat} (fits : n < 5) {buf : Fin 5 → UInt16} {w : Serial (Adc ρ)}
    (filled : BufferHolds conv cmd t n buf w) :
    BufferHolds conv cmd t (n + 1) (run (bus (adc conv)) (tpReadXoyRound cmd n buf) w).1
      (run (bus (adc conv)) (tpReadXoyRound cmd n buf) w).2 := by
  obtain ⟨before, k, o, rfl⟩ := filled
  rw [tpReadXoyRound, run_bind, run_tpReadAd axis]
  refine ⟨fun i below => ?_, true, false, rfl⟩
  have place : (Fin.ofNat 5 n).val = n := Nat.mod_eq_of_lt fits
  rcases Nat.lt_succ_iff_lt_or_eq.mp below with earlier | rfl
  · have other : i ≠ Fin.ofNat 5 n := fun same => Nat.ne_of_lt earlier ((congrArg Fin.val same).trans place)
    exact (Function.update_of_ne other _ _).trans (before i earlier)
  · have here : Fin.ofNat 5 i.val = i := Fin.ext place
    rw [here]
    exact Function.update_self _ _ _

/-- `TP_Read_XOY` after its samples. -/
def xoyOf (buf : Fin 5 → Nat) : Nat :=
  let buf := sortRounds.foldl exchange buf
  uint16 (uint16 (uint16 (0 + buf 1) + buf 2) + buf 3) / 3

/-- A call of `TP_Read_XOY` is the mean of five conversions, whatever the stack held. -/
theorem run_tpReadXoyLines (axis : IsAxis cmd) (stack : Fin 5 → UInt16) {w : Serial (Adc ρ)} (entry : Resting t w) :
    ∃ w', run (bus (adc conv)) (tpReadXoyLines stack cmd) w = (tpReadXoy (conversions conv cmd t), w') ∧
      Resting (converted conv cmd 5 t) w' := by
  have parts : tpReadXoyLines stack cmd =
      Prog.forLoop 0 5 stack (tpReadXoyRound cmd) >>= fun buf => pure (xoyOf fun i => (buf i).toNat) := rfl
  have filled : BufferHolds conv cmd t (0 + 5) _ _ :=
    run_forLoop (bus (adc conv)) (BufferHolds conv cmd t) (tpReadXoyRound cmd) 5 0 stack w
      ⟨fun _ none => absurd none (Nat.not_lt_zero _), entry⟩ fun _ _ _ _ fits => BufferHolds.round axis (Nat.zero_add 5 ▸ fits)
  rw [parts, run_bind, run_pure]
  generalize run (bus (adc conv)) (Prog.forLoop 0 5 stack (tpReadXoyRound cmd)) w = r at filled ⊢
  obtain ⟨samples, rests⟩ := filled
  have buffer : (fun i => (r.1 i).toNat) = fun i => (conversions conv cmd t i).val := by
    funext i
    have small := (conversions conv cmd t i).isLt
    rw [samples i i.isLt, UInt16.toNat_ofNat']
    exact Nat.mod_eq_of_lt (by omega)
  have mean : xoyOf (fun i => (r.1 i).toNat) = tpReadXoy (conversions conv cmd t) := congrArg xoyOf buffer
  exact ⟨r.2, Prod.ext mean rfl, rests⟩

variable {cmds : AxisCommands} {touchtype : UInt8}

/-- The samples of one `TP_Read_XY2`: five conversions of each axis, twice. -/
def conversionsXY2 (conv : ρ → UInt8 → Fin 4096 × ρ) (cmds : AxisCommands) (t : ρ) : Reading :=
  let t1 := converted conv cmds.cmdRdx 5 t
  let t2 := converted conv cmds.cmdRdy 5 t1
  let t3 := converted conv cmds.cmdRdx 5 t2
  ⟨conversions conv cmds.cmdRdx t, conversions conv cmds.cmdRdy t1, conversions conv cmds.cmdRdx t2, conversions conv cmds.cmdRdy t3⟩

/-- The converter after one `TP_Read_XY`. -/
def convertedXY (conv : ρ → UInt8 → Fin 4096 × ρ) (cmds : AxisCommands) (t : ρ) : ρ :=
  converted conv cmds.cmdRdy 5 (converted conv cmds.cmdRdx 5 t)

theorem run_tpReadXYLines (stack : Fin 5 → UInt16) {w : Serial (Adc ρ)} (entry : Resting t w) :
    ∃ w', run (bus (adc conv)) (tpReadXYLines stack (axisCommands touchtype)) w =
        (tpReadXY (conversions conv (axisCommands touchtype).cmdRdx t)
          (conversions conv (axisCommands touchtype).cmdRdy (converted conv (axisCommands touchtype).cmdRdx 5 t)), w') ∧
      Resting (convertedXY conv (axisCommands touchtype) t) w' := by
  obtain ⟨axisX, axisY⟩ := isAxis_axisCommands touchtype
  obtain ⟨w1, xtemp, restX⟩ : ∃ w1, run (bus (adc conv)) (tpReadXoyLines stack (axisCommands touchtype).cmdRdx) w =
      (tpReadXoy (conversions conv (axisCommands touchtype).cmdRdx t), w1) ∧
        Resting (converted conv (axisCommands touchtype).cmdRdx 5 t) w1 :=
    run_tpReadXoyLines axisX stack entry
  obtain ⟨w2, ytemp, restY⟩ : ∃ w2, run (bus (adc conv)) (tpReadXoyLines stack (axisCommands touchtype).cmdRdy) w1 = (_, w2) ∧
      Resting (convertedXY conv (axisCommands touchtype) t) w2 :=
    run_tpReadXoyLines axisY stack restX
  refine ⟨w2, ?_, restY⟩
  rw [tpReadXYLines, run_bind_of _ xtemp, run_bind_of _ ytemp, run_pure, tpReadXY]

/-- Both calls of `TP_Read_XY` answer 1. -/
theorem tpReadXY2At_rounds (r : Reading) (x y : UInt16) : tpReadXY2At r x y =
    if Agree (tpReadXY r.x1 r.y1).2.1.toNat (tpReadXY r.x2 r.y2).2.1.toNat ∧
        Agree (tpReadXY r.x1 r.y1).2.2.toNat (tpReadXY r.x2 r.y2).2.2.toNat then
      (1, UInt16.ofNat (((tpReadXY r.x1 r.y1).2.1.toNat + (tpReadXY r.x2 r.y2).2.1.toNat) / 2),
        UInt16.ofNat (((tpReadXY r.x1 r.y1).2.2.toNat + (tpReadXY r.x2 r.y2).2.2.toNat) / 2))
    else (0, x, y) := by
  simp only [tpReadXY, ofNat_tpReadXoy]
  split
  · exact tpReadXY2At_agree ‹_›
  · exact tpReadXY2At_disagree ‹_›

/-- Two calls of `TP_Read_XY` that answer 1. -/
theorem run_tpReadXY2Lines_of {stack : Fin 5 → UInt16} {x y : UInt16} {w w1 w2 : Serial (Adc ρ)} {a b : UInt8 × UInt16 × UInt16}
    (first : run (bus (adc conv)) (tpReadXYLines stack cmds) w = (a, w1)) (read1 : ¬ a.1 = 0)
    (second : run (bus (adc conv)) (tpReadXYLines stack cmds) w1 = (b, w2)) (read2 : ¬ b.1 = 0) :
    run (bus (adc conv)) (tpReadXY2Lines stack cmds x y) w =
      (if Agree a.2.1.toNat b.2.1.toNat ∧ Agree a.2.2.toNat b.2.2.toNat then
        (1, UInt16.ofNat ((a.2.1.toNat + b.2.1.toNat) / 2), UInt16.ofNat ((a.2.2.toNat + b.2.2.toNat) / 2))
      else (0, x, y), w2) := by
  obtain ⟨flag1, x1, y1⟩ := a
  obtain ⟨flag2, x2, y2⟩ := b
  rw [tpReadXY2Lines, run_bind_of _ first]
  simp only [if_neg read1]
  rw [run_bind_of _ second]
  simp only [if_neg read2]
  split <;> rfl

/-- **A reading on the lines** is `TP_Read_XY2` of the controller's next twenty conversions, with the
axes exchanged as `touchtype` says, whatever the stack held. -/
theorem run_tpReadXY2Lines (conv : ρ → UInt8 → Fin 4096 × ρ) (stack : Fin 5 → UInt16) (touchtype : UInt8) (x y : UInt16) (k o : Bool) (t : ρ) :
    (run (bus (adc conv)) (tpReadXY2Lines stack (axisCommands touchtype) x y) (unselected k o t)).1 =
        tpReadXY2At (conversionsXY2 conv (axisCommands touchtype) t) x y ∧
      Resting (convertedXY conv (axisCommands touchtype) (convertedXY conv (axisCommands touchtype) t))
        (run (bus (adc conv)) (tpReadXY2Lines stack (axisCommands touchtype) x y) (unselected k o t)).2 := by
  have round : ∀ {t : ρ} {w : Serial (Adc ρ)}, Resting t w →
      ∃ w', run (bus (adc conv)) (tpReadXYLines stack (axisCommands touchtype)) w =
          (tpReadXY (conversions conv (axisCommands touchtype).cmdRdx t)
            (conversions conv (axisCommands touchtype).cmdRdy (converted conv (axisCommands touchtype).cmdRdx 5 t)), w') ∧
        Resting (convertedXY conv (axisCommands touchtype) t) w' := run_tpReadXYLines stack
  obtain ⟨w1, first, rest1⟩ := round ⟨k, o, rfl⟩
  obtain ⟨w2, second, rest2⟩ := round rest1
  have answers : ∀ a b : Samples, ¬ (tpReadXY a b).1 = 0 := fun a b => show ¬ (1 : UInt8) = 0 by decide
  rw [run_tpReadXY2Lines_of first (answers _ _) second (answers _ _), tpReadXY2At_rounds]
  exact ⟨rfl, rest2⟩

end Chip

end DoorSecurity
