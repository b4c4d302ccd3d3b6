import DoorSecurity.Wire.Shift

/-!
# Clocked serial lines

A master sets a select line (low selects), a clock and a data line and samples the
chip's data line. The chip samples the master's bit where the clock rises and shows
its next one where the clock falls, so it hears what the clock does while it is
selected. `Clocked` is a chip's side of a word that the master sends, `Shown` of one that
it takes.
-/

namespace Wire
set_option autoImplicit false
open Bus

/-- The lines; `ncs` is low while the chip is selected. -/
inductive SerialPin where
  | ncs
  | sck
  | mosi
  | miso
deriving DecidableEq

/-- What the chip hears. -/
inductive SerialEdge where
  | select
  | deselect
  | rise (bit : Bool)
  | fall

/-- A chip: the level of its data line, and what an edge makes of it. -/
structure SerialChip (δ : Type) where
  miso : δ → Bool
  hear : δ → SerialEdge → δ

/-- The master's lines and the chip. -/
structure Serial (δ : Type) where
  ncs : Bool
  sck : Bool
  mosi : Bool
  chip : δ

namespace Serial

variable {δ : Type} (c : SerialChip δ)

/-- The bus with this chip on it. -/
def bus : Handler (Serial δ) SerialPin Bool where
  read p w :=
    match p with
    | .ncs => (w.ncs, w)
    | .sck => (w.sck, w)
    | .mosi => (w.mosi, w)
    | .miso => (c.miso w.chip, w)
  write p v w :=
    match p with
    | .ncs =>
      if v = w.ncs then w else { w with ncs := v, chip := c.hear w.chip (if v then .deselect else .select) }
    | .sck =>
      if v = w.sck ∨ w.ncs then { w with sck := v }
      else { w with sck := v, chip := c.hear w.chip (if v then .rise w.mosi else .fall) }
    | .mosi => { w with mosi := v }
    | .miso => w

variable {c} {k o v : Bool} {d : δ}

@[simp] theorem bus_read_miso (w : Serial δ) : (bus c).read .miso w = (c.miso w.chip, w) := rfl

@[simp] theorem bus_mosi : (bus c).write .mosi v ⟨false, k, o, d⟩ = ⟨false, k, v, d⟩ := rfl

@[simp] theorem bus_rise : (bus c).write .sck true ⟨false, false, o, d⟩ = ⟨false, true, o, c.hear d (.rise o)⟩ := by simp [bus]

@[simp] theorem bus_fall : (bus c).write .sck false ⟨false, true, o, d⟩ = ⟨false, false, o, c.hear d .fall⟩ := by simp [bus]

@[simp] theorem bus_low : (bus c).write .sck false ⟨false, false, o, d⟩ = ⟨false, false, o, d⟩ := by simp [bus]

theorem bus_select : (bus c).write .ncs false ⟨true, k, o, d⟩ = ⟨false, k, o, c.hear d .select⟩ := by simp [bus]

theorem bus_deselect : (bus c).write .ncs true ⟨false, k, o, d⟩ = ⟨true, k, o, c.hear d .deselect⟩ := by simp [bus]

/-- The clock goes low, from either level. -/
def lowered (c : SerialChip δ) (k : Bool) (d : δ) : δ := if k then c.hear d .fall else d

theorem bus_lowered : (bus c).write .sck false ⟨false, k, o, d⟩ = ⟨false, false, o, lowered c k d⟩ := by
  cases k <;> simp [lowered]

end Serial

section Words

variable {δ R : Type} {c : SerialChip δ} {k o : Bool} {d : δ}

open Serial

/-- One bit out: the data line, then the clock low and high. -/
def bitOut (bit : Bool) : Prog SerialPin Bool Unit := do
  Prog.put .mosi bit
  Prog.put .sck false
  Prog.put .sck true

/-- The chip takes bits as the clock goes low and high: `taken bits` is the chip after them. -/
def Clocked (c : SerialChip δ) (n : Nat) (taken : List Bool → δ) : Prop :=
  ∀ {k b bits}, bits.length < n → c.hear (lowered c k (taken bits)) (.rise b) = taken (bits ++ [b])

/-- A chip that collects `n` bits and then makes a word of them. -/
def collected (n : Nat) (part whole : List Bool → δ) (bits : List Bool) : δ := if bits.length = n then whole bits else part bits

theorem clocked_collected {n : Nat} {part whole : List Bool → δ} (fall : ∀ bits, c.hear (part bits) .fall = part bits)
    (rise : ∀ b bits, c.hear (part bits) (.rise b) = if bits.length + 1 = n then whole (bits ++ [b]) else part (bits ++ [b])) :
    Clocked c n (collected n part whole) := by
  intro k b bits short
  have still : lowered c k (collected n part whole bits) = part bits := by
    rw [collected, if_neg (by omega)]
    cases k with
    | false => rfl
    | true => exact fall bits
  rw [still, rise, collected, List.length_append, List.length_singleton]

/-- The lines with these bits sent; the data line keeps the last one. -/
def WordSent (taken : List Bool → δ) (o : Bool) (bits : List Bool) (w : Serial δ) : Prop :=
  ∃ k, w = ⟨false, k, bits.getLastD o, taken bits⟩ ∧ (bits ≠ [] → k = true)

/-- **A word sent.** -/
theorem run_bitsOut {n : Nat} {taken : List Bool → δ} (clocked : Clocked c n taken) {top : R → Bool} {shl : R → R} (r : R) :
    WordSent taken o (taps top shl n r) (run (bus c) (shiftOut top shl bitOut n r) ⟨false, k, o, taken []⟩).2 := by
  apply run_shiftOut (bus c) _ ⟨k, rfl, fun some => absurd rfl some⟩
  rintro b bits _ short ⟨k', rfl, -⟩
  refine ⟨true, ?_, fun _ => rfl⟩
  simp [bitOut, run_put, bus_lowered, clocked short]

/-- The chip shows bits as the clock goes low: `low b bits` shows `b` with `bits` to come, and is
`high b bits` once the clock has risen on the data bit `o`. -/
structure Shown (c : SerialChip δ) (o : Bool) (n : Nat) (low high : Bool → List Bool → δ) : Prop where
  fall : ∀ {l b bits}, bits.length < n → c.hear (high l (b :: bits)) .fall = low b bits
  rise : ∀ {b bits}, bits.length < n → c.hear (low b bits) (.rise o) = high b bits
  miso_low : ∀ {b bits}, c.miso (low b bits) = b
  miso_high : ∀ {b bits}, c.miso (high b bits) = b

/-- The lines with these bits to come, the first of them shown already if the clock is low. -/
def ToCome (o : Bool) (n : Nat) (low high : Bool → List Bool → δ) (bits : List Bool) (w : Serial δ) : Prop :=
  bits.length ≤ n ∧ ((∃ l, w = ⟨false, true, o, high l bits⟩) ∨ ∃ b rest, bits = b :: rest ∧ w = ⟨false, false, o, low b rest⟩)

variable {n : Nat} {low high : Bool → List Bool → δ} {push : R → Bool → R} {bits : List Bool} {w : Serial δ}

/-- **A word taken**, whichever way one sample lowers the clock, looks at the line and raises it. -/
theorem run_bitsIn (shown : Shown c o n low high) {sample : Prog SerialPin Bool Bool}
    (samples : ∀ {k d b rest}, rest.length < n → lowered c k d = low b rest →
      run (bus c) sample ⟨false, k, o, d⟩ = (b, ⟨false, true, o, high b rest⟩))
    (r : R) (entry : ToCome o n low high bits w) :
    ∃ l, run (bus c) (shiftIn push sample bits.length r) w = (bits.foldl push r, ⟨false, true, o, high l []⟩) := by
  obtain ⟨answer, -, ⟨l, final⟩ | ⟨b, rest, none, -⟩⟩ :
      (run (bus c) (shiftIn push sample bits.length r) w).1 = bits.foldl push r ∧
        ToCome o n low high [] (run (bus c) (shiftIn push sample bits.length r) w).2 := by
    apply run_shiftIn (bus c) _ r entry
    rintro b bits _ ⟨fits, ⟨l, rfl⟩ | ⟨b', rest, same, rfl⟩⟩
    · rw [samples (k := true) (d := high l (b :: bits)) fits (shown.fall fits)]
      exact ⟨rfl, Nat.le_of_lt fits, .inl ⟨b, rfl⟩⟩
    · obtain ⟨rfl, rfl⟩ := List.cons.inj same
      rw [samples (k := false) (d := low b bits) fits rfl]
      exact ⟨rfl, Nat.le_of_lt fits, .inl ⟨b, rfl⟩⟩
  · exact ⟨l, Prod.ext answer final⟩
  · exact absurd none (List.cons_ne_nil b rest).symm

end Words

end Wire
