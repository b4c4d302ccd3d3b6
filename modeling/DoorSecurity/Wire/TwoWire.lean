import DoorSecurity.Bus.Program

/-!
# Two-wire buses

A master sets its clock, its data latch and the direction of its data pin; a chip pulls
the data line low or lets it go. What the chip hears are the edges of the two lines:
the data line moving under a high clock is a start or a stop, the clock moving is a
bit. Code for the master is a program over the pins, and `TwoWire.bus` runs it
against any chip.
-/

namespace Wire
set_option autoImplicit false
open Bus

/-- What the master's code sets and reads; `pause` is the time that it lets go by. -/
inductive Pin where
  | dir
  | sda
  | scl
  | pause
deriving DecidableEq

/-- What a chip can tell from the lines. -/
inductive Edge where
  | start
  | stop
  | rise (bit : Bool)
  | fall
  | pause
deriving DecidableEq

/-- A chip: whether it lets the data line go, and what an edge makes of it. -/
structure TwoWireChip (δ : Type) where
  releases : δ → Bool
  hear : δ → Edge → δ

/-- The master's pins (`out` while its data pin drives the line) and the chip. -/
structure TwoWire (δ : Type) where
  out : Bool
  sda : Bool
  scl : Bool
  chip : δ

namespace TwoWire

variable {δ : Type} (c : TwoWireChip δ)

/-- The data line: pulled up, low when the master or the chip pulls it low. -/
def line (w : TwoWire δ) : Bool := (!w.out || w.sda) && c.releases w.chip

/-- The edge between two settings of the master's pins. -/
def edge (was now : TwoWire δ) : Option Edge :=
  match was.scl, now.scl with
  | false, false => none
  | false, true => some (.rise (now.line c))
  | true, false => some .fall
  | true, true =>
    match was.line c, now.line c with
    | true, false => some .start
    | false, true => some .stop
    | _, _ => none

/-- The master moves its pins, and the chip hears the edge. -/
def move (was now : TwoWire δ) : TwoWire δ :=
  match edge c was now with
  | none => now
  | some e => { now with chip := c.hear now.chip e }

/-- The bus with this chip on it. -/
def bus : Handler (TwoWire δ) Pin Bool where
  read p w :=
    match p with
    | .dir => (w.out, w)
    | .sda => (w.line c, w)
    | .scl => (w.scl, w)
    | .pause => (false, w)
  write p v w :=
    match p with
    | .dir => move c w { w with out := v }
    | .sda => move c w { w with sda := v }
    | .scl => move c w { w with scl := v }
    | .pause => { w with chip := c.hear w.chip .pause }

variable {c} {o s v : Bool} {d : δ}

@[simp] theorem bus_read_sda (w : TwoWire δ) : (bus c).read .sda w = (w.line c, w) := rfl

@[simp] theorem bus_pause (w : TwoWire δ) : (bus c).write .pause v w = { w with chip := c.hear w.chip .pause } := rfl

/-- Under a low clock the data line moves unheard. -/
@[simp] theorem bus_dir_low : (bus c).write .dir v ⟨o, s, false, d⟩ = ⟨v, s, false, d⟩ := rfl

@[simp] theorem bus_sda_low : (bus c).write .sda v ⟨o, s, false, d⟩ = ⟨o, v, false, d⟩ := rfl

@[simp] theorem bus_scl_low : (bus c).write .scl false ⟨o, s, false, d⟩ = ⟨o, s, false, d⟩ := rfl

@[simp] theorem bus_scl_rise :
    (bus c).write .scl true ⟨o, s, false, d⟩ = ⟨o, s, true, c.hear d (.rise ((!o || s) && c.releases d))⟩ := rfl

@[simp] theorem bus_scl_fall : (bus c).write .scl false ⟨o, s, true, d⟩ = ⟨o, s, false, c.hear d .fall⟩ := rfl

/-- What does not move the line is not heard. -/
theorem move_same {was now : TwoWire δ} (clock : was.scl = now.scl) (same : was.line c = now.line c) : move c was now = now := by
  unfold move edge
  rw [clock, same]
  cases now.scl <;> cases now.line c <;> rfl

theorem bus_scl_high : (bus c).write .scl true ⟨o, s, true, d⟩ = ⟨o, s, true, d⟩ := move_same rfl rfl

/-- A released pin set to output while its latch is high. -/
theorem bus_dir_high : (bus c).write .dir v ⟨o, true, true, d⟩ = ⟨v, true, true, d⟩ := by
  have same : line c ⟨o, true, true, d⟩ = line c ⟨v, true, true, d⟩ := by simp [line]
  exact move_same rfl same

theorem bus_sda_high : (bus c).write .sda true ⟨o, true, true, d⟩ = ⟨o, true, true, d⟩ := move_same rfl rfl

/-- A start: the data line falls under a high clock. -/
theorem bus_start (free : c.releases d = true) :
    (bus c).write .sda false ⟨true, true, true, d⟩ = ⟨true, false, true, c.hear d .start⟩ := by
  simp [bus, move, edge, line, free]

/-- A stop: the data line rises under a high clock. -/
theorem bus_stop (free : c.releases d = true) :
    (bus c).write .sda true ⟨true, false, true, d⟩ = ⟨true, true, true, c.hear d .stop⟩ := by
  simp [bus, move, edge, line, free]

end TwoWire

end Wire
