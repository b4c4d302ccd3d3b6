import DoorSecurity.Eeprom.Device

/-!
# The touch screen's scan (`bsp/touch.c`)

A reading takes five ADC samples of each axis twice and is accepted when the two
rounds agree. `TP_Scan` keeps the coordinates of the last accepted reading and two
bits of the pen; a pen that is up on two scans in a row resets the coordinates to
`0xFFFF`.
-/

namespace DoorSecurity
set_option autoImplicit false

/-- Five 12-bit samples of one axis: what `TP_Read_AD` returns. -/
abbrev Samples := Fin 5 → Fin 4096

/-- `if(buf[i]>buf[j])`: exchange the two. -/
def exchange (buf : Fin 5 → Nat) (ij : Fin 5 × Fin 5) : Fin 5 → Nat :=
  if buf ij.1 > buf ij.2 then Function.update (Function.update buf ij.1 (buf ij.2)) ij.2 (buf ij.1) else buf

/-- The pairs that the two sorting loops compare, in order. -/
def sortRounds : List (Fin 5 × Fin 5) :=
  [(0, 1), (0, 2), (0, 3), (0, 4), (1, 2), (1, 3), (1, 4), (2, 3), (2, 4), (3, 4)]

/-- `TP_Read_XOY`: the mean of the three middle samples. -/
def tpReadXoy (samples : Samples) : Nat :=
  let buf := sortRounds.foldl exchange fun i => (samples i).val
  uint16 (uint16 (uint16 (0 + buf 1) + buf 2) + buf 3) / 3

/-- The samples of `TP_Read_XY2`, in the order of their conversion. -/
structure Reading where
  x1 : Samples
  y1 : Samples
  x2 : Samples
  y2 : Samples

def errRange : Nat := 50

/-- The two rounds of one axis agree. -/
def Agree (a1 a2 : Nat) : Prop := (a2 ≤ a1 ∧ a1 < a2 + errRange) ∨ (a1 ≤ a2 ∧ a2 < a1 + errRange)

instance (a1 a2 : Nat) : Decidable (Agree a1 a2) := inferInstanceAs (Decidable (_ ∨ _))

/-- `TP_Read_XY2`: the coordinates, none when the rounds do not agree. -/
def tpReadXY2 (r : Reading) : Option (UInt16 × UInt16) :=
  let x1 := tpReadXoy r.x1
  let y1 := tpReadXoy r.y1
  let x2 := tpReadXoy r.x2
  let y2 := tpReadXoy r.y2
  if Agree x1 x2 ∧ Agree y1 y2 then some (UInt16.ofNat ((x1 + x2) / 2), UInt16.ofNat ((y1 + y2) / 2)) else none

/-- The fields of `tp_dev` that a scan uses: `x[0]`, `y[0]`, `x[4]`, `y[4]` and `sta`. -/
structure TpDev where
  x0 : UInt16
  y0 : UInt16
  x4 : UInt16
  y4 : UInt16
  sta : UInt8
deriving DecidableEq

def tpPresDown : UInt8 := 0x80
def tpCathPres : UInt8 := 0x40

/-- `tp_dev` at program start. -/
def TpDev.init : TpDev := ⟨0, 0, 0, 0, 0⟩

/-- The conversion to screen coordinates by `xfac`, `xoff`, `yfac` and `yoff`. -/
structure Calibration where
  x : UInt16 → UInt16
  y : UInt16 → UInt16

/-- What one scan meets: the pen, down or not, and the samples that a reading would take. -/
structure ScanInput where
  down : Bool
  reading : Reading

/-- The reading of a scan, raw or converted; one that is not accepted stores nothing. -/
def TpDev.read (s : TpDev) (cal : Calibration) (tp : Bool) (r : Reading) : TpDev :=
  match tpReadXY2 r with
  | some (x, y) => if tp then { s with x0 := x, y0 := y } else { s with x0 := cal.x x, y0 := cal.y y }
  | none => s

/-- The first scan of a press records where it began. -/
def TpDev.press (s : TpDev) : TpDev :=
  if s.sta &&& tpPresDown = 0 then { s with sta := tpPresDown ||| tpCathPres, x4 := s.x0, y4 := s.y0 } else s

/-- A pen that is up: first the press is over, then the coordinates go. -/
def TpDev.release (s : TpDev) : TpDev :=
  if s.sta &&& tpPresDown ≠ 0 then { s with sta := s.sta &&& ~~~((1 : UInt8) <<< 7) }
  else { s with x4 := 0, y4 := 0, x0 := 0xffff, y0 := 0xffff }

/-- `TP_Scan`. -/
def tpScan (cal : Calibration) (tp : Bool) (s : TpDev) (i : ScanInput) : TpDev :=
  if i.down then (s.read cal tp i.reading).press else s.release

/-- `tp_dev.sta&TP_PRES_DOWN`. -/
def TpDev.Pressed (s : TpDev) : Prop := s.sta &&& tpPresDown ≠ 0

/-- The coordinates of a pen that is not down. -/
def TpDev.Sentinel (s : TpDev) : Prop := s.x0 = 0xffff ∧ s.y0 = 0xffff

instance (s : TpDev) : Decidable s.Pressed := inferInstanceAs (Decidable (¬ _))
instance (s : TpDev) : Decidable s.Sentinel := inferInstanceAs (Decidable (_ ∧ _))

theorem TpDev.press_pressed (s : TpDev) : s.press.Pressed := by
  unfold TpDev.press TpDev.Pressed
  split
  · show (tpPresDown ||| tpCathPres) &&& tpPresDown ≠ 0
    decide
  · assumption

theorem TpDev.press_coordinates (s : TpDev) : s.press.x0 = s.x0 ∧ s.press.y0 = s.y0 := by
  unfold TpDev.press
  split <;> exact ⟨rfl, rfl⟩

theorem TpDev.release_not_pressed (s : TpDev) : ¬ s.release.Pressed := by
  unfold TpDev.release TpDev.Pressed
  apply not_not_intro
  split
  · show s.sta &&& ~~~((1 : UInt8) <<< 7) &&& tpPresDown = 0
    rw [UInt8.and_assoc]
    exact UInt8.and_zero
  · rename_i up; exact not_not.mp up

/-- The scan that ends a press keeps its coordinates. -/
theorem TpDev.release_pressed {s : TpDev} (down : s.Pressed) : s.release = { s with sta := s.sta &&& ~~~((1 : UInt8) <<< 7) } := if_pos down

section Scan

variable {cal : Calibration} {tp : Bool} {s : TpDev} {i : ScanInput}

theorem tpScan_down (down : i.down = true) : tpScan cal tp s i = (s.read cal tp i.reading).press := if_pos down

theorem tpScan_up (up : ¬ i.down = true) : tpScan cal tp s i = s.release := if_neg up

/-- A scan reports pressed exactly when it finds the pen down. -/
theorem tpScan_pressed_iff : (tpScan cal tp s i).Pressed ↔ i.down = true := by
  constructor
  · intro pressed
    by_contra up
    rw [tpScan_up up] at pressed
    exact s.release_not_pressed pressed
  · intro down
    rw [tpScan_down down]
    apply TpDev.press_pressed

/-- An accepted reading sets the coordinates, converted. -/
theorem tpScan_accepted (down : i.down = true) {x y : UInt16} (accepted : tpReadXY2 i.reading = some (x, y)) :
    (tpScan cal false s i).x0 = cal.x x ∧ (tpScan cal false s i).y0 = cal.y y := by
  have read : s.read cal false i.reading = { s with x0 := cal.x x, y0 := cal.y y } := by
    unfold TpDev.read
    rw [accepted]
    rfl
  rw [tpScan_down down, read]
  apply TpDev.press_coordinates

/-- A reading that is not accepted leaves them. -/
theorem tpScan_rejected (down : i.down = true) (rejected : tpReadXY2 i.reading = none) :
    (tpScan cal tp s i).x0 = s.x0 ∧ (tpScan cal tp s i).y0 = s.y0 := by
  have read : s.read cal tp i.reading = s := by
    unfold TpDev.read
    rw [rejected]
  rw [tpScan_down down, read]
  apply TpDev.press_coordinates

end Scan

end DoorSecurity
