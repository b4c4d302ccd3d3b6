import DoorSecurity.Touch.Scan

/-!
# Presses and their coordinates

A pen that is up on one scan only leaves the coordinates, and a reading that is not
accepted leaves them too. So a press whose first reading is not accepted reports
the coordinates of the press before it, unless two scans found the pen up between
them. Scans are kept in a list, the newest first.
-/

namespace DoorSecurity
set_option autoImplicit false

/-- `tp_dev` after scans of the screen, the newest first. -/
def scans (cal : Calibration) : List ScanInput → TpDev
  | [] => .init
  | i :: past => tpScan cal false (scans cal past) i

/-- The scans of the press that is going on. -/
def currentPress (past : List ScanInput) : List ScanInput := past.takeWhile (·.down)

/-- The coordinates after the scans are the reset ones, or those of a reading accepted in this press. -/
def OfThisPress (cal : Calibration) (past : List ScanInput) : Prop :=
  (scans cal past).Sentinel ∨ ∃ i ∈ currentPress past, ∃ x y, tpReadXY2 i.reading = some (x, y) ∧
    (scans cal past).x0 = cal.x x ∧ (scans cal past).y0 = cal.y y

/-- Where `TP_Scan` reports pressed, it reports no earlier press. -/
def NoGhost (cal : Calibration) (past : List ScanInput) : Prop := (scans cal past).Pressed → OfThisPress cal past

/-- The scan that begins a press has its reading accepted or finds the reset coordinates. -/
def BeginsClean (cal : Calibration) (i : ScanInput) (past : List ScanInput) : Prop :=
  i.down = true → currentPress past = [] → tpReadXY2 i.reading ≠ none ∨ (scans cal past).Sentinel

section NoGhost

variable {cal : Calibration} {i : ScanInput} {past : List ScanInput}

theorem currentPress_down (down : i.down = true) : currentPress (i :: past) = i :: currentPress past := by
  unfold currentPress
  rw [List.takeWhile_cons_of_pos down]

/-- Between presses the pen was up last, or never scanned. -/
theorem pressed_of_currentPress (going : currentPress past ≠ []) : (scans cal past).Pressed := by
  match past with
  | [] => contradiction
  | i :: past =>
    apply tpScan_pressed_iff.mpr
    by_contra up
    exact going (List.takeWhile_cons_of_neg up)

theorem scans_rejected (cal : Calibration) (past : List ScanInput) (down : i.down = true) (rejected : tpReadXY2 i.reading = none) :
    (scans cal (i :: past)).x0 = (scans cal past).x0 ∧ (scans cal (i :: past)).y0 = (scans cal past).y0 := tpScan_rejected down rejected

theorem scans_accepted (cal : Calibration) (past : List ScanInput) {x y : UInt16} (down : i.down = true)
    (accepted : tpReadXY2 i.reading = some (x, y)) :
    (scans cal (i :: past)).x0 = cal.x x ∧ (scans cal (i :: past)).y0 = cal.y y := tpScan_accepted down accepted

/-- **One scan**: it reports no ghost exactly when it does not begin a press on old coordinates. -/
theorem noGhost_step (before : NoGhost cal past) : NoGhost cal (i :: past) ↔ BeginsClean cal i past := by
  constructor
  · intro clean down first
    rcases clean (tpScan_pressed_iff.mpr down) with reset | ⟨j, here, x, y, accepted, -⟩
    · cases rejected : tpReadXY2 i.reading with
      | some c => exact .inl (Option.some_ne_none c)
      | none =>
        obtain ⟨sameX, sameY⟩ := scans_rejected cal past down rejected
        right
        exact ⟨sameX.symm.trans reset.1, sameY.symm.trans reset.2⟩
    · rw [currentPress_down down, first, List.mem_singleton] at here
      rw [← here, accepted]
      exact .inl (Option.some_ne_none _)
  · intro clean pressed
    have down := tpScan_pressed_iff.mp pressed
    cases reading : tpReadXY2 i.reading with
    | some c =>
      right
      refine ⟨i, ?_, c.1, c.2, reading, scans_accepted cal past down reading⟩
      rw [currentPress_down down]
      apply List.mem_cons_self
    | none =>
      obtain ⟨sameX, sameY⟩ := scans_rejected cal past down reading
      have old : OfThisPress cal past := by
        by_cases first : currentPress past = []
        · left
          exact (clean down first).resolve_left (not_not_intro reading)
        · exact before (pressed_of_currentPress first)
      rcases old with reset | ⟨j, here, x, y, accepted, atX, atY⟩
      · left
        exact ⟨sameX.trans reset.1, sameY.trans reset.2⟩
      · right
        refine ⟨j, ?_, x, y, accepted, sameX.trans atX, sameY.trans atY⟩
        rw [currentPress_down down]
        exact List.mem_cons_of_mem i here

end NoGhost

/-- **No scan of a run reports an earlier press exactly when** every scan that begins a press has its
reading accepted or finds the reset coordinates. -/
theorem noGhost_iff (cal : Calibration) (run : List ScanInput) :
    (∀ past, past <:+ run → NoGhost cal past) ↔ ∀ i past, i :: past <:+ run → BeginsClean cal i past := by
  constructor
  · intro clean i past inside
    have before := (List.suffix_cons i past).trans inside
    exact (noGhost_step (clean past before)).mp (clean (i :: past) inside)
  · intro begins past inside
    induction past with
    | nil => intro pressed; exact absurd pressed (show ¬ TpDev.init.Pressed by decide)
    | cons i past ih =>
      have before := (List.suffix_cons i past).trans inside
      exact (noGhost_step (ih before)).mpr (begins i past inside)

/-- By the pen and the readings alone, what set the coordinates last reset them: a scan that found the
pen up again, or a reading that is converted to the reset coordinates. -/
inductive ResetLast (cal : Calibration) : List ScanInput → Prop
  | again {i : ScanInput} {past : List ScanInput} (up : ¬ i.down = true) (before : currentPress past = []) : ResetLast cal (i :: past)
  | converted {i : ScanInput} {past : List ScanInput} {x y : UInt16} (down : i.down = true) (accepted : tpReadXY2 i.reading = some (x, y))
      (atX : cal.x x = 0xffff) (atY : cal.y y = 0xffff) : ResetLast cal (i :: past)
  | rejected {i : ScanInput} {past : List ScanInput} (down : i.down = true) (rejected : tpReadXY2 i.reading = none)
      (before : ResetLast cal past) : ResetLast cal (i :: past)
  | ended {i : ScanInput} {past : List ScanInput} (up : ¬ i.down = true) (going : currentPress past ≠ [])
      (before : ResetLast cal past) : ResetLast cal (i :: past)

section Inputs

variable {cal : Calibration} {i : ScanInput} {past : List ScanInput}

theorem not_pressed_of_currentPress (between : currentPress past = []) : ¬ (scans cal past).Pressed := by
  match past with
  | [] => exact (by decide : ¬ TpDev.init.Pressed)
  | i :: past =>
    intro pressed
    rw [currentPress_down (tpScan_pressed_iff.mp pressed)] at between
    contradiction

/-- A scan with the pen up resets the coordinates when no press is going on, and keeps them when one ends. -/
theorem scans_up_again (up : ¬ i.down = true) (before : currentPress past = []) : (scans cal (i :: past)).Sentinel := by
  have reset : scans cal (i :: past) = { scans cal past with x4 := 0, y4 := 0, x0 := 0xffff, y0 := 0xffff } :=
    (tpScan_up up).trans (if_neg (not_pressed_of_currentPress before))
  rw [reset]
  exact ⟨rfl, rfl⟩

theorem scans_ended (cal : Calibration) (up : ¬ i.down = true) (going : currentPress past ≠ []) :
    (scans cal (i :: past)).x0 = (scans cal past).x0 ∧ (scans cal (i :: past)).y0 = (scans cal past).y0 := by
  have kept : scans cal (i :: past) = (scans cal past).release := tpScan_up up
  rw [kept, TpDev.release_pressed (pressed_of_currentPress going)]
  exact ⟨rfl, rfl⟩

/-- The reset coordinates, told by the pen and the readings. -/
theorem sentinel_iff_resetLast (cal : Calibration) (past : List ScanInput) : (scans cal past).Sentinel ↔ ResetLast cal past := by
  induction past with
  | nil => exact ⟨fun reset => absurd reset (by decide : ¬ TpDev.init.Sentinel), nofun⟩
  | cons i past ih =>
    constructor
    · intro reset
      by_cases down : i.down = true
      · cases reading : tpReadXY2 i.reading with
        | some c =>
          obtain ⟨atX, atY⟩ := scans_accepted cal past down reading
          exact .converted down reading (atX.symm.trans reset.1) (atY.symm.trans reset.2)
        | none =>
          obtain ⟨sameX, sameY⟩ := scans_rejected cal past down reading
          exact .rejected down reading (ih.mp ⟨sameX.symm.trans reset.1, sameY.symm.trans reset.2⟩)
      · by_cases between : currentPress past = []
        · exact .again down between
        · obtain ⟨sameX, sameY⟩ := scans_ended cal down between
          exact .ended down between (ih.mp ⟨sameX.symm.trans reset.1, sameY.symm.trans reset.2⟩)
    · intro reset
      cases reset with
      | again up before => exact scans_up_again up before
      | converted down accepted atX atY =>
        obtain ⟨setX, setY⟩ := scans_accepted cal past down accepted
        exact ⟨setX.trans atX, setY.trans atY⟩
      | rejected down rejected before =>
        obtain ⟨sameX, sameY⟩ := scans_rejected cal past down rejected
        exact ⟨sameX.trans (ih.mpr before).1, sameY.trans (ih.mpr before).2⟩
      | ended up going before =>
        obtain ⟨sameX, sameY⟩ := scans_ended cal up going
        exact ⟨sameX.trans (ih.mpr before).1, sameY.trans (ih.mpr before).2⟩

/-- **The condition of a clean beginning on the inputs alone.** -/
theorem beginsClean_iff_inputs (cal : Calibration) (i : ScanInput) (past : List ScanInput) :
    BeginsClean cal i past ↔ (i.down = true → currentPress past = [] → tpReadXY2 i.reading ≠ none ∨ ResetLast cal past) := by
  unfold BeginsClean
  rw [sentinel_iff_resetLast]

end Inputs

/-- A reading whose two rounds are constant. -/
def steadyReading (x1 y1 x2 y2 : Fin 4096) : Reading := ⟨fun _ => x1, fun _ => y1, fun _ => x2, fun _ => y2⟩

/-- A press at (1000, 2000), one scan with the pen up, and a press whose first reading is not
accepted: the scan reports the earlier press. -/
theorem second_press_reports_first :
    let cal : Calibration := ⟨id, id⟩
    let past := [⟨true, steadyReading 100 100 200 200⟩, ⟨false, steadyReading 0 0 0 0⟩, ⟨true, steadyReading 1000 2000 1000 2000⟩]
    scans cal past = ⟨1000, 2000, 1000, 2000, 0xC0⟩ ∧ currentPress past = past.take 1 ∧
      tpReadXY2 (steadyReading 100 100 200 200) = none ∧ ¬ NoGhost cal past := by
  intro cal past
  have state : scans cal past = ⟨1000, 2000, 1000, 2000, 0xC0⟩ := by decide
  have rejected : tpReadXY2 (steadyReading 100 100 200 200) = none := by decide
  refine ⟨state, rfl, rejected, fun clean => ?_⟩
  have pressed : (scans cal past).Pressed := by
    rw [state]
    decide
  rcases clean pressed with reset | ⟨i, here, x, y, accepted, -⟩
  · rw [state] at reset
    exact absurd reset.1 (by decide)
  · change i ∈ [(⟨true, steadyReading 100 100 200 200⟩ : ScanInput)] at here
    rw [List.mem_singleton.mp here, rejected] at accepted
    contradiction

end DoorSecurity
