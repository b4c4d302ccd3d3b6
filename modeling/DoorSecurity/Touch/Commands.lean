import DoorSecurity.Lts.Runs
import DoorSecurity.Touch.Presses
import DoorSecurity.Touch.Screens

/-!
# One press, one command

A press is the scans from pen down to pen up, as the code observes them. A menu and New
after a card open another screen while the pen is still down. When that screen's first
scan finds the pen up no press is acted on twice; when it finds it on the display, the
press is acted on again as soon as it is released on a button.
-/

namespace DoorSecurity
set_option autoImplicit false
open Lts

structure ScreenEvent where
  /-- `tp_dev` after the scan. -/
  tp : TpDev
  command : Option ScreenCommand

/-- Where the code scans next, and `tp_dev` after the last scan. -/
structure ScreenState where
  screen : Screen
  tp : TpDev

/-- At the first scan: the main screen, or the keypad of `psw_check` while no password is set. -/
def ScreenState.start (unset : Option CharBuffer) : ScreenState where
  screen := match unset with
    | none => .main
    | some psw => .keypad .pswCheck (.start psw)
  tp := .init

inductive ScanStep (lcd : LcdDev) : ScreenState → ScreenEvent → ScreenState → Prop
  | scan {s : ScreenState} {tp : TpDev} {command : Option ScreenCommand} {next : Screen} (step : ScreenStep lcd s.screen tp command next) :
      ScanStep lcd s ⟨tp, command⟩ ⟨next, tp⟩

/-- The pen was down on the last scan. -/
def penDown : List ScreenEvent → Bool
  | [] => false
  | e :: _ => decide e.tp.Pressed

/-- How often the press of the last scan has been acted on. The scan that finds the pen up again
still belongs to it. -/
def commands : List ScreenEvent → Nat
  | [] => 0
  | e :: es => (if penDown es then commands es else 0) + e.command.toList.length

/-- The same for a press that goes on. -/
def carried (es : List ScreenEvent) : Nat := if penDown es then commands es else 0

/-- The screens that another one opens at the press of a button. -/
def Screen.opened : Screen → Bool
  | .keypad .. | .poll _ => true
  | _ => false

/-- The press that opened the screen goes on. In these screens themselves a press on the display
leads to a loop that waits for its end. -/
def ScreenState.Held (lcd : LcdDev) (s : ScreenState) : Prop := s.screen.opened = true ∧ s.tp.Touched lcd

/-- The first scan of a screen that a press has opened finds the pen up. -/
def ReleasedFirst (lcd : LcdDev) (s : ScreenState) (e : ScreenEvent) : Prop := s.Held lcd → ¬ e.tp.Pressed

def ReleasedStep (lcd : LcdDev) (s : ScreenState) (e : ScreenEvent) (s' : ScreenState) : Prop := ReleasedFirst lcd s e ∧ ScanStep lcd s e s'

section OncePerPress

variable {lcd : LcdDev} {s s' : ScreenState} {e : ScreenEvent} {es : List ScreenEvent} {tp : TpDev} {c : ScreenCommand}

theorem atLoop_pressed (down : tp.Pressed) : atLoop tp = .untouch := if_pos down

/-- A command leaves the pen up, or waits for that, or opens a screen under the pen. -/
theorem ScreenStep.command {screen next : Screen} (step : ScreenStep lcd screen tp (some c) next) :
    screen.opened = false ∧ screen ≠ .untouch ∧ (tp.Pressed → next = .untouch ∨ (next.opened = true ∧ tp.Touched lcd)) := by
  cases step with
  | refused on under | chooseBack on back => exact ⟨rfl, nofun, fun down => .inl (atLoop_pressed down)⟩
  | asked on under psw => exact ⟨rfl, nofun, fun _ => .inr ⟨rfl, on⟩⟩
  | chooseNew on notBack new => exact ⟨rfl, nofun, fun _ => .inr ⟨rfl, on⟩⟩
  | key up | entered up | pollBack up | pollNew up => exact ⟨rfl, nofun, fun down => absurd down up⟩

theorem ScreenStep.untouch_next {next : Screen} {command : Option ScreenCommand} (step : ScreenStep lcd .untouch tp command next) :
    next = atLoop tp := by
  cases step
  rfl

theorem carried_le (es : List ScreenEvent) : carried es ≤ commands es := by
  unfold carried
  split
  · exact Nat.le_refl _
  · exact Nat.zero_le _

theorem carried_down (down : e.tp.Pressed) : carried (e :: es) = commands (e :: es) := if_pos (decide_eq_true down)

theorem carried_up (up : ¬ e.tp.Pressed) : carried (e :: es) = 0 := if_neg (by simpa [penDown] using up)

theorem commands_none : commands (⟨tp, none⟩ :: es) = carried es := rfl

theorem commands_some : commands (⟨tp, some c⟩ :: es) = carried es + 1 := rfl

/-- The pen is up again, or the press goes on with all its commands. -/
theorem carried_cases (e : ScreenEvent) (es : List ScreenEvent) :
    carried (e :: es) = 0 ∨ (e.tp.Pressed ∧ carried (e :: es) = commands (e :: es)) := by
  by_cases down : e.tp.Pressed
  · exact .inr ⟨down, carried_down down⟩
  · exact .inl (carried_up down)

/-- A press that goes on has not been acted on, except where its end is waited for or the screen has
just been opened. -/
structure OnceSound (lcd : LcdDev) (es : List ScreenEvent) (s : ScreenState) : Prop where
  once : commands es ≤ 1
  fresh : carried es = 0 ∨ s.Held lcd ∨ s.screen = .untouch

/-- **One scan.** -/
theorem OnceSound.step (sound : OnceSound lcd es s) (step : ReleasedStep lcd s e s') : OnceSound lcd (e :: es) s' := by
  obtain ⟨released, step⟩ := step
  cases step with
  | @scan tp command next step =>
    cases command with
    | none =>
      refine ⟨(carried_le es).trans sound.once, ?_⟩
      rcases carried_cases ⟨tp, none⟩ es with up | ⟨down, same⟩
      · exact .inl up
      · rcases sound.fresh with unused | held | waiting
        · exact .inl (same.trans unused)
        · exact absurd down (released held)
        · rw [waiting] at step
          exact .inr (.inr (step.untouch_next.trans (atLoop_pressed down)))
    | some c =>
      obtain ⟨notOpened, notWaiting, after⟩ := step.command
      have unused : carried es = 0 := by
        rcases sound.fresh with unused | held | waiting
        · exact unused
        · exact absurd (notOpened.symm.trans held.1) (by decide)
        · exact absurd waiting notWaiting
      constructor
      · rw [commands_some, unused]
      · rcases carried_cases ⟨tp, some c⟩ es with up | ⟨down, -⟩
        · exact .inl up
        · exact .inr (after down).symm

/-- A screen is opened under the pen by a command only. -/
theorem ScreenStep.opened_command {screen next : Screen} {command : Option ScreenCommand} (step : ScreenStep lcd screen tp command next)
    (opened : next.opened = true) (touched : tp.Touched lcd) : command ≠ none := by
  cases step with
  | asked | chooseNew | key | entered | pollBack | pollNew | refused | chooseBack => exact Option.some_ne_none _
  | elsewhere on off | untouch =>
    rw [atLoop_pressed touched.1] at opened
    contradiction
  | noKey off | read off after => exact absurd touched off
  | keyMissed up off | pollMissed up notBack notNew after => exact absurd touched.1 up
  | _ => contradiction

theorem carried_of_held {unset : Option CharBuffer} (run : Runs (ScanStep lcd) (.start unset) es s) (held : s.Held lcd) : 0 < carried es := by
  cases run with
  | nil => exact absurd held.2.1 (show ¬ TpDev.init.Pressed by decide)
  | snoc before last =>
    cases last with
    | @scan tp command next step =>
      rw [carried_down held.2.1]
      cases command with
      | none => exact absurd rfl (step.opened_command held.1 held.2)
      | some c => exact Nat.succ_pos _

theorem exists_afterEntry (tp : TpDev) (asker : Asker) (r : UInt8) : ∃ next, AfterEntry tp asker r next := by
  cases asker with
  | matchPsw menu =>
    rcases eq_or_ne r 1 with rfl | no
    · exact ⟨_, .wrong⟩
    · exact ⟨_, .cancelled no⟩
  | passwordSetting => exact ⟨_, .set⟩
  | pswCheck => exact ⟨_, .checked⟩

/-- A release over a key is that key. -/
theorem exists_key (lcd : LcdDev) {tem : UInt8} (up : ¬ tp.Pressed) (under : tp.keyValue = some tem) (asker : Asker) (entry : Keypad) :
    ∃ next, ScreenStep lcd (.keyRelease asker entry) tp (some (.key tem)) next := by
  cases done : (entry.next tem).returned with
  | none => exact ⟨_, .key up under done⟩
  | some r =>
    obtain ⟨next, after⟩ := exists_afterEntry tp asker r
    exact ⟨next, .entered up under done after⟩

/-- The pen has slid to other coordinates. -/
def TpDev.slid (tp : TpDev) (x y : UInt16) : TpDev := { tp with x0 := x, y0 := y }

theorem TpDev.slid_pressed (down : tp.Pressed) (x y : UInt16) : (tp.slid x y).Pressed := down

/-- On an opened screen a press slides to a button, and its release there is a second command. -/
theorem exists_release (held : s.Held lcd) :
    ∃ waiting x y c next, ScreenStep lcd s.screen s.tp none waiting ∧ ScreenStep lcd waiting (s.tp.slid x y) none waiting ∧
      ScreenStep lcd waiting (s.tp.slid x y).release (some c) next := by
  obtain ⟨opened, touched⟩ := held
  cases h : s.screen with
  | keypad asker entry =>
    have down := TpDev.slid_pressed touched.1 100 300
    have zero : (s.tp.slid 100 300).release.keyValue = some 0 := by rw [TpDev.release_pressed down]; rfl
    obtain ⟨next, key⟩ := exists_key lcd (TpDev.release_not_pressed _) zero asker entry
    exact ⟨_, 100, 300, _, next, .keyDown touched, .keyHeld down, key⟩
  | poll k =>
    have down := TpDev.slid_pressed touched.1 150 300
    have notBack : (s.tp.slid 150 300).release.back = false := by rw [TpDev.release_pressed down]; rfl
    have new : (s.tp.slid 150 300).release.new = true := by rw [TpDev.release_pressed down]; rfl
    exact ⟨_, 150, 300, _, _, .pollDown touched, .pollHeld down, .pollNew (TpDev.release_not_pressed _) notBack new⟩
  | _ =>
    rw [h] at opened
    contradiction

/-- **Where the next scan may find the same press, it may be acted on again**: the pen stays where it
is for one more scan of the opened screen, slides to a button and is released there. -/
theorem held_press_acts_again {unset : Option CharBuffer} (run : Runs (ScanStep lcd) (.start unset) es s) (held : s.Held lcd) :
    ∃ x y c s', let later := ⟨(s.tp.slid x y).release, some c⟩ :: ⟨s.tp.slid x y, none⟩ :: ⟨s.tp, none⟩ :: es
      Runs (ScanStep lcd) (.start unset) later s' ∧ 1 < commands later := by
  have before := carried_of_held run held
  obtain ⟨waiting, x, y, c, next, stays, slides, acts⟩ := exists_release held
  refine ⟨x, y, c, ⟨next, _⟩, ((run.snoc (.scan stays)).snoc (.scan slides)).snoc (.scan acts), ?_⟩
  have down := TpDev.slid_pressed held.2.1 x y
  rw [commands_some, carried_down down, commands_none, carried_down held.2.1, commands_none]
  omega

end OncePerPress

/-- **One press, one command**, in every run in which the first scan of a screen that a press has
opened finds the pen up. -/
theorem one_press_one_command (lcd : LcdDev) (unset : Option CharBuffer) {es : List ScreenEvent} {s : ScreenState}
    (run : Runs (ReleasedStep lcd) (.start unset) es s) : commands es ≤ 1 := by
  have sound : OnceSound lcd es s := run.invariant ⟨Nat.zero_le _, .inl rfl⟩ fun sound step => sound.step step
  exact sound.once

/-- Register, released before the keypad looks, and then the key 0. -/
theorem one_press_one_command_register : ∃ es s, Runs (ReleasedStep ⟨240, 320⟩) (.start none) es s ∧ es.length = 4 ∧ commands es ≤ 1 := by
  have down : (⟨100, 290, 100, 290, 0xC0⟩ : TpDev).Touched ⟨240, 320⟩ := by decide
  have up : ¬ (⟨100, 290, 100, 290, 0x40⟩ : TpDev).Pressed := by decide
  have menu : (⟨100, 290, 100, 290, 0xC0⟩ : TpDev).menu = some .register := by decide
  have zero : (⟨100, 290, 100, 290, 0x40⟩ : TpDev).keyValue = some 0 := by decide
  have initially : Runs (ReleasedStep ⟨240, 320⟩) (.start none) [] (.start none) := .nil
  have asked := initially.snoc ⟨fun held => absurd held.1 (by decide), .scan (.asked down menu fun _ => 0)⟩
  have released := asked.snoc ⟨fun _ => up, .scan (.noKey fun touched => up touched.1)⟩
  have again := released.snoc ⟨fun held => absurd held.2.1 up, .scan (.keyDown down)⟩
  have typed := again.snoc ⟨fun held => absurd held.1 (by decide), .scan (.key up zero (by decide))⟩
  exact ⟨_, _, typed, rfl, one_press_one_command ⟨240, 320⟩ none typed⟩

/-- **The menu press types a digit.** Register, held until the keypad has been drawn, and released
where the keypad has its 0. -/
theorem held_register_types_zero :
    let cal : Calibration := ⟨id, id⟩
    let on : ScanInput := ⟨true, steadyReading 100 290 100 290⟩
    let off : ScanInput := ⟨false, steadyReading 0 0 0 0⟩
    let es : List ScreenEvent := [⟨scans cal [off, on, on], some (.key 0)⟩, ⟨scans cal [on, on], none⟩, ⟨scans cal [on], some (.menu .register)⟩]
    (∃ s, Runs (ScanStep ⟨240, 320⟩) (.start none) es s) ∧ commands es = 2 := by
  intro cal on off es
  have first : scans cal [on] = ⟨100, 290, 100, 290, 0xC0⟩ := by decide
  have second : scans cal [on, on] = ⟨100, 290, 100, 290, 0xC0⟩ := by decide
  have third : scans cal [off, on, on] = ⟨100, 290, 100, 290, 0x40⟩ := by decide
  have down : (⟨100, 290, 100, 290, 0xC0⟩ : TpDev).Touched ⟨240, 320⟩ := by decide
  have up : ¬ (⟨100, 290, 100, 290, 0x40⟩ : TpDev).Pressed := by decide
  have menu : (⟨100, 290, 100, 290, 0xC0⟩ : TpDev).menu = some .register := by decide
  have zero : (⟨100, 290, 100, 290, 0x40⟩ : TpDev).keyValue = some 0 := by decide
  have events : es = [⟨⟨100, 290, 100, 290, 0x40⟩, some (.key 0)⟩, ⟨⟨100, 290, 100, 290, 0xC0⟩, none⟩,
      ⟨⟨100, 290, 100, 290, 0xC0⟩, some (.menu .register)⟩] := by
    simp only [es, first, second, third]
  rw [events]
  have initially : Runs (ScanStep ⟨240, 320⟩) (.start none) [] (.start none) := .nil
  have asked := initially.snoc (.scan (.asked down menu fun _ => 0))
  exact ⟨⟨_, (asked.snoc (.scan (.keyDown down))).snoc (.scan (.key up zero (by decide)))⟩, by decide⟩

end DoorSecurity
