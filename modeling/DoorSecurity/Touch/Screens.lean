import DoorSecurity.Password.Editor
import DoorSecurity.Threads.Control
import DoorSecurity.Touch.Scan

/-!
# The screens of `touch_thread`, scan by scan

The main screen, the keypad (`Get_Touch_KeyValue`) and the two loops of a card session
share `tp_dev`. Each step is one scan and what the code does up to the next one. The
keypad and the prompt of a card session wait for the release before they act on a press;
the main screen and the loop after a card act at once.
-/

namespace DoorSecurity
set_option autoImplicit false

section Buttons

/-- `lcddev`. -/
structure LcdDev where
  width : UInt16
  height : UInt16

/-- Down, and within the display. -/
def TpDev.Touched (lcd : LcdDev) (tp : TpDev) : Prop := tp.Pressed ∧ tp.x0 < lcd.width ∧ tp.y0 < lcd.height

instance (lcd : LcdDev) (tp : TpDev) : Decidable (tp.Touched lcd) := inferInstanceAs (Decidable (_ ∧ _))

/-- The area of a button, without its edges. -/
def TpDev.inside (tp : TpDev) (x1 x2 y1 y2 : UInt16) : Bool := (tp.x0 > x1 && tp.x0 < x2) && (tp.y0 > y1 && tp.y0 < y2)

def TpDev.register (tp : TpDev) : Bool := tp.inside 3 118 275 314
def TpDev.delete (tp : TpDev) : Bool := tp.inside 126 234 275 314
def TpDev.setPsw (tp : TpDev) : Bool := tp.inside 3 233 53 268
def TpDev.back (tp : TpDev) : Bool := tp.inside 3 118 275 314
def TpDev.new (tp : TpDev) : Bool := tp.inside 126 234 275 314

def TpDev.one (tp : TpDev) : Bool := tp.inside 0 77 162 199
def TpDev.two (tp : TpDev) : Bool := tp.inside 78 166 162 199
def TpDev.three (tp : TpDev) : Bool := tp.inside 167 239 162 199
def TpDev.four (tp : TpDev) : Bool := tp.inside 0 77 201 236
def TpDev.five (tp : TpDev) : Bool := tp.inside 78 166 201 236
def TpDev.six (tp : TpDev) : Bool := tp.inside 167 239 201 236
def TpDev.seven (tp : TpDev) : Bool := tp.inside 0 77 238 279
def TpDev.eight (tp : TpDev) : Bool := tp.inside 78 166 238 279
def TpDev.nine (tp : TpDev) : Bool := tp.inside 167 239 238 279
def TpDev.db (tp : TpDev) : Bool := tp.inside 0 77 282 320
def TpDev.zero (tp : TpDev) : Bool := tp.inside 78 166 282 320
def TpDev.ok (tp : TpDev) : Bool := tp.inside 167 239 282 320

/-- The menu that the main screen finds under the pen. -/
def TpDev.menu (tp : TpDev) : Option Menu :=
  if tp.register then some .register
  else if tp.delete then some .delete
  else if tp.setPsw then some .setPsw
  else none

/-- The key that `Get_Touch_KeyValue` returns, none for `'a'`. -/
def TpDev.keyValue (tp : TpDev) : Option UInt8 :=
  if tp.one then some 1
  else if tp.two then some 2
  else if tp.three then some 3
  else if tp.four then some 4
  else if tp.five then some 5
  else if tp.six then some 6
  else if tp.seven then some 7
  else if tp.eight then some 8
  else if tp.nine then some 9
  else if tp.db then some 67
  else if tp.zero then some 0
  else if tp.ok then some 69
  else none

end Buttons

/-- Who called `Get_User_Input_psw`. -/
inductive Asker where
  /-- `Match_psw`, from this menu. -/
  | matchPsw (menu : Menu)
  /-- `password_setting`, from the third menu. -/
  | passwordSetting
  /-- `password_setting`, from `psw_check` before the threads start. -/
  | pswCheck

/-- Where the next scan is made. -/
inductive Screen where
  /-- At the head of the loop of `touch_thread`. -/
  | main
  /-- After the label `loop`, until the pen is up. -/
  | untouch
  /-- At the head of `Get_Touch_KeyValue`, with the entry so far. -/
  | keypad (asker : Asker) (entry : Keypad)
  /-- In its loop until the pen is up. -/
  | keyRelease (asker : Asker) (entry : Keypad)
  /-- At the prompt for a card. -/
  | poll (k : Session)
  | pollRelease (k : Session)
  /-- After a card. -/
  | choose (k : Session)
  | chooseRelease (k : Session)

/-- What the code does about a press. -/
inductive ScreenCommand where
  | menu (menu : Menu)
  | key (tem : UInt8)
  | back
  | new
  deriving DecidableEq, Repr

/-- The label `loop`: `while(tp_dev.sta&TP_PRES_DOWN)`. -/
def atLoop (tp : TpDev) : Screen := if tp.Pressed then .untouch else .main

/-- After `Get_User_Input_psw` has returned `r`. -/
inductive AfterEntry (tp : TpDev) : Asker → UInt8 → Screen → Prop
  | cancelled {menu : Menu} {r : UInt8} (no : r ≠ 1) : AfterEntry tp (.matchPsw menu) r (atLoop tp)
  | wrong {menu : Menu} : AfterEntry tp (.matchPsw menu) 1 (atLoop tp)
  | card {k : Session} : AfterEntry tp (.matchPsw k.menu) 1 (.poll k)
  | setting (psw : CharBuffer) : AfterEntry tp (.matchPsw .setPsw) 1 (.keypad .passwordSetting (.start psw))
  | set {r : UInt8} : AfterEntry tp .passwordSetting r (atLoop tp)
  | checked {r : UInt8} : AfterEntry tp .pswCheck r .main

/-- After `Read_ID`: the label `loop` of the session on an error, the choice after a card. -/
inductive AfterRead (k : Session) : Screen → Prop
  | error : AfterRead k (.poll k)
  | ok : AfterRead k (.choose k)

/-- One scan, which leaves `tp`, and the command that follows on it. -/
inductive ScreenStep (lcd : LcdDev) : Screen → TpDev → Option ScreenCommand → Screen → Prop
  | idle {tp : TpDev} (off : ¬ tp.Touched lcd) : ScreenStep lcd .main tp none .main
  | elsewhere {tp : TpDev} (on : tp.Touched lcd) (off : tp.menu = none) : ScreenStep lcd .main tp none (atLoop tp)
  /-- The lock flag is clear, or the semaphore was not taken. -/
  | refused {tp : TpDev} {menu : Menu} (on : tp.Touched lcd) (under : tp.menu = some menu) :
      ScreenStep lcd .main tp (some (.menu menu)) (atLoop tp)
  | asked {tp : TpDev} {menu : Menu} (on : tp.Touched lcd) (under : tp.menu = some menu) (psw : CharBuffer) :
      ScreenStep lcd .main tp (some (.menu menu)) (.keypad (.matchPsw menu) (.start psw))
  | untouch {tp : TpDev} : ScreenStep lcd .untouch tp none (atLoop tp)
  | noKey {tp : TpDev} {asker : Asker} {entry : Keypad} (off : ¬ tp.Touched lcd) :
      ScreenStep lcd (.keypad asker entry) tp none (.keypad asker entry)
  | keyDown {tp : TpDev} {asker : Asker} {entry : Keypad} (on : tp.Touched lcd) :
      ScreenStep lcd (.keypad asker entry) tp none (.keyRelease asker entry)
  | keyHeld {tp : TpDev} {asker : Asker} {entry : Keypad} (down : tp.Pressed) :
      ScreenStep lcd (.keyRelease asker entry) tp none (.keyRelease asker entry)
  | keyMissed {tp : TpDev} {asker : Asker} {entry : Keypad} (up : ¬ tp.Pressed) (off : tp.keyValue = none) :
      ScreenStep lcd (.keyRelease asker entry) tp none (.keypad asker entry)
  | key {tp : TpDev} {asker : Asker} {entry : Keypad} {tem : UInt8} (up : ¬ tp.Pressed) (under : tp.keyValue = some tem)
      (more : (entry.next tem).returned = none) :
      ScreenStep lcd (.keyRelease asker entry) tp (some (.key tem)) (.keypad asker (entry.next tem))
  | entered {tp : TpDev} {asker : Asker} {entry : Keypad} {tem r : UInt8} {next : Screen} (up : ¬ tp.Pressed)
      (under : tp.keyValue = some tem) (done : (entry.next tem).returned = some r) (after : AfterEntry tp asker r next) :
      ScreenStep lcd (.keyRelease asker entry) tp (some (.key tem)) next
  | read {tp : TpDev} {k : Session} {next : Screen} (off : ¬ tp.Touched lcd) (after : AfterRead k next) :
      ScreenStep lcd (.poll k) tp none next
  | pollDown {tp : TpDev} {k : Session} (on : tp.Touched lcd) : ScreenStep lcd (.poll k) tp none (.pollRelease k)
  | pollHeld {tp : TpDev} {k : Session} (down : tp.Pressed) : ScreenStep lcd (.pollRelease k) tp none (.pollRelease k)
  | pollBack {tp : TpDev} {k : Session} (up : ¬ tp.Pressed) (back : tp.back = true) :
      ScreenStep lcd (.pollRelease k) tp (some .back) (atLoop tp)
  | pollNew {tp : TpDev} {k : Session} (up : ¬ tp.Pressed) (notBack : tp.back = false) (new : tp.new = true) :
      ScreenStep lcd (.pollRelease k) tp (some .new) (.poll k)
  | pollMissed {tp : TpDev} {k : Session} {next : Screen} (up : ¬ tp.Pressed) (notBack : tp.back = false) (notNew : tp.new = false)
      (after : AfterRead k next) : ScreenStep lcd (.pollRelease k) tp none next
  | choosing {tp : TpDev} {k : Session} (off : ¬ tp.Touched lcd) : ScreenStep lcd (.choose k) tp none (.choose k)
  | chooseBack {tp : TpDev} {k : Session} (on : tp.Touched lcd) (back : tp.back = true) :
      ScreenStep lcd (.choose k) tp (some .back) (atLoop tp)
  | chooseNew {tp : TpDev} {k : Session} (on : tp.Touched lcd) (notBack : tp.back = false) (new : tp.new = true) :
      ScreenStep lcd (.choose k) tp (some .new) (.poll k)
  | chooseMissed {tp : TpDev} {k : Session} (on : tp.Touched lcd) (notBack : tp.back = false) (notNew : tp.new = false) :
      ScreenStep lcd (.choose k) tp none (.chooseRelease k)
  | chooseHeld {tp : TpDev} {k : Session} (down : tp.Pressed) : ScreenStep lcd (.chooseRelease k) tp none (.chooseRelease k)
  | chosen {tp : TpDev} {k : Session} (up : ¬ tp.Pressed) : ScreenStep lcd (.chooseRelease k) tp none (.choose k)

section Control

/-- Where `touch_thread` stands while a password is entered. Before `psw_check` has returned it
has not begun. -/
def Asker.pc : Asker → TouchPc
  | .matchPsw menu => .matchPsw menu
  | .passwordSetting => .passwordSetting
  | .pswCheck => .scan

def Screen.pc : Screen → TouchPc
  | .main => .scan
  | .untouch => .untouch
  | .keypad asker _ | .keyRelease asker _ => asker.pc
  | .poll k => .card k .poll
  | .pollRelease k => .card k .pressed
  | .choose k | .chooseRelease k => .card k .choose

/-- Moves of the graph, whatever their labels. -/
def TouchPath : TouchPc → TouchPc → Prop := Relation.ReflTransGen fun p q => ∃ l, TouchStep p l q

variable {tp : TpDev} {k : Session}

theorem TouchStep.path {p q r : TouchPc} {l : Label} (step : TouchStep p l q) (path : TouchPath q r) : TouchPath p r :=
  .head ⟨l, step⟩ path

theorem touchPath_atLoop (tp : TpDev) : TouchPath .untouch (atLoop tp).pc := by
  unfold atLoop
  split
  · exact .refl
  · apply TouchStep.untouched.path
    exact TouchStep.delay.path .refl

/-- From the end of a menu. -/
theorem touchPath_leave (tp : TpDev) (menu : Menu) : TouchPath (.mainWindow menu) (atLoop tp).pc := by
  apply TouchStep.mainWindow.path
  exact TouchStep.release.path (touchPath_atLoop tp)

theorem touchPath_back (tp : TpDev) (k : Session) : TouchPath (.card k .mainWindow) (atLoop tp).pc := by
  apply (TouchStep.cardDone .mainWindow).path
  exact touchPath_leave tp k.menu

theorem touchPath_prompt (k : Session) : TouchPath (.card k .prompt) (.card k .poll) := (TouchStep.card .prompt).path .refl

/-- From a card that was read to the choice. -/
theorem touchPath_beep (k : Session) : TouchPath (.card k .beep) (.card k .choose) := by
  cases k with
  | registerNewTag =>
    apply (TouchStep.card .beepRegister).path
    exact (TouchStep.card (.alreadyRegistered fun _ => 0)).path .refl
  | deleteRegisteredTag =>
    apply (TouchStep.card .beepDelete).path
    exact (TouchStep.card (.deleteTag fun _ => 0)).path .refl

theorem AfterRead.path {next : Screen} (after : AfterRead k next) : TouchPath (.card k (.readId .request)) next.pc := by
  cases after with
  | error =>
    apply (TouchStep.card (.readId .retry)).path
    apply (TouchStep.card (.readError .noTag)).path
    exact touchPath_prompt k
  | ok =>
    apply (TouchStep.card (.readId (.found (0, 0)))).path
    apply (TouchStep.card (.readOk (.read fun _ => 0))).path
    exact touchPath_beep k

theorem AfterEntry.path {asker : Asker} {r : UInt8} {next : Screen} (after : AfterEntry tp asker r next) : TouchPath asker.pc next.pc := by
  cases after with
  | @cancelled menu _ no =>
    have other : (0 : UInt8) ≠ 1 ∧ (0 : UInt8) ≠ 2 := by decide
    apply (TouchStep.cancelled other.1 other.2).path
    exact touchPath_leave tp menu
  | @wrong menu =>
    apply TouchStep.wrong.path
    apply TouchStep.wrongEntry.path
    apply TouchStep.withinLimit.path
    apply TouchStep.wrongShown.path
    exact touchPath_leave tp menu
  | @card k =>
    apply TouchStep.right.path
    apply TouchStep.verified.path
    have window : k.menu.verifiedAction = .card k .window := by cases k <;> rfl
    rw [window]
    exact (TouchStep.card .window).path (touchPath_prompt k)
  | setting =>
    apply TouchStep.right.path
    exact TouchStep.verified.path .refl
  | set =>
    apply TouchStep.passwordSet.path
    apply TouchStep.settingShown.path
    exact touchPath_leave tp .setPsw
  | checked => exact .refl

/-- **Each scan follows the graph of `touch_thread`.** -/
theorem ScreenStep.path {lcd : LcdDev} {screen next : Screen} {command : Option ScreenCommand} (step : ScreenStep lcd screen tp command next) :
    TouchPath screen.pc next.pc := by
  cases step with
  | idle off =>
    apply TouchStep.notPressed.path
    exact TouchStep.delay.path .refl
  | elsewhere on off => exact TouchStep.pressedOther.path (touchPath_atLoop tp)
  | @refused _ menu on under =>
    apply (TouchStep.pressed menu).path
    apply TouchStep.beep.path
    exact TouchStep.takeFailed.path (touchPath_atLoop tp)
  | @asked _ menu on under psw =>
    apply (TouchStep.pressed menu).path
    apply TouchStep.beep.path
    apply TouchStep.take.path
    exact TouchStep.unlocked.path .refl
  | untouch => exact touchPath_atLoop tp
  | noKey | keyDown | keyHeld | keyMissed | key => exact .refl
  | entered up under done after => exact after.path
  | read off after => exact (TouchStep.card .pollIdle).path after.path
  | pollDown on => exact (TouchStep.card .pollPressed).path .refl
  | pollHeld down => exact (TouchStep.card .stillPressed).path .refl
  | pollBack up back => exact (TouchStep.card .pressedBack).path (touchPath_back tp _)
  | pollNew up notBack new => exact (TouchStep.card .pressedNew).path (touchPath_prompt _)
  | pollMissed up notBack notNew after => exact (TouchStep.card .pressedOther).path after.path
  | choosing | chooseMissed | chooseHeld | chosen => exact (TouchStep.card .choosing).path .refl
  | chooseBack on back => exact (TouchStep.card .chooseBack).path (touchPath_back tp _)
  | chooseNew on notBack new => exact (TouchStep.card .chooseNew).path (touchPath_prompt _)

end Control

end DoorSecurity
