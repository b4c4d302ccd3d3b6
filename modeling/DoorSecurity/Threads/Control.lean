import DoorSecurity.Eeprom.Slots
import DoorSecurity.Lts.Threads

/-!
# The threads of `user/main.c`

The control graphs of `match_thread`, `touch_thread` with the two card sessions of
`bsp/rc522_function.c`, and `door_open_thread`. An edge is a statement with its
outcome; its label says what the statement does to what the threads share. Sounds,
the display, waiting and polls of the touch screen are `tau`, and a test of touch
input may go either way.
-/

namespace DoorSecurity
set_option autoImplicit false
open Eeprom Lts

/-- The three actions that `touch_thread` guards with the password. -/
inductive Menu where
  | register | delete | setPsw
  deriving DecidableEq, Repr

inductive Sem where
  | matchThreadLock | doorOpenThreadLock | errPsdThreadLock | errRegThreadLock | errDelThreadLock
  deriving DecidableEq, Repr

/-- The countdown thread's semaphore that the lockout branch releases. -/
def Menu.errThreadLock : Menu → Sem
  | .register => .errRegThreadLock
  | .delete => .errDelThreadLock
  | .setPsw => .errPsdThreadLock

inductive Label where
  | tau
  | take (sem : Sem)
  /-- `rt_sem_take` came back with an error. -/
  | takeFailed (sem : Sem)
  | release (sem : Sem)
  /-- `PcdRequest`, and the two bytes it stores at `ucArray_ID` on `MI_OK`. -/
  | pcdRequest (tagType : Option (UInt8 × UInt8))
  /-- `PcdAnticoll`: the four bytes it stores at `ucArray_ID` if the card answered, and
  whether it returns `MI_OK`. -/
  | pcdAnticoll (serial : Option TagId) (ok : Bool)
  | tagMatch (tagId : TagId) (r : UInt8)
  | registTag (tagId : TagId)
  | deleteRegisteredTag (tagId : TagId)
  /-- The test of `register_lock`, `delete_lock` or `psd_lock`. -/
  | testLock (menu : Menu) (unlocked : Bool)
  | matchPsw (menu : Menu) (r : UInt8)
  | clearErrCnt (menu : Menu)
  | incErrCnt (menu : Menu)
  /-- The test `err_cnt > 2`. -/
  | testErrCnt (menu : Menu) (exceeded : Bool)
  | clearLock (menu : Menu)
  | timerStart (menu : Menu)
  | passwordSetting (r : UInt8)
  deriving DecidableEq

section ReadId

inductive ReadPc where
  | request | requestAgain | anticoll
  deriving DecidableEq, Repr

/-- `Read_ID`: the next point, or the card's ID on `MI_OK` and none on an error. -/
inductive ReadStep : ReadPc → Label → ReadPc ⊕ Option TagId → Prop
  | found (tagType) : ReadStep .request (.pcdRequest (some tagType)) (.inl .anticoll)
  | retry : ReadStep .request (.pcdRequest none) (.inl .requestAgain)
  | foundAgain (tagType) : ReadStep .requestAgain (.pcdRequest (some tagType)) (.inl .anticoll)
  | noTag : ReadStep .requestAgain (.pcdRequest none) (.inr none)
  | read (serial) : ReadStep .anticoll (.pcdAnticoll (some serial) true) (.inr (some serial))
  | failed (serial) : ReadStep .anticoll (.pcdAnticoll serial false) (.inr none)

end ReadId

section MatchThread

inductive MatchPc where
  | take
  | readId (p : ReadPc)
  /-- `Read_ID` returned `MI_OK` with this ID in `ucArray_ID`. -/
  | tagMatch (tagId : TagId)
  | releaseDoor (tagId : TagId)
  | welcome | beepError | release | delay
  deriving DecidableEq

/-- `match_thread`. -/
inductive MatchStep : MatchPc → Label → MatchPc → Prop
  | take : MatchStep .take (.take .matchThreadLock) (.readId .request)
  | takeFailed : MatchStep .take (.takeFailed .matchThreadLock) .take
  | readId {p l p'} : ReadStep p l (.inl p') → MatchStep (.readId p) l (.readId p')
  | readOk {p l tagId} : ReadStep p l (.inr (some tagId)) → MatchStep (.readId p) l (.tagMatch tagId)
  | readError {p l} : ReadStep p l (.inr none) → MatchStep (.readId p) l .release
  | matched (tagId read) : MatchStep (.tagMatch tagId) (.tagMatch read 1) (.releaseDoor tagId)
  | unmatched (tagId read) {r} : r ≠ 1 → MatchStep (.tagMatch tagId) (.tagMatch read r) .beepError
  | releaseDoor (tagId) : MatchStep (.releaseDoor tagId) (.release .doorOpenThreadLock) .welcome
  | welcome : MatchStep .welcome .tau .release
  | beepError : MatchStep .beepError .tau .release
  | release : MatchStep .release (.release .matchThreadLock) .delay
  | delay : MatchStep .delay .tau .take

end MatchThread

section TouchThread

/-- Which of the two card sessions runs. -/
inductive Session where
  | registerNewTag | deleteRegisteredTag
  deriving DecidableEq, Repr

inductive CardPc where
  | window
  /-- The label `loop`. -/
  | prompt
  | poll | pressed
  | readId (p : ReadPc)
  | beep
  | tagMatch | registTag | deleteTag
  /-- The inner loop that waits for Back or New. -/
  | choose
  /-- The label `loop2`. -/
  | mainWindow
  deriving DecidableEq, Repr

/-- `Register_New_Tag` and `Delete_registered_Tag`; `none` is the return. -/
inductive CardStep : Session → CardPc → Label → Option CardPc → Prop
  | window {k} : CardStep k .window .tau (some .prompt)
  | prompt {k} : CardStep k .prompt .tau (some .poll)
  | pollPressed {k} : CardStep k .poll .tau (some .pressed)
  | pollIdle {k} : CardStep k .poll .tau (some (.readId .request))
  | stillPressed {k} : CardStep k .pressed .tau (some .pressed)
  | pressedBack {k} : CardStep k .pressed .tau (some .mainWindow)
  | pressedNew {k} : CardStep k .pressed .tau (some .prompt)
  | pressedOther {k} : CardStep k .pressed .tau (some (.readId .request))
  | readId {k p l p'} : ReadStep p l (.inl p') → CardStep k (.readId p) l (some (.readId p'))
  | readOk {k p l tagId} : ReadStep p l (.inr (some tagId)) → CardStep k (.readId p) l (some .beep)
  | readError {k p l} : ReadStep p l (.inr none) → CardStep k (.readId p) l (some .prompt)
  | beepRegister : CardStep .registerNewTag .beep .tau (some .tagMatch)
  | beepDelete : CardStep .deleteRegisteredTag .beep .tau (some .deleteTag)
  | alreadyRegistered (read) : CardStep .registerNewTag .tagMatch (.tagMatch read 1) (some .choose)
  | notRegistered (read) {r} : r ≠ 1 → CardStep .registerNewTag .tagMatch (.tagMatch read r) (some .registTag)
  | registTag (read) : CardStep .registerNewTag .registTag (.registTag read) (some .choose)
  | deleteTag (read) : CardStep .deleteRegisteredTag .deleteTag (.deleteRegisteredTag read) (some .choose)
  | choosing {k} : CardStep k .choose .tau (some .choose)
  | chooseBack {k} : CardStep k .choose .tau (some .mainWindow)
  | chooseNew {k} : CardStep k .choose .tau (some .prompt)
  | mainWindow {k} : CardStep k .mainWindow .tau none

inductive TouchPc where
  | scan
  | beep (menu : Menu)
  | take (menu : Menu)
  | testLock (menu : Menu)
  | matchPsw (menu : Menu)
  /-- Case 1 of `Match_psw`. -/
  | verified (menu : Menu)
  | card (k : Session) (p : CardPc)
  | passwordSetting | settingShown
  /-- Case 2 of `Match_psw`. -/
  | wrongEntry (menu : Menu)
  | testErrCnt (menu : Menu)
  | clearErrCnt (menu : Menu)
  | clearLock (menu : Menu)
  | wakeCountdown (menu : Menu)
  | timerStart (menu : Menu)
  | wrongShown (menu : Menu)
  | downCount (menu : Menu)
  | mainWindow (menu : Menu)
  | release (menu : Menu)
  /-- The label `loop`. -/
  | untouch
  | delay
  deriving DecidableEq

/-- What case 1 of `Match_psw` goes on to. -/
def Menu.verifiedAction : Menu → TouchPc
  | .register => .card .registerNewTag .window
  | .delete => .card .deleteRegisteredTag .window
  | .setPsw => .passwordSetting

/-- Where a card session was called from. -/
def Session.menu : Session → Menu
  | .registerNewTag => .register
  | .deleteRegisteredTag => .delete

/-- `touch_thread`. -/
inductive TouchStep : TouchPc → Label → TouchPc → Prop
  | pressed (menu) : TouchStep .scan .tau (.beep menu)
  | pressedOther : TouchStep .scan .tau .untouch
  | notPressed : TouchStep .scan .tau .delay
  | beep {menu} : TouchStep (.beep menu) .tau (.take menu)
  | take {menu} : TouchStep (.take menu) (.take .matchThreadLock) (.testLock menu)
  | takeFailed {menu} : TouchStep (.take menu) (.takeFailed .matchThreadLock) .untouch
  | unlocked {menu} : TouchStep (.testLock menu) (.testLock menu true) (.matchPsw menu)
  | locked {menu} : TouchStep (.testLock menu) (.testLock menu false) (.downCount menu)
  | right {menu} : TouchStep (.matchPsw menu) (.matchPsw menu 1) (.verified menu)
  | wrong {menu} : TouchStep (.matchPsw menu) (.matchPsw menu 2) (.wrongEntry menu)
  | cancelled {menu r} : r ≠ 1 → r ≠ 2 → TouchStep (.matchPsw menu) (.matchPsw menu r) (.mainWindow menu)
  | verified {menu} : TouchStep (.verified menu) (.clearErrCnt menu) menu.verifiedAction
  | card {k p l p'} : CardStep k p l (some p') → TouchStep (.card k p) l (.card k p')
  | cardDone {k p l} : CardStep k p l none → TouchStep (.card k p) l (.mainWindow k.menu)
  | passwordSet : TouchStep .passwordSetting (.passwordSetting 1) .settingShown
  | passwordKept {r} : r ≠ 1 → TouchStep .passwordSetting (.passwordSetting r) (.mainWindow .setPsw)
  | settingShown : TouchStep .settingShown .tau (.mainWindow .setPsw)
  | wrongEntry {menu} : TouchStep (.wrongEntry menu) (.incErrCnt menu) (.testErrCnt menu)
  | exceeded {menu} : TouchStep (.testErrCnt menu) (.testErrCnt menu true) (.clearErrCnt menu)
  | withinLimit {menu} : TouchStep (.testErrCnt menu) (.testErrCnt menu false) (.wrongShown menu)
  | clearErrCnt {menu} : TouchStep (.clearErrCnt menu) (.clearErrCnt menu) (.clearLock menu)
  | clearLock {menu} : TouchStep (.clearLock menu) (.clearLock menu) (.wakeCountdown menu)
  | wakeCountdown {menu} : TouchStep (.wakeCountdown menu) (.release menu.errThreadLock) (.timerStart menu)
  | timerStart {menu} : TouchStep (.timerStart menu) (.timerStart menu) (.wrongShown menu)
  | wrongShown {menu} : TouchStep (.wrongShown menu) .tau (.mainWindow menu)
  | downCount {menu} : TouchStep (.downCount menu) .tau (.mainWindow menu)
  | mainWindow {menu} : TouchStep (.mainWindow menu) .tau (.release menu)
  | release {menu} : TouchStep (.release menu) (.release .matchThreadLock) .untouch
  | stillTouched : TouchStep .untouch .tau .untouch
  | untouched : TouchStep .untouch .tau .delay
  | delay : TouchStep .delay .tau .scan

end TouchThread

section DoorOpenThread

inductive DoorPc where
  | take
  /-- Open, wait, close, wait. -/
  | cycle
  | delay
  deriving DecidableEq, Repr

/-- `door_open_thread`. -/
inductive DoorStep : DoorPc → Label → DoorPc → Prop
  | take : DoorStep .take (.take .doorOpenThreadLock) .cycle
  | takeFailed : DoorStep .take (.takeFailed .doorOpenThreadLock) .delay
  | cycle : DoorStep .cycle .tau .delay
  | delay : DoorStep .delay .tau .take

end DoorOpenThread

inductive Thread where
  | matchThread | touchThread | doorOpenThread
  deriving DecidableEq, Repr

instance Thread.fintype : Fintype Thread where
  elems := {.matchThread, .touchThread, .doorOpenThread}
  complete t := by cases t <;> decide

def Thread.Pc : Thread → Type
  | .matchThread => MatchPc
  | .touchThread => TouchPc
  | .doorOpenThread => DoorPc

def Thread.control : (t : Thread) → t.Pc → Label → t.Pc → Prop
  | .matchThread => MatchStep
  | .touchThread => TouchStep
  | .doorOpenThread => DoorStep

/-- What the threads share: the semaphores' values and `ucArray_ID`. -/
structure Shared where
  value : Sem → Nat
  ucArrayId : TagId

/-- Semaphores count; the reader stores at `ucArray_ID`, and the tag functions take their
argument from there. Nothing is said here of what a test or a store function answers. -/
def Label.effect : Label → Shared → Shared → Prop
  | .take sem, sh, sh' => 0 < sh.value sem ∧ sh' = { sh with value := Function.update sh.value sem (sh.value sem - 1) }
  | .release sem, sh, sh' => sh' = { sh with value := Function.update sh.value sem (sh.value sem + 1) }
  | .pcdRequest (some (b0, b1)), sh, sh' => sh' = { sh with ucArrayId := Function.update (Function.update sh.ucArrayId 0 b0) 1 b1 }
  | .pcdAnticoll (some serial) _, sh, sh' => sh' = { sh with ucArrayId := serial }
  | .tagMatch tagId _, sh, sh' | .registTag tagId, sh, sh' | .deleteRegisteredTag tagId, sh, sh' => tagId = sh.ucArrayId ∧ sh' = sh
  | _, sh, sh' => sh' = sh

/-- The three threads under any interleaving. -/
def threads : Threads Thread Label Shared where
  Pc := Thread.Pc
  control := Thread.control
  effect := Label.effect

/-- `Door_Security_Demo` creates `match_thread_lock` with 1 and the other semaphores with 0. -/
def threads.start : threads.State where
  pc
    | .matchThread => MatchPc.take
    | .touchThread => TouchPc.scan
    | .doorOpenThread => DoorPc.take
  shared := { value := fun sem => if sem = .matchThreadLock then 1 else 0, ucArrayId := fun _ => 0 }

end DoorSecurity
