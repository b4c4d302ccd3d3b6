import DoorSecurity.Kernel.SoftTimer
import DoorSecurity.Threads.Control

/-!
# The lockout after three wrong entries

`touch_thread`, the timer thread and the clock share the error counters, the lock
flags and three soft timers. `touch_thread` has the higher priority, so the timer
thread only runs where `touch_thread` may wait. The timers' flag byte holds
`RT_TIMER_CTRL_SET_ONESHOT`, a command code, which as a flag is
`RT_TIMER_FLAG_PERIODIC`: a timer goes on expiring after its lockout, and such a
call that is under way when the next lockout begins ends it at once.
-/

open Kernel

namespace DoorSecurity
set_option autoImplicit false
open Eeprom Lts

structure LockoutState where
  touch : TouchPc
  timerThread : TimerPc Menu
  /-- Ticks since the start. -/
  now : Nat
  /-- `reg_err_cnt`, `del_err_cnt` and `psd_err_cnt`. -/
  errCnt : Menu → UInt8
  /-- `register_lock`, `delete_lock` and `psd_lock`. -/
  lock : Menu → UInt8
  timers : SoftTimers Menu

/-- After `Door_Security_Demo`. -/
def LockoutState.start : LockoutState where
  touch := .scan
  timerThread := .idle
  now := 0
  errCnt _ := 0
  lock _ := 1
  timers := .create (fun _ => 300000) fun _ => rtTimerCtrlSetOneshot ||| rtTimerFlagSoftTimer

/-- The points where `touch_thread` waits for time or for a semaphore. -/
def TouchPc.mayWait : TouchPc → Bool
  | .beep _ | .take _ | .matchPsw _ | .card .. | .passwordSetting | .settingShown | .wrongShown _ | .downCount _ | .delay => true
  | _ => false

/-- What a label of `touch_thread` tests and changes. -/
def Label.onLockout : Label → LockoutState → LockoutState → Prop
  | .testLock menu unlocked, s, s' => (unlocked = true ↔ s.lock menu ≠ 0) ∧ s' = s
  | .clearErrCnt menu, s, s' => s' = { s with errCnt := Function.update s.errCnt menu 0 }
  | .incErrCnt menu, s, s' => s' = { s with errCnt := Function.update s.errCnt menu (s.errCnt menu + 1) }
  | .testErrCnt menu exceeded, s, s' => (exceeded = true ↔ s.errCnt menu > 2) ∧ s' = s
  | .clearLock menu, s, s' => s' = { s with lock := Function.update s.lock menu 0 }
  | .timerStart menu, s, s' => s' = { s with timers := s.timers.rtTimerStart (rtTick s.now) menu }
  | _, s, s' => s' = s

/-- `register_timeout1`, `delete_timeout2` and `psd_timeout3`, when the timer thread is at the call. -/
def timeoutFunc (pc : TimerPc Menu) (lock : Menu → UInt8) : Menu → UInt8 :=
  match pc with
  | .firing menu _ => Function.update lock menu 1
  | _ => lock

inductive LockoutEvent where
  | tick
  | timerThread
  | touch (l : Label)

inductive LockoutStep : LockoutState → LockoutEvent → LockoutState → Prop
  | tick (s : LockoutState) : LockoutStep s .tick { s with now := s.now + 1 }
  | timerThread {s : LockoutState} (waits : s.touch.mayWait = true) :
      LockoutStep s .timerThread
        { s with
          timerThread := (timerThreadStep s.now (s.timerThread, s.timers)).1
          timers := (timerThreadStep s.now (s.timerThread, s.timers)).2
          lock := timeoutFunc s.timerThread s.lock }
  | touch {s s' : LockoutState} {l : Label} {p : TouchPc} (edge : TouchStep s.touch l p) (acts : l.onLockout s s') :
      LockoutStep s (.touch l) { s' with touch := p }

section Attempts

/-- How far an attempt at one menu has come. -/
inductive Stage where
  | outside | asking | right | wrong | testing | clearing | locking | locked
  deriving DecidableEq, Repr

/-- The stage of the attempts at `menu`; those at the other menus are outside. -/
def TouchPc.stage (menu : Menu) : TouchPc → Stage
  | .matchPsw a => if a = menu then .asking else .outside
  | .verified a => if a = menu then .right else .outside
  | .wrongEntry a => if a = menu then .wrong else .outside
  | .testErrCnt a => if a = menu then .testing else .outside
  | .clearErrCnt a => if a = menu then .clearing else .outside
  | .clearLock a => if a = menu then .locking else .outside
  | .wakeCountdown a | .timerStart a => if a = menu then .locked else .outside
  | _ => .outside

/-- The action that a label belongs to. -/
def Label.menu : Label → Option Menu
  | .testLock a _ | .matchPsw a _ | .clearErrCnt a | .incErrCnt a | .testErrCnt a _ | .clearLock a | .timerStart a => some a
  | _ => none

/-- One attempt at `menu`, seen alone. -/
inductive AttemptStep (menu : Menu) : Stage → Label → Stage → Prop
  | refused : AttemptStep menu .outside (.testLock menu false) .outside
  | asked : AttemptStep menu .outside (.testLock menu true) .asking
  | right : AttemptStep menu .asking (.matchPsw menu 1) .right
  | wrong : AttemptStep menu .asking (.matchPsw menu 2) .wrong
  | cancelled {r : UInt8} : r ≠ 1 → r ≠ 2 → AttemptStep menu .asking (.matchPsw menu r) .outside
  | verified : AttemptStep menu .right (.clearErrCnt menu) .outside
  | incremented : AttemptStep menu .wrong (.incErrCnt menu) .testing
  | within : AttemptStep menu .testing (.testErrCnt menu false) .outside
  | exceeded : AttemptStep menu .testing (.testErrCnt menu true) .clearing
  | cleared : AttemptStep menu .clearing (.clearErrCnt menu) .locking
  | locked : AttemptStep menu .locking (.clearLock menu) .locked
  | started : AttemptStep menu .locked (.timerStart menu) .outside
  | other {st : Stage} {l : Label} : l.menu ≠ some menu → st = .outside ∨ st = .locked → AttemptStep menu st l st

theorem ReadStep.menu {p : ReadPc} {l : Label} {q : ReadPc ⊕ Option TagId} (edge : ReadStep p l q) : l.menu = none := by
  cases edge <;> rfl

theorem CardStep.menu {k : Session} {p : CardPc} {l : Label} {q : Option CardPc} (edge : CardStep k p l q) : l.menu = none := by
  cases edge with
  | readId reads | readOk reads | readError reads => exact reads.menu
  | _ => rfl

/-- A step that belongs to another menu, or to none, from outside to outside. -/
theorem AttemptStep.elsewhere {menu : Menu} {l : Label} (other : l.menu ≠ some menu) : AttemptStep menu .outside l .outside :=
  .other other (.inl rfl)

/-- A step of the attempts at `a`, seen from any menu. -/
theorem AttemptStep.seen {a : Menu} (menu : Menu) {st st' : Stage} {l : Label} (step : AttemptStep a st l st')
    (own : l.menu = some a ∨ l.menu = none) :
    AttemptStep menu (if a = menu then st else .outside) l (if a = menu then st' else .outside) := by
  by_cases here : a = menu
  · subst here
    rw [if_pos rfl, if_pos rfl]
    exact step
  · rw [if_neg here, if_neg here]
    apply AttemptStep.elsewhere
    rcases own with own | none
    · rw [own]
      simpa using here
    · rw [none]
      rintro ⟨⟩

/-- **Each menu's attempts are those of `AttemptStep`.** -/
theorem TouchStep.attempt (menu : Menu) {p p' : TouchPc} {l : Label} (edge : TouchStep p l p') :
    AttemptStep menu (p.stage menu) l (p'.stage menu) := by
  cases edge with
  | @unlocked a =>
    have step := AttemptStep.seen (a := a) menu .asked (.inl rfl)
    rwa [ite_self] at step
  | @locked a =>
    have step := AttemptStep.seen (a := a) menu .refused (.inl rfl)
    rwa [ite_self] at step
  | right => exact .seen menu .right (.inl rfl)
  | wrong => exact .seen menu .wrong (.inl rfl)
  | @cancelled a _ notRight notWrong =>
    have step := AttemptStep.seen (a := a) menu (.cancelled notRight notWrong) (.inl rfl)
    rwa [ite_self] at step
  | @verified a =>
    have step := AttemptStep.seen (a := a) menu .verified (.inl rfl)
    have outside : a.verifiedAction.stage menu = .outside := by cases a <;> rfl
    rw [ite_self] at step
    rwa [outside]
  | card walks | cardDone walks => exact .elsewhere (by simp [walks.menu])
  | wrongEntry => exact .seen menu .incremented (.inl rfl)
  | exceeded => exact .seen menu .exceeded (.inl rfl)
  | @withinLimit a =>
    have step := AttemptStep.seen (a := a) menu .within (.inl rfl)
    rwa [ite_self] at step
  | clearErrCnt => exact .seen menu .cleared (.inl rfl)
  | clearLock => exact .seen menu .locked (.inl rfl)
  | wakeCountdown => exact .seen menu (.other (by rintro ⟨⟩) (.inr rfl)) (.inr rfl)
  | @timerStart a =>
    have step := AttemptStep.seen (a := a) menu .started (.inl rfl)
    rwa [ite_self] at step
  | _ => exact .elsewhere (by rintro ⟨⟩)

end Attempts

section Rule

/-- Wrong entries at `menu` since its last correct entry or lockout. -/
def wrongEntries (menu : Menu) : List LockoutEvent → Nat
  | [] => 0
  | .touch (.matchPsw a r) :: es =>
    if a = menu then if r = 2 then wrongEntries menu es + 1 else if r = 1 then 0 else wrongEntries menu es else wrongEntries menu es
  | .touch (.clearLock a) :: es => if a = menu then 0 else wrongEntries menu es
  | _ :: es => wrongEntries menu es

/-- Ticks since the last lockout of `menu` began. -/
def ticksSinceLockout (menu : Menu) : List LockoutEvent → Nat
  | [] => 0
  | .tick :: es => ticksSinceLockout menu es + 1
  | .touch (.clearLock a) :: es => if a = menu then 0 else ticksSinceLockout menu es
  | _ :: es => ticksSinceLockout menu es

/-- What the lockout promises of a reachable state and of its next step. -/
structure LockoutRule (menu : Menu) (es : List LockoutEvent) (s : LockoutState) : Prop where
  /-- The counter between attempts. -/
  counter : s.touch.stage menu = .outside → s.errCnt menu ≤ 2
  /-- A third wrong entry has become a lockout by the end of its attempt. -/
  third : s.touch.stage menu = .outside → wrongEntries menu es ≤ 2
  /-- Nothing else locks. -/
  locks : ∀ e s', LockoutStep s e s' → s.lock menu ≠ 0 → s'.lock menu = 0 → e = .touch (.clearLock menu) ∧ wrongEntries menu es = 3
  refuses : s.lock menu = 0 → s.touch.stage menu ≠ .asking
  unlocks : ∀ e s', LockoutStep s e s' → s.lock menu = 0 → s'.lock menu ≠ 0 → 300000 ≤ ticksSinceLockout menu es

/-- A lockout that begins finds the timer thread not about to call its timer, nor at work with
a tick so old that the new timeout looks past. -/
def TimerAtRest (s : LockoutState) : LockoutEvent → Prop
  | .touch (.timerStart menu) =>
    (∀ n, s.timerThread ≠ .firing menu n) ∧
      ∀ c, s.timerThread.cached = some c → expired (rtTick c) (rtTick s.now + 300000) = false
  | _ => True

/-- The steps of the runs in which every lockout begins so. -/
def RestfulStep (s : LockoutState) (e : LockoutEvent) (s' : LockoutState) : Prop := TimerAtRest s e ∧ LockoutStep s e s'

end Rule

section Invariant

/-- Counter, flag and past at each stage of an attempt. -/
def Counted (wrongs : Nat) (errCnt lock : UInt8) : Stage → Prop
  | .outside => wrongs = errCnt.toNat ∧ errCnt.toNat ≤ 2
  | .asking => wrongs = errCnt.toNat ∧ errCnt.toNat ≤ 2 ∧ lock ≠ 0
  | .right => wrongs = 0 ∧ lock ≠ 0
  | .wrong => wrongs = errCnt.toNat + 1 ∧ errCnt.toNat ≤ 2 ∧ lock ≠ 0
  | .testing => wrongs = errCnt.toNat ∧ errCnt.toNat ≤ 3 ∧ lock ≠ 0
  | .clearing => wrongs = 3 ∧ lock ≠ 0
  | .locking => wrongs = 3 ∧ errCnt = 0 ∧ lock ≠ 0
  | .locked => wrongs = 0 ∧ errCnt = 0

structure LockoutSound (menu : Menu) (es : List LockoutEvent) (s : LockoutState) : Prop where
  counted : Counted (wrongEntries menu es) (s.errCnt menu) (s.lock menu) (s.touch.stage menu)
  proper : s.timerThread.Proper s.now
  init : s.timers.initTick menu = 300000
  /-- A lockout under way ends 300000 ticks after its beginning. -/
  waits : s.lock menu = 0 → s.touch.stage menu ≠ .locked → ∃ due, s.now + 300000 ≤ due + ticksSinceLockout menu es ∧
    due ≤ s.now + 300000 ∧ NotBefore due s.now menu (s.timerThread, s.timers)

variable {menu : Menu} {es : List LockoutEvent} {s s' : LockoutState} {l : Label} {st st' : Stage}

theorem LockoutSound.start (menu : Menu) : LockoutSound menu [] .start where
  counted := ⟨rfl, Nat.zero_le _⟩
  proper := .idle
  init := rfl
  waits := by rintro ⟨⟩

/-- The timer thread's calls only unlock. -/
theorem timeoutFunc_ne_zero (pc : TimerPc Menu) {lock : Menu → UInt8} (unlocked : lock menu ≠ 0) : timeoutFunc pc lock menu ≠ 0 := by
  unfold timeoutFunc
  split
  case h_1 a _ =>
    by_cases own : menu = a
    · subst own
      rw [Function.update_self]
      decide
    · rw [Function.update_of_ne own]
      exact unlocked
  case h_2 => exact unlocked

theorem timeoutFunc_firing (menu : Menu) (n : Option Menu) (lock : Menu → UInt8) : timeoutFunc (.firing menu n) lock menu = 1 :=
  Function.update_self ..

theorem timeoutFunc_eq_zero {pc : TimerPc Menu} {lock : Menu → UInt8} (locked : timeoutFunc pc lock menu = 0) :
    lock menu = 0 ∧ ∀ n, pc ≠ .firing menu n := by
  constructor
  · by_contra unlocked
    exact timeoutFunc_ne_zero pc unlocked locked
  · rintro n rfl
    rw [timeoutFunc_firing] at locked
    exact absurd locked (by decide)

/-- Only a call of the menu's own function unlocks. -/
theorem firing_of_unlocked {pc : TimerPc Menu} {lock : Menu → UInt8} (locked : lock menu = 0) (unlocked : timeoutFunc pc lock menu ≠ 0) :
    ∃ n, pc = .firing menu n := by
  cases pc with
  | firing a n =>
    by_cases own : menu = a
    · exact ⟨n, by rw [own]⟩
    · rw [timeoutFunc, Function.update_of_ne own] at unlocked
      exact absurd locked unlocked
  | _ => exact absurd locked unlocked

/-- Where the thread may wait, the attempt is not between its answer and the timer's start. -/
theorem TouchPc.stage_of_mayWait {p : TouchPc} (waits : p.mayWait = true) (menu : Menu) :
    p.stage menu = .outside ∨ p.stage menu = .asking := by
  cases p with
  | matchPsw a =>
    by_cases own : a = menu
    · exact .inr (if_pos own)
    · exact .inl (if_neg own)
  | _ => first | exact .inl rfl | contradiction

theorem Counted.of_lock {wrongs : Nat} {errCnt lock lock' : UInt8} (counted : Counted wrongs errCnt lock st) (kept : lock ≠ 0 → lock' ≠ 0) :
    Counted wrongs errCnt lock' st := by
  cases st with
  | outside | locked => exact counted
  | asking | wrong | testing | locking => exact ⟨counted.1, counted.2.1, kept counted.2.2⟩
  | right | clearing => exact ⟨counted.1, kept counted.2⟩

/-- What belongs to another menu leaves this one's counter, flag, past and timer. -/
theorem Label.onLockout_other (es : List LockoutEvent) (acts : l.onLockout s s') (other : l.menu ≠ some menu) :
    s'.errCnt menu = s.errCnt menu ∧ s'.lock menu = s.lock menu ∧ wrongEntries menu (.touch l :: es) = wrongEntries menu es ∧
      ticksSinceLockout menu (.touch l :: es) = ticksSinceLockout menu es := by
  cases l with
  | testLock a | testErrCnt a =>
    obtain ⟨-, rfl⟩ := acts
    exact ⟨rfl, rfl, rfl, rfl⟩
  | clearErrCnt a | incErrCnt a =>
    have own : menu ≠ a := by rintro rfl; exact other rfl
    cases acts
    exact ⟨Function.update_of_ne own _ _, rfl, rfl, rfl⟩
  | clearLock a =>
    have own : menu ≠ a := by rintro rfl; exact other rfl
    cases acts
    exact ⟨rfl, Function.update_of_ne own _ _, if_neg (Ne.symm own), if_neg (Ne.symm own)⟩
  | matchPsw a r =>
    have own : menu ≠ a := by rintro rfl; exact other rfl
    cases acts
    exact ⟨rfl, rfl, if_neg (Ne.symm own), rfl⟩
  | timerStart a => cases acts; exact ⟨rfl, rfl, rfl, rfl⟩
  | _ => cases acts; exact ⟨rfl, rfl, rfl, rfl⟩

/-- **An attempt keeps the count.** -/
theorem AttemptStep.keeps_count (attempt : AttemptStep menu st l st') (acts : l.onLockout s s')
    (counted : Counted (wrongEntries menu es) (s.errCnt menu) (s.lock menu) st) :
    Counted (wrongEntries menu (.touch l :: es)) (s'.errCnt menu) (s'.lock menu) st' := by
  cases attempt with
  | other other outside =>
    obtain ⟨errCnt, lock, wrongs, -⟩ := Label.onLockout_other es acts other
    rw [errCnt, lock, wrongs]
    exact counted
  | refused =>
    obtain ⟨-, rfl⟩ := acts
    exact counted
  | asked =>
    obtain ⟨unlocked, rfl⟩ := acts
    exact ⟨counted.1, counted.2, unlocked.mp rfl⟩
  | right =>
    cases acts
    refine ⟨?_, counted.2.2⟩
    simp [wrongEntries]
  | wrong =>
    cases acts
    refine ⟨?_, counted.2⟩
    simp [wrongEntries, counted.1]
  | cancelled notRight notWrong =>
    cases acts
    refine ⟨?_, counted.2.1⟩
    simp [wrongEntries, notRight, notWrong, counted.1]
  | verified =>
    cases acts
    have zero : Function.update s.errCnt menu 0 menu = 0 := Function.update_self ..
    refine ⟨counted.1.trans (congrArg UInt8.toNat zero).symm, ?_⟩
    show (Function.update s.errCnt menu 0 menu).toNat ≤ 2
    rw [zero]
    decide
  | incremented =>
    cases acts
    obtain ⟨wrongs, few, unlocked⟩ := counted
    have next : (Function.update s.errCnt menu (s.errCnt menu + 1) menu).toNat = (s.errCnt menu).toNat + 1 := by
      rw [Function.update_self, UInt8.toNat_add]
      show ((s.errCnt menu).toNat + 1) % 256 = _
      omega
    refine ⟨wrongs.trans next.symm, ?_, unlocked⟩
    show (Function.update s.errCnt menu (s.errCnt menu + 1) menu).toNat ≤ 3
    omega
  | within =>
    obtain ⟨exceeded, rfl⟩ := acts
    obtain ⟨wrongs, -, -⟩ := counted
    have few : ¬ s'.errCnt menu > 2 := fun more => absurd (exceeded.mpr more) (by decide)
    refine ⟨wrongs, ?_⟩
    have small := UInt8.not_lt.mp few
    exact UInt8.le_iff_toNat_le.mp small
  | exceeded =>
    obtain ⟨exceeded, rfl⟩ := acts
    obtain ⟨wrongs, few, unlocked⟩ := counted
    have more : 2 < (s'.errCnt menu).toNat := UInt8.lt_iff_toNat_lt.mp (exceeded.mp rfl)
    exact ⟨by show wrongEntries menu es = 3; omega, unlocked⟩
  | cleared =>
    cases acts
    exact ⟨counted.1, Function.update_self .., counted.2⟩
  | locked =>
    cases acts
    refine ⟨?_, counted.2.1⟩
    simp [wrongEntries]
  | started =>
    cases acts
    obtain ⟨wrongs, zero⟩ := counted
    exact ⟨wrongs.trans (congrArg UInt8.toNat zero).symm, by rw [zero]; decide⟩

/-- `touch_thread` leaves the clock, the timer thread and the timers' periods alone. -/
theorem Label.onLockout_frame (acts : l.onLockout s s') :
    s'.now = s.now ∧ s'.timerThread = s.timerThread ∧ s'.timers.initTick = s.timers.initTick := by
  cases l with
  | testLock a | testErrCnt a =>
    obtain ⟨-, rfl⟩ := acts
    exact ⟨rfl, rfl, rfl⟩
  | _ => cases acts; exact ⟨rfl, rfl, rfl⟩

theorem Label.onLockout_notBefore {due : Nat} (acts : l.onLockout s s') (other : l.menu ≠ some menu)
    (set : NotBefore due s.now menu (s.timerThread, s.timers)) : NotBefore due s'.now menu (s'.timerThread, s'.timers) := by
  cases l with
  | testLock a | testErrCnt a =>
    obtain ⟨-, rfl⟩ := acts
    exact set
  | timerStart a =>
    have own : menu ≠ a := by rintro rfl; exact other rfl
    cases acts
    exact set.start_other own
  | _ => cases acts; exact set

/-- **A lockout's end is a whole period away from its beginning.** -/
theorem AttemptStep.keeps_waiting (attempt : AttemptStep menu st l st') (acts : l.onLockout s s') (rest : TimerAtRest s (.touch l))
    (init : s.timers.initTick menu = 300000)
    (waits : s.lock menu = 0 → st ≠ .locked → ∃ due, s.now + 300000 ≤ due + ticksSinceLockout menu es ∧ due ≤ s.now + 300000 ∧
      NotBefore due s.now menu (s.timerThread, s.timers)) (locked : s'.lock menu = 0) (left : st' ≠ .locked) :
    ∃ due, s'.now + 300000 ≤ due + ticksSinceLockout menu (.touch l :: es) ∧ due ≤ s'.now + 300000 ∧
      NotBefore due s'.now menu (s'.timerThread, s'.timers) := by
  cases attempt with
  | other other outside =>
    obtain ⟨-, lock, -, since⟩ := Label.onLockout_other es acts other
    rw [lock] at locked
    obtain ⟨due, late, early, set⟩ := waits locked left
    rw [since, (Label.onLockout_frame acts).1]
    refine ⟨due, late, early, ?_⟩
    rw [← (Label.onLockout_frame acts).1]
    exact Label.onLockout_notBefore acts other set
  | refused | asked | within | exceeded =>
    obtain ⟨-, rfl⟩ := acts
    exact waits locked (by decide)
  | right | wrong | cancelled | verified | incremented | cleared =>
    cases acts
    exact waits locked (by decide)
  | locked => contradiction
  | started =>
    cases acts
    obtain ⟨off, unseen⟩ := rest
    rw [← init] at unseen
    have period : (s.timers.initTick menu).toNat = 300000 := by rw [init]; rfl
    have set : NotBefore (s.now + (s.timers.initTick menu).toNat) s.now menu (s.timerThread, s.timers.rtTimerStart (rtTick s.now) menu) :=
      .start off (by omega) unseen
    rw [period] at set
    exact ⟨s.now + 300000, Nat.le_add_right _ _, Nat.le_refl _, set⟩

/-- **The step lemma.** -/
theorem LockoutSound.step {e : LockoutEvent} (sound : LockoutSound menu es s) (rest : TimerAtRest s e) (step : LockoutStep s e s') :
    LockoutSound menu (e :: es) s' := by
  cases step with
  | tick =>
    refine ⟨sound.counted, sound.proper.tick, sound.init, fun locked left => ?_⟩
    obtain ⟨due, late, early, set⟩ := sound.waits locked left
    refine ⟨due, ?_, ?_, set.tick⟩
    · simp only [ticksSinceLockout]
      omega
    · show due ≤ s.now + 1 + 300000
      omega
  | timerThread waiting =>
    have init := sound.init
    refine ⟨?_, timerThreadStep_proper sound.proper, ?_, fun locked left => ?_⟩
    · exact sound.counted.of_lock (timeoutFunc_ne_zero s.timerThread)
    · exact (congrFun (timerThreadStep_initTick s.now s.timerThread s.timers) menu).trans init
    · obtain ⟨was, off⟩ := timeoutFunc_eq_zero locked
      obtain ⟨due, late, early, set⟩ := sound.waits was left
      have period : (s.timers.initTick menu).toNat = 300000 := by rw [init]; rfl
      have restart : due ≤ s.now + (s.timers.initTick menu).toNat := by rw [period]; exact early
      exact ⟨due, late, early, timerThreadStep_notBefore sound.proper off set restart (by omega)⟩
  | @touch after l p edge acts =>
    have attempt := edge.attempt menu
    obtain ⟨now, timerThread, initTick⟩ := Label.onLockout_frame acts
    have counted := attempt.keeps_count acts sound.counted
    have waits := attempt.keeps_waiting acts rest sound.init sound.waits
    refine ⟨counted, ?_, ?_, waits⟩
    · show after.timerThread.Proper after.now
      rw [now, timerThread]
      exact sound.proper
    · exact (congrFun initTick menu).trans sound.init

/-- An attempt leaves the flag, or clears it after the third wrong entry. -/
theorem AttemptStep.lock_cases (attempt : AttemptStep menu st l st') (acts : l.onLockout s s') :
    s'.lock menu = s.lock menu ∨ (l = .clearLock menu ∧ st = .locking ∧ s'.lock menu = 0) := by
  cases attempt with
  | other other outside =>
    obtain ⟨-, same, -⟩ := Label.onLockout_other [] acts other
    exact .inl same
  | refused | asked | within | exceeded =>
    obtain ⟨-, rfl⟩ := acts
    exact .inl rfl
  | locked =>
    cases acts
    exact .inr ⟨rfl, rfl, Function.update_self ..⟩
  | _ =>
    cases acts
    exact .inl rfl

theorem LockoutSound.locks {e : LockoutEvent} (sound : LockoutSound menu es s) (step : LockoutStep s e s') (unlocked : s.lock menu ≠ 0)
    (locked : s'.lock menu = 0) : e = .touch (.clearLock menu) ∧ wrongEntries menu es = 3 := by
  cases step with
  | tick => exact absurd locked unlocked
  | timerThread waiting => exact absurd (timeoutFunc_eq_zero locked).1 unlocked
  | @touch after l p edge acts =>
    rcases (edge.attempt menu).lock_cases acts with same | ⟨rfl, locking, -⟩
    · exact absurd (same.symm.trans locked) unlocked
    · have counted := sound.counted
      rw [locking] at counted
      exact ⟨rfl, counted.1⟩

theorem LockoutSound.unlocks {e : LockoutEvent} (sound : LockoutSound menu es s) (step : LockoutStep s e s') (locked : s.lock menu = 0)
    (unlocked : s'.lock menu ≠ 0) : 300000 ≤ ticksSinceLockout menu es := by
  cases step with
  | tick => exact absurd locked unlocked
  | timerThread waiting =>
    have left : s.touch.stage menu ≠ .locked := by
      rcases TouchPc.stage_of_mayWait waiting menu with stage | stage <;> rw [stage] <;> decide
    obtain ⟨n, here⟩ := firing_of_unlocked locked unlocked
    obtain ⟨due, late, -, set⟩ := sound.waits locked left
    rcases set with ⟨-, reached⟩ | ⟨off, -⟩
    · omega
    · exact absurd here (off n)
  | @touch after l p edge acts =>
    rcases (edge.attempt menu).lock_cases acts with same | ⟨-, -, cleared⟩
    · exact absurd (same.trans locked) unlocked
    · exact absurd cleared unlocked

/-- The invariant gives the rule, whatever the next step is. -/
theorem LockoutSound.rule (sound : LockoutSound menu es s) : LockoutRule menu es s where
  counter outside := by
    have counted := sound.counted
    rw [outside] at counted
    exact UInt8.le_iff_toNat_le.mpr counted.2
  third outside := by
    have counted := sound.counted
    rw [outside] at counted
    exact counted.1.trans_le counted.2
  refuses locked asking := by
    have counted := sound.counted
    rw [asking] at counted
    exact counted.2.2 locked
  locks _ _ := sound.locks
  unlocks _ _ := sound.unlocks

end Invariant

/-- **The lockout**, in every run that begins no lockout of a menu while the timer thread is
about to call that menu's timer. -/
theorem lockout_rule (menu : Menu) {es : List LockoutEvent} {s : LockoutState}
    (run : Runs RestfulStep .start es s) : LockoutRule menu es s := by
  have sound : LockoutSound menu es s := run.invariant (LockoutSound.start menu) fun sound step => sound.step step.1 step.2
  exact sound.rule

section EarlyUnlock

/-- One state can follow on another. -/
def Leads (s₀ s : LockoutState) : Prop := ∃ es, Runs RestfulStep s₀ es s

def Reaches (s : LockoutState) : Prop := ∃ es, Runs RestfulStep .start es s

variable {s₀ : LockoutState}

theorem Leads.refl : Leads s₀ s₀ := ⟨[], .nil⟩

/-- A timer thread outside its check is at rest. -/
theorem timerAtRest_idle {s : LockoutState} (idle : s.timerThread = .idle) (l : Label) : TimerAtRest s (.touch l) := by
  cases l with
  | timerStart menu =>
    constructor
    · intro n
      rw [idle]
      exact nofun
    · intro c cached
      rw [idle] at cached
      contradiction
  | _ => trivial

theorem touch_run {s s' : LockoutState} {l : Label} {p : TouchPc} {es : List LockoutEvent} (run : Runs RestfulStep s₀ es s)
    (edge : TouchStep s.touch l p) (acts : l.onLockout s s') (rest : TimerAtRest s (.touch l)) :
    Runs RestfulStep s₀ (.touch l :: es) { s' with touch := p } := run.snoc ⟨rest, .touch edge acts⟩

theorem Leads.touch {s s' : LockoutState} {l : Label} {p : TouchPc} (reaches : Leads s₀ s) (edge : TouchStep s.touch l p)
    (acts : l.onLockout s s') (rest : TimerAtRest s (.touch l)) : Leads s₀ { s' with touch := p } := by
  obtain ⟨es, run⟩ := reaches
  exact ⟨_, touch_run run edge acts rest⟩

/-- Sounds, the display and the touch screen. -/
theorem Leads.tau {s : LockoutState} {p : TouchPc} (reaches : Leads s₀ s) (edge : TouchStep s.touch .tau p) : Leads s₀ { s with touch := p } :=
  reaches.touch edge rfl trivial

variable {p : TouchPc} {pc : TimerPc Menu} {now : Nat} {errCnt lock : Menu → UInt8} {timers : SoftTimers Menu}

theorem Leads.ticks (reaches : Leads s₀ ⟨p, pc, now, errCnt, lock, timers⟩) (n : Nat) : Leads s₀ ⟨p, pc, now + n, errCnt, lock, timers⟩ := by
  induction n with
  | zero => exact reaches
  | succ n ih =>
    obtain ⟨es, run⟩ := ih
    have tick : RestfulStep ⟨p, pc, now + n, errCnt, lock, timers⟩ .tick _ := ⟨trivial, .tick _⟩
    exact ⟨_, run.snoc tick⟩

/-- The screen is scanned every 5 ticks. -/
theorem Leads.idle (reaches : Leads s₀ ⟨.delay, pc, now, errCnt, lock, timers⟩) (n : Nat) :
    Leads s₀ ⟨.delay, pc, now + 5 * n, errCnt, lock, timers⟩ := by
  induction n with
  | zero => exact reaches
  | succ n ih => exact ((ih.ticks 5).tau .delay).tau .notPressed

/-- The register menu up to a password entry of two keys. -/
theorem Leads.entry (reaches : Leads s₀ ⟨.delay, pc, now, errCnt, lock, timers⟩) (unlocked : lock .register ≠ 0) :
    Leads s₀ ⟨.matchPsw .register, pc, now + 20 + 40, errCnt, lock, timers⟩ := by
  have beeping := ((reaches.tau .delay).tau (.pressed .register)).ticks 20
  have testing := (beeping.tau .beep).touch .take rfl trivial
  exact (testing.touch .unlocked ⟨iff_of_true rfl unlocked, rfl⟩ trivial).ticks 40

/-- The message, the main window, and back to scanning. -/
theorem Leads.shown (reaches : Leads s₀ ⟨.wrongShown .register, pc, now, errCnt, lock, timers⟩) :
    Leads s₀ ⟨.delay, pc, now + 2000 + 5, errCnt, lock, timers⟩ := by
  have left := ((reaches.ticks 2000).tau .wrongShown).tau .mainWindow
  exact ((left.touch .release rfl trivial).tau .untouched).ticks 5

theorem Leads.wrongAttempt (reaches : Leads s₀ ⟨.delay, pc, now, errCnt, lock, timers⟩) (unlocked : lock .register ≠ 0)
    (few : ¬ errCnt .register + 1 > 2) :
    ∃ errCnt', errCnt' .register = errCnt .register + 1 ∧ Leads s₀ ⟨.delay, pc, now + 2065, errCnt', lock, timers⟩ := by
  have counted := ((reaches.entry unlocked).touch .wrong rfl trivial).touch .wrongEntry rfl trivial
  have within := counted.touch .withinLimit ⟨iff_of_false (by decide) (by simpa using few), rfl⟩ trivial
  exact ⟨_, Function.update_self .., within.shown⟩

/-- Two wrong entries, and a third one being typed. -/
theorem Leads.thirdEntry (reaches : Leads s₀ ⟨.delay, pc, now, errCnt, lock, timers⟩) (unlocked : lock .register ≠ 0)
    (zero : errCnt .register = 0) :
    ∃ errCnt', errCnt' .register = 2 ∧ Leads s₀ ⟨.matchPsw .register, pc, now + 4190, errCnt', lock, timers⟩ := by
  obtain ⟨errCnt1, one, first⟩ := reaches.wrongAttempt unlocked (by rw [zero]; decide)
  rw [zero] at one
  obtain ⟨errCnt2, two, second⟩ := first.wrongAttempt unlocked (by rw [one]; decide)
  rw [one] at two
  exact ⟨errCnt2, two, second.entry unlocked⟩

/-- A third wrong entry, up to the start of the timer. -/
theorem lockout_run {es : List LockoutEvent} (third : errCnt .register = 2)
    (run : Runs RestfulStep s₀ es ⟨.matchPsw .register, pc, now, errCnt, lock, timers⟩) :
    ∃ errCnt', errCnt' .register = 0 ∧
      Runs RestfulStep s₀ (.touch (.release .errRegThreadLock) :: .touch (.clearLock .register) :: .touch (.clearErrCnt .register) ::
        .touch (.testErrCnt .register true) :: .touch (.incErrCnt .register) :: .touch (.matchPsw .register 2) :: es)
        ⟨.timerStart .register, pc, now, errCnt', Function.update lock .register 0, timers⟩ := by
  have counted := touch_run (touch_run run .wrong rfl trivial) .wrongEntry rfl trivial
  have exceeded := touch_run counted .exceeded ⟨iff_of_true rfl (by simp [third]), rfl⟩ trivial
  have cleared := touch_run (touch_run exceeded .clearErrCnt rfl trivial) .clearLock rfl trivial
  exact ⟨_, Function.update_self .., touch_run cleared .wakeCountdown rfl trivial⟩

theorem Leads.timer (reaches : Leads s₀ ⟨p, pc, now, errCnt, lock, timers⟩) (waits : p.mayWait = true) :
    Leads s₀ ⟨p, (timerThreadStep now (pc, timers)).1, now, errCnt, timeoutFunc pc lock, (timerThreadStep now (pc, timers)).2⟩ := by
  obtain ⟨es, run⟩ := reaches
  have step : RestfulStep ⟨p, pc, now, errCnt, lock, timers⟩ .timerThread _ := ⟨trivial, .timerThread waits⟩
  exact ⟨_, run.snoc step⟩

/-- The timer thread takes the expired register timer off the list. -/
theorem Leads.expire (reaches : Leads s₀ ⟨p, .idle, now, errCnt, lock, timers⟩) (waits : p.mayWait = true)
    (alone : timers.list = [.register]) (seen : expired (rtTick now) (timers.timeoutTick .register) = true) :
    Leads s₀ ⟨p, .firing .register none, now, errCnt, lock, timers.remove .register⟩ := by
  have step : timerThreadStep now (.ticked now, timers) = (.firing .register none, timers.remove .register) := by
    have last : timers.next .register = none := by
      rw [SoftTimers.next, alone]
      rfl
    simp only [timerThreadStep, alone, List.head?_cons, checkNext, if_pos seen, last]
  have taken : Leads s₀ ⟨p, (timerThreadStep now (.ticked now, timers)).1, now, errCnt, lock, (timerThreadStep now (.ticked now, timers)).2⟩ :=
    (reaches.timer waits).timer waits
  rwa [step] at taken

/-- The call, and the restart of the periodic timer. -/
theorem Leads.call (reaches : Leads s₀ ⟨p, .firing .register none, now, errCnt, lock, timers⟩) (waits : p.mayWait = true)
    (again : (timers.periodic .register && timers.activated .register) = true) :
    Leads s₀ ⟨p, .idle, now, errCnt, Function.update lock .register 1, timers.rtTimerStart (rtTick now) .register⟩ := by
  have called := ((reaches.timer waits).timer waits).timer waits
  simp only [timerThreadStep, timeoutFunc, checkNext, SoftTimers.rearm, if_pos again] at called
  exact called

/-- The register timer alone, started at tick `tick`. -/
structure Alone (timers : SoftTimers Menu) (tick : UInt32) : Prop where
  list : timers.list = [.register]
  again : (timers.periodic .register && timers.activated .register) = true
  init : timers.initTick .register = 300000
  timeout : timers.timeoutTick .register = tick + 300000

theorem Alone.start {tick : UInt32} (empty : timers.list = []) (periodic : timers.periodic .register = true)
    (init : timers.initTick .register = 300000) : Alone (timers.rtTimerStart tick .register) tick where
  list := by simp [SoftTimers.rtTimerStart, empty, SoftTimers.insertSorted]
  again := by simp [SoftTimers.rtTimerStart, periodic]
  init := init
  timeout := by rw [SoftTimers.rtTimerStart_self, init]

/-- The first lockout of the register menu is a third wrong entry away. -/
theorem leads_thirdEntry : ∃ errCnt, errCnt .register = 2 ∧
    Leads .start ⟨.matchPsw .register, .idle, 4190, errCnt, fun _ => 1, LockoutState.start.timers⟩ := by
  have booted : Leads .start ⟨.scan, .idle, 0, fun _ => 0, fun _ => 1, LockoutState.start.timers⟩ := ⟨[], .nil⟩
  have scanned : Leads .start ⟨.delay, .idle, 0, fun _ => 0, fun _ => 1, LockoutState.start.timers⟩ := booted.tau .notPressed
  exact scanned.thirdEntry (by decide) rfl

/-- The first lockout of the register menu begins. -/
theorem first_lockout : ∃ es errCnt lock, errCnt .register = 0 ∧ lock .register = 0 ∧
    Runs RestfulStep .start (.touch (.timerStart .register) :: es)
      ⟨.wrongShown .register, .idle, 4190, errCnt, lock, LockoutState.start.timers.rtTimerStart (rtTick 4190) .register⟩ := by
  obtain ⟨errCnt, two, es, run⟩ := leads_thirdEntry
  obtain ⟨errCnt', zero, cleared⟩ := lockout_run two run
  have started := touch_run cleared .timerStart rfl (timerAtRest_idle rfl _)
  exact ⟨_, errCnt', Function.update (fun _ => 1) .register 0, zero, Function.update_self .., started⟩

theorem lockout_rule_firstLockout : ∃ es s, Runs RestfulStep .start es s ∧ s.lock .register = 0 ∧ LockoutRule .register es s := by
  obtain ⟨es, errCnt, lock, -, locked, run⟩ := first_lockout
  exact ⟨_, _, run, locked, lockout_rule .register run⟩

/-- The first lockout has ended after its 300000 ticks, and the timer is running again. -/
theorem reaches_firstExpiry :
    ∃ errCnt lock timers, Reaches ⟨.delay, .idle, 304190, errCnt, lock, timers⟩ ∧ errCnt .register = 0 ∧ lock .register = 1 ∧
      Alone timers (rtTick 304190) := by
  obtain ⟨es, errCnt, lock, zero, -, run⟩ := first_lockout
  set timers := LockoutState.start.timers.rtTimerStart (rtTick 4190) .register
  have alone : Alone timers (rtTick 4190) := .start rfl (by decide) rfl
  have shown : Leads .start ⟨.wrongShown .register, .idle, 4190, errCnt, lock, timers⟩ := ⟨_, run⟩
  have waited : Leads .start ⟨.delay, .idle, 304190, errCnt, lock, timers⟩ := shown.shown.idle 59599
  have called := (waited.expire rfl alone.list (by rw [alone.timeout]; decide)).call rfl alone.again
  have empty : (timers.remove .register).list = [] := by
    show timers.list.erase .register = []
    rw [alone.list]
    rfl
  exact ⟨_, _, _, called, zero, Function.update_self .., .start empty (by decide) alone.init⟩

/-- **A lockout that ends at once.** The next expiry of the running timer meets a third wrong
entry: the timer is off the list, its call still to come, when the flag is cleared and the
timer is started anew. The call then sets the flag. -/
theorem pending_call_unlocks : ∃ es s, Runs LockoutStep .start es s ∧ ¬ LockoutRule .register es s := by
  obtain ⟨errCnt, lock, timers, reached, zero, unlocked, alone⟩ := reaches_firstExpiry
  have waited := Leads.idle reached 59162
  obtain ⟨errCnt2, two, asked⟩ := waited.thirdEntry (by rw [unlocked]; decide) zero
  obtain ⟨es, run⟩ := (asked.expire rfl alone.list (by rw [alone.timeout]; decide)).ticks 1
  obtain ⟨errCnt3, -, cleared⟩ := lockout_run two run
  have anyStep : Runs LockoutStep .start _ _ := cleared.mono fun _ _ _ step => step.2
  refine ⟨_, _, anyStep.snoc (.touch .timerStart rfl), fun rule => ?_⟩
  have locked : Function.update lock .register 0 .register = 0 := Function.update_self ..
  have called : timeoutFunc (.firing .register none) (Function.update lock .register 0) .register ≠ 0 := by
    rw [timeoutFunc_firing]
    decide
  have early := rule.unlocks .timerThread _ (.timerThread rfl) locked called
  simp [ticksSinceLockout] at early

end EarlyUnlock

end DoorSecurity
