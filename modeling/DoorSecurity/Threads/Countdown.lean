import DoorSecurity.Threads.Lockout

/-!
# The countdown of a lockout

`err_reg_thread`, `err_del_thread` and `err_psd_thread` wait for their semaphore, which a
lockout releases, and then count a static counter down, one tick at a time. They leave
the loop when they see the lock flag set again, or by the test at its head when the
counter is 0. Only on the first way out is the counter set back.
-/

open Kernel

namespace DoorSecurity
set_option autoImplicit false
open Lts

inductive CountdownPc where
  | take
  /-- The head of the loop. -/
  | testTick
  | testLock
  /-- In `rt_thread_mdelay(1)`, until tick `wake`. -/
  | wait (wake : Nat)
  /-- In `rt_thread_mdelay(10)`. -/
  | delay (wake : Nat)
  deriving DecidableEq, Repr

/-- A countdown thread with its static counter and the text that `down_count` shows. -/
structure Countdown where
  pc : CountdownPc
  tick : UInt32
  remainTime : String

inductive CountdownLabel where
  | take
  /-- `rt_sem_take` came back with an error. -/
  | takeFailed
  | testTick (left : Bool)
  | testLock (unlocked : Bool)
  /-- The wait is over, and the counter and the text are brought up to date. -/
  | wait
  | delay
  deriving DecidableEq, Repr

/-- The call of `sprintf`. -/
def sprintfRemain (min sec : UInt8) : String := s!"Please try {min}min  {sec}sec later!   "

/-- The text for a counter. -/
def remainText (tick : UInt32) : String := sprintfRemain (tick / 1000 / 60).toUInt8 (tick / 1000 % 60).toUInt8

/-- The loop of a countdown thread at tick `now`, with the lock flag at `lock`. -/
inductive CountdownEdge (now : Nat) (lock : UInt8) : Countdown → CountdownLabel → Countdown → Prop
  | take {tick text} : CountdownEdge now lock ⟨.take, tick, text⟩ .take ⟨.testTick, tick, text⟩
  | takeFailed {tick text} : CountdownEdge now lock ⟨.take, tick, text⟩ .takeFailed ⟨.delay (now + 10), tick, text⟩
  | left {tick text} (left : tick ≠ 0) : CountdownEdge now lock ⟨.testTick, tick, text⟩ (.testTick true) ⟨.testLock, tick, text⟩
  | runDown {text} : CountdownEdge now lock ⟨.testTick, 0, text⟩ (.testTick false) ⟨.delay (now + 10), 0, text⟩
  | unlocked {tick text} (set : lock = 1) :
      CountdownEdge now lock ⟨.testLock, tick, text⟩ (.testLock true) ⟨.delay (now + 10), 300000, text⟩
  | locked {tick text} (clear : lock ≠ 1) : CountdownEdge now lock ⟨.testLock, tick, text⟩ (.testLock false) ⟨.wait (now + 1), tick, text⟩
  | wait {wake tick text} (due : wake ≤ now) :
      CountdownEdge now lock ⟨.wait wake, tick, text⟩ .wait ⟨.testTick, tick - 1, remainText (tick - 1)⟩
  | delay {wake tick text} (due : wake ≤ now) : CountdownEdge now lock ⟨.delay wake, tick, text⟩ .delay ⟨.take, tick, text⟩

/-- `touch_thread`, the timers and the three countdown threads. -/
structure CountdownState where
  lockout : LockoutState
  /-- The values of `err_reg_thread_lock`, `err_del_thread_lock` and `err_psd_thread_lock`. -/
  value : Menu → Nat
  thread : Menu → Countdown

/-- After `Door_Security_Demo`. -/
def CountdownState.start : CountdownState where
  lockout := .start
  value _ := 0
  thread _ := ⟨.take, 300000, ""⟩

/-- A countdown thread over its own semaphore, flag, counter and text. -/
inductive ErrThread (menu : Menu) : CountdownState → CountdownLabel → CountdownState → Prop
  | take {s : CountdownState} {c : Countdown} (free : 0 < s.value menu)
      (edge : CountdownEdge s.lockout.now (s.lockout.lock menu) (s.thread menu) .take c) :
      ErrThread menu s .take
        { s with value := Function.update s.value menu (s.value menu - 1), thread := Function.update s.thread menu c }
  | other {s : CountdownState} {l : CountdownLabel} {c : Countdown} (other : l ≠ .take)
      (edge : CountdownEdge s.lockout.now (s.lockout.lock menu) (s.thread menu) l c) :
      ErrThread menu s l { s with thread := Function.update s.thread menu c }

/-- `err_reg_thread`. -/
def errRegThread : CountdownState → CountdownLabel → CountdownState → Prop := ErrThread .register

/-- `err_del_thread`. -/
def errDelThread : CountdownState → CountdownLabel → CountdownState → Prop := ErrThread .delete

/-- `err_psd_thread`. -/
def errPsdThread : CountdownState → CountdownLabel → CountdownState → Prop := ErrThread .setPsw

def Menu.errThread : Menu → CountdownState → CountdownLabel → CountdownState → Prop
  | .register => errRegThread
  | .delete => errDelThread
  | .setPsw => errPsdThread

/-- What an event does to the semaphores. -/
def LockoutEvent.released : LockoutEvent → (Menu → Nat) → Menu → Nat
  | .touch l, value, menu => if l = .release menu.errThreadLock then value menu + 1 else value menu
  | _, value, menu => value menu

inductive CountdownEvent where
  | lockout (e : LockoutEvent)
  | countdown (menu : Menu) (l : CountdownLabel)

/-- Any interleaving. -/
inductive CountdownStep : CountdownState → CountdownEvent → CountdownState → Prop
  | lockout {s : CountdownState} {e : LockoutEvent} {after : LockoutState} (step : LockoutStep s.lockout e after) :
      CountdownStep s (.lockout e) { s with lockout := after, value := e.released s.value }
  | countdown {s s' : CountdownState} {menu : Menu} {l : CountdownLabel} (step : menu.errThread s l s') :
      CountdownStep s (.countdown menu l) s'

section Rule

/-- The waits that the thread of `menu` has completed since it took its semaphore. -/
def waitsDone (menu : Menu) : List CountdownEvent → Nat
  | [] => 0
  | .countdown a .take :: es => if a = menu then 0 else waitsDone menu es
  | .countdown a .wait :: es => if a = menu then waitsDone menu es + 1 else waitsDone menu es
  | _ :: es => waitsDone menu es

/-- The thread of `menu` has left its loop by the test at the head: its counter was 0 before
it saw the flag set. -/
def RunDown (menu : Menu) (es : List CountdownEvent) : Prop := .countdown menu (.testTick false) ∈ es

/-- The text for `ms` milliseconds. -/
def remaining (ms : Nat) : String := s!"Please try {ms / 60000}min  {ms / 1000 % 60}sec later!   "

/-- The points outside the loop. -/
def CountdownPc.left : CountdownPc → Prop
  | .take | .delay _ => True
  | _ => False

/-- What the countdown of `menu` promises of a state that a run reaches. -/
structure CountdownRule (menu : Menu) (es : List CountdownEvent) (s : CountdownState) : Prop where
  /-- A new lockout finds the whole time. -/
  fresh : es.head? = some (.countdown menu .take) → (s.thread menu).tick = 300000
  /-- In the loop the counter and the waits make up the whole time. -/
  counted : ¬ (s.thread menu).pc.left → (s.thread menu).tick.toNat + waitsDone menu es = 300000
  noUnderflow : ∀ s', CountdownStep s (.countdown menu .wait) s' → (s.thread menu).tick ≠ 0
  within : waitsDone menu es ≤ 300000
  /-- From the first wait on, or from where the loop is left if there is none. -/
  shown : 0 < waitsDone menu es ∨ (.countdown menu .take ∈ es ∧ (s.thread menu).pc.left) →
    (s.thread menu).remainTime = remaining (300000 - waitsDone menu es)

/-- The thread of `menu` has taken its semaphore after its counter had been run down. -/
def TakenRunDown (menu : Menu) : List CountdownEvent → Prop :=
  Since (fun _ => True) fun e es => e = .countdown menu .take ∧ RunDown menu es

/-- The thread of `menu` saw the flag set before the first wait of the lockout that it took last. -/
def LeftAtOnce (menu : Menu) : List CountdownEvent → Prop :=
  Since (· ≠ .countdown menu .take) fun e es => e = .countdown menu (.testLock true) ∧ waitsDone menu es = 0

end Rule

section Invariant

variable {menu : Menu} {es : List CountdownEvent} {s s' : CountdownState} {c c' : Countdown} {l : CountdownLabel}

theorem Menu.errThread_eq (menu : Menu) : menu.errThread = ErrThread menu := by
  cases menu <;> rfl

theorem remaining_minutes {ms : Nat} (bound : ms / 60000 < 10) : (remaining ms).toList[11]? = some (ms / 60000).digitChar := by
  have text : (toString "Please try ").toList = "Please try ".toList := rfl
  have minutes : (toString (ms / 60000)).toList = [(ms / 60000).digitChar] := by
    rw [Nat.toString_eq_repr, Nat.toList_repr, Nat.toDigits_of_lt_base bound]
  have length : "Please try ".toList.length = 11 := rfl
  simp only [remaining, String.toList_append, List.append_assoc, text, minutes]
  rw [List.getElem?_append_right length.le, length]
  rfl

/-- The whole time is never shown: the first text comes after the first wait. -/
theorem remaining_ne {ms : Nat} (less : ms < 300000) : remaining ms ≠ remaining 300000 := by
  intro same
  have digit : (ms / 60000).digitChar = (300000 / 60000).digitChar := by
    apply Option.some_injective
    rw [← remaining_minutes (by omega), ← remaining_minutes (by decide), same]
  have code := congrArg Char.toNat digit
  rw [Nat.toNat_digitChar_of_lt_ten (by omega), Nat.toNat_digitChar_of_lt_ten (by decide)] at code
  omega

/-- The points inside the loop after its test. -/
def CountdownPc.counting : CountdownPc → Prop
  | .testLock | .wait _ => True
  | _ => False

/-- The counter after `waits` waits of a countdown that began with the whole time. -/
def Countdown.Counted (waits : Nat) (c : Countdown) : Prop :=
  match c.pc with
  | .take | .delay _ => c.tick = 300000
  | .testTick => c.tick.toNat + waits = 300000
  | .testLock | .wait _ => c.tick.toNat + waits = 300000 ∧ c.tick ≠ 0

structure CountdownSound (menu : Menu) (es : List CountdownEvent) (c : Countdown) : Prop where
  counted : ¬ RunDown menu es → c.Counted (waitsDone menu es)
  /-- A counter that has once been run down stays at 0. -/
  runDown : RunDown menu es → c.tick = 0 ∧ ¬ c.pc.counting
  within : waitsDone menu es ≤ 300000
  shown : 0 < waitsDone menu es → c.remainTime = remaining (300000 - waitsDone menu es)
  behind : c.remainTime ≠ remaining 300000

theorem CountdownSound.start (menu : Menu) : CountdownSound menu [] ⟨.take, 300000, ""⟩ where
  counted _ := rfl
  runDown down := absurd down List.not_mem_nil
  within := Nat.zero_le _
  shown waits := absurd waits (Nat.lt_irrefl 0)
  behind same := by
    have digit := @remaining_minutes 300000 (by decide)
    rw [← same] at digit
    cases digit

theorem runDown_cons {e : CountdownEvent} : RunDown menu (e :: es) ↔ e = .countdown menu (.testTick false) ∨ RunDown menu es := by
  unfold RunDown
  rw [List.mem_cons]
  exact or_congr_left eq_comm

/-- Only the test of its own loop runs a counter down. -/
theorem runDown_other {e : CountdownEvent} (other : e ≠ .countdown menu (.testTick false)) : RunDown menu (e :: es) ↔ RunDown menu es := by
  rw [runDown_cons]
  exact or_iff_right other

theorem toNat_minutes {tick : UInt32} (bound : tick.toNat ≤ 300000) : (tick / 1000 / 60).toUInt8.toNat = tick.toNat / 60000 := by
  have thousand : (1000 : UInt32).toNat = 1000 := rfl
  have sixty : (60 : UInt32).toNat = 60 := rfl
  rw [UInt32.toNat_toUInt8, UInt32.toNat_div, UInt32.toNat_div, thousand, sixty]
  omega

theorem toNat_seconds (tick : UInt32) : (tick / 1000 % 60).toUInt8.toNat = tick.toNat / 1000 % 60 := by
  have thousand : (1000 : UInt32).toNat = 1000 := rfl
  have sixty : (60 : UInt32).toNat = 60 := rfl
  rw [UInt32.toNat_toUInt8, UInt32.toNat_mod, UInt32.toNat_div, thousand, sixty]
  omega

theorem sprintfRemain_eq (min sec : UInt8) : sprintfRemain min sec = s!"Please try {min.toNat}min  {sec.toNat}sec later!   " := rfl

/-- The text is that of the milliseconds in the counter. -/
theorem remainText_eq {tick : UInt32} (bound : tick.toNat ≤ 300000) : remainText tick = remaining tick.toNat := by
  rw [remainText, sprintfRemain_eq, toNat_minutes bound, toNat_seconds, remaining]

theorem toNat_pred {tick : UInt32} (left : tick ≠ 0) : (tick - 1).toNat = tick.toNat - 1 := by
  have positive : tick.toNat ≠ 0 := fun zero => left (UInt32.toNat_inj.mp zero)
  apply UInt32.toNat_sub_of_le
  rw [UInt32.le_iff_toNat_le]
  show 1 ≤ tick.toNat
  omega

theorem CountdownSound.counting_left (sound : CountdownSound menu es c) (counting : c.pc.counting) : ¬ RunDown menu es :=
  fun down => (sound.runDown down).2 counting

/-- **One step of the thread.** -/
theorem CountdownSound.edge {now : Nat} {lock : UInt8} (sound : CountdownSound menu es c) (edge : CountdownEdge now lock c l c') :
    CountdownSound menu (.countdown menu l :: es) c' := by
  have same (other : l ≠ .testTick false) : RunDown menu (.countdown menu l :: es) ↔ RunDown menu es :=
    runDown_other fun own => other (CountdownEvent.countdown.inj own).2
  cases edge with
  | take =>
    have waits : waitsDone menu (.countdown menu .take :: es) = 0 := if_pos rfl
    refine ⟨fun fresh => ?_, fun down => ?_, ?_, ?_, sound.behind⟩
    · have whole := sound.counted (mt (same nofun).mpr fresh)
      rw [waits]
      exact congrArg UInt32.toNat whole
    · exact ⟨(sound.runDown ((same nofun).mp down)).1, id⟩
    · rw [waits]
      exact Nat.zero_le _
    · intro none
      rw [waits] at none
      exact absurd none (Nat.lt_irrefl 0)
  | @wait wake tick text due =>
    have fresh := sound.counting_left trivial
    obtain ⟨counted, left⟩ := sound.counted fresh
    have waits : waitsDone menu (.countdown menu .wait :: es) = waitsDone menu es + 1 := if_pos rfl
    have pred := toNat_pred left
    have positive : tick.toNat ≠ 0 := fun zero => left (UInt32.toNat_inj.mp zero)
    have counted : tick.toNat + waitsDone menu es = 300000 := counted
    have rest : (tick - 1).toNat = 300000 - (waitsDone menu es + 1) := by
      rw [pred]
      omega
    have text : remainText (tick - 1) = remaining (300000 - (waitsDone menu es + 1)) := by
      rw [← rest]
      exact remainText_eq (by omega)
    refine ⟨fun _ => ?_, fun down => absurd ((same nofun).mp down) fresh, ?_, fun _ => ?_, ?_⟩
    · show (tick - 1).toNat + waitsDone menu (.countdown menu .wait :: es) = 300000
      rw [waits, rest]
      omega
    · rw [waits]
      omega
    · rw [waits]
      exact text
    · show remainText (tick - 1) ≠ remaining 300000
      rw [text]
      exact remaining_ne (by omega)
  | @left tick text left =>
    refine ⟨fun fresh => ?_, fun down => ?_, sound.within, sound.shown, sound.behind⟩
    · exact ⟨sound.counted (mt (same (by decide)).mpr fresh), left⟩
    · exact absurd (sound.runDown ((same (by decide)).mp down)).1 left
  | runDown =>
    refine ⟨fun fresh => ?_, fun _ => ⟨rfl, id⟩, sound.within, sound.shown, sound.behind⟩
    exact absurd (runDown_cons.mpr (.inl rfl)) fresh
  | unlocked set =>
    have fresh := sound.counting_left trivial
    exact ⟨fun _ => rfl, fun down => absurd ((same nofun).mp down) fresh, sound.within, sound.shown, sound.behind⟩
  | locked clear =>
    have fresh := sound.counting_left trivial
    exact ⟨fun _ => sound.counted fresh, fun down => absurd ((same nofun).mp down) fresh, sound.within, sound.shown, sound.behind⟩
  | takeFailed | delay due =>
    refine ⟨fun fresh => ?_, fun down => ?_, sound.within, sound.shown, sound.behind⟩
    · exact sound.counted (mt (same nofun).mpr fresh)
    · exact ⟨(sound.runDown ((same nofun).mp down)).1, id⟩

/-- What the touch thread, the clock and the timers do leaves the countdown. -/
theorem CountdownSound.lockout {e : LockoutEvent} (sound : CountdownSound menu es c) : CountdownSound menu (.lockout e :: es) c := by
  have same : RunDown menu (.lockout e :: es) ↔ RunDown menu es := runDown_other nofun
  exact ⟨fun fresh => sound.counted (mt same.mpr fresh), fun down => sound.runDown (same.mp down), sound.within, sound.shown, sound.behind⟩

/-- So does the thread of another menu. -/
theorem CountdownSound.elsewhere {a : Menu} (sound : CountdownSound menu es c) (other : a ≠ menu) :
    CountdownSound menu (.countdown a l :: es) c := by
  have same : RunDown menu (.countdown a l :: es) ↔ RunDown menu es := runDown_other fun own => other (CountdownEvent.countdown.inj own).1
  have waits : waitsDone menu (.countdown a l :: es) = waitsDone menu es := by
    cases l with
    | take | wait => exact if_neg other
    | _ => rfl
  refine ⟨fun fresh => ?_, fun down => sound.runDown (same.mp down), ?_, ?_, sound.behind⟩
  · rw [waits]
    exact sound.counted (mt same.mpr fresh)
  · rw [waits]
    exact sound.within
  · rw [waits]
    exact sound.shown

theorem TakenRunDown.runDown (taken : TakenRunDown menu es) : RunDown menu es := by
  induction es with
  | nil => exact taken.elim
  | cons e es ih =>
    rcases taken with ⟨-, down⟩ | ⟨-, earlier⟩
    · exact List.mem_cons_of_mem e down
    · exact List.mem_cons_of_mem e (ih earlier)

theorem TakenRunDown.taken (taken : TakenRunDown menu es) : .countdown menu .take ∈ es := by
  induction es with
  | nil => exact taken.elim
  | cons e es ih =>
    rcases taken with ⟨rfl, -⟩ | ⟨-, earlier⟩
    · exact List.mem_cons_self
    · exact List.mem_cons_of_mem e (ih earlier)

theorem takenRunDown_other {e : CountdownEvent} (other : e ≠ .countdown menu .take) :
    TakenRunDown menu (e :: es) ↔ TakenRunDown menu es := by
  constructor
  · rintro (⟨own, -⟩ | ⟨-, earlier⟩)
    · exact absurd own other
    · exact earlier
  · exact fun earlier => earlier.still trivial

theorem leftAtOnce_other {e : CountdownEvent} (took : e ≠ .countdown menu .take) (saw : e ≠ .countdown menu (.testLock true)) :
    LeftAtOnce menu (e :: es) ↔ LeftAtOnce menu es := by
  constructor
  · rintro (⟨own, -⟩ | ⟨-, earlier⟩)
    · exact absurd own saw
    · exact earlier
  · exact fun earlier => earlier.still took

/-- Where the thread stands after the ways that its loop has been left. -/
structure CountdownPast (menu : Menu) (es : List CountdownEvent) (c : Countdown) : Prop where
  taken : ¬ c.pc.left → .countdown menu .take ∈ es
  noWait : TakenRunDown menu es → waitsDone menu es = 0
  stopped : RunDown menu es → ¬ TakenRunDown menu es → c.pc.left
  atOnce : LeftAtOnce menu es → c.pc.left ∧ waitsDone menu es = 0 ∧ .countdown menu .take ∈ es
  cause : .countdown menu .take ∈ es → c.pc.left → waitsDone menu es = 0 → TakenRunDown menu es ∨ LeftAtOnce menu es

theorem CountdownPast.start (menu : Menu) : CountdownPast menu [] ⟨.take, 300000, ""⟩ where
  taken inside := absurd trivial inside
  noWait := False.elim
  stopped _ _ := trivial
  atOnce := False.elim
  cause member := absurd member List.not_mem_nil

/-- The events that the ways out are told by. -/
def CountdownEvent.Tells (menu : Menu) (e : CountdownEvent) : Prop :=
  e = .countdown menu .take ∨ e = .countdown menu .wait ∨ e = .countdown menu (.testTick false) ∨ e = .countdown menu (.testLock true)

theorem waitsDone_other {e : CountdownEvent} (took : e ≠ .countdown menu .take) (waited : e ≠ .countdown menu .wait) :
    waitsDone menu (e :: es) = waitsDone menu es := by
  cases e with
  | lockout e => rfl
  | countdown a l =>
    cases l with
    | take => exact if_neg fun own : a = menu => took (by rw [own])
    | wait => exact if_neg fun own : a = menu => waited (by rw [own])
    | _ => rfl

/-- All other events leave them as they are. -/
theorem CountdownPast.quiet {e : CountdownEvent} (past : CountdownPast menu es c) (quiet : ¬ e.Tells menu) (here : c'.pc.left ↔ c.pc.left) :
    CountdownPast menu (e :: es) c' := by
  simp only [CountdownEvent.Tells, not_or] at quiet
  obtain ⟨took, waited, ran, saw⟩ := quiet
  have waits : waitsDone menu (e :: es) = waitsDone menu es := waitsDone_other took waited
  have member : .countdown menu .take ∈ e :: es ↔ .countdown menu .take ∈ es := by
    rw [List.mem_cons]
    exact or_iff_right (Ne.symm took)
  refine ⟨?_, ?_, ?_, ?_, ?_⟩
  · rw [here, member]
    exact past.taken
  · rw [takenRunDown_other took, waits]
    exact past.noWait
  · rw [runDown_other ran, takenRunDown_other took, here]
    exact past.stopped
  · rw [leftAtOnce_other took saw, here, waits, member]
    exact past.atOnce
  · rw [member, here, waits, takenRunDown_other took, leftAtOnce_other took saw]
    exact past.cause

/-- **One step of the thread**, on the ways out. -/
theorem CountdownPast.edge {now : Nat} {lock : UInt8} (past : CountdownPast menu es c) (sound : CountdownSound menu es c)
    (edge : CountdownEdge now lock c l c') : CountdownPast menu (.countdown menu l :: es) c' := by
  cases edge with
  | take =>
    have waits : waitsDone menu (.countdown menu .take :: es) = 0 := if_pos rfl
    refine ⟨fun _ => List.mem_cons_self, fun _ => waits, fun down once => ?_, ?_, fun _ left => left.elim⟩
    · exact absurd (.now ⟨rfl, (runDown_other (by simp)).mp down⟩) once
    · rintro (⟨own, -⟩ | ⟨took, -⟩)
      · cases own
      · exact absurd rfl took
  | wait due =>
    have fresh := sound.counting_left trivial
    refine ⟨fun _ => List.mem_cons_of_mem _ (past.taken id), ?_, fun down => ?_, ?_, fun _ left => left.elim⟩
    · rw [takenRunDown_other (by simp)]
      exact fun again => absurd again.runDown fresh
    · exact absurd ((runDown_other (by simp)).mp down) fresh
    · rw [leftAtOnce_other (by simp) (by simp)]
      exact fun atOnce => (past.atOnce atOnce).1.elim
  | runDown =>
    have waits : waitsDone menu (.countdown menu (.testTick false) :: es) = waitsDone menu es := waitsDone_other (by simp) (by simp)
    refine ⟨fun inside => absurd trivial inside, ?_, fun _ _ => trivial, ?_, fun _ _ none => .inl ?_⟩
    · rw [takenRunDown_other (by simp), waits]
      exact past.noWait
    · rw [leftAtOnce_other (by simp) (by simp)]
      exact fun atOnce => (past.atOnce atOnce).1.elim
    · -- without a wait, the counter was 0 when the semaphore was taken
      rw [takenRunDown_other (by simp)]
      by_contra once
      have fresh : ¬ RunDown menu es := fun down => past.stopped down once
      have counted : (0 : UInt32).toNat + waitsDone menu es = 300000 := sound.counted fresh
      rw [waits] at none
      rw [none] at counted
      cases counted
  | unlocked set =>
    have fresh := sound.counting_left trivial
    have waits : waitsDone menu (.countdown menu (.testLock true) :: es) = waitsDone menu es := waitsDone_other (by simp) (by simp)
    have taken := List.mem_cons_of_mem (.countdown menu (.testLock true)) (past.taken id)
    refine ⟨fun inside => absurd trivial inside, ?_, fun _ _ => trivial, ?_, fun _ _ none => .inr (.now ⟨rfl, waits ▸ none⟩)⟩
    · rw [takenRunDown_other (by simp)]
      exact fun again => absurd again.runDown fresh
    · rintro (⟨-, none⟩ | ⟨-, earlier⟩)
      · exact ⟨trivial, waits.trans none, taken⟩
      · exact (past.atOnce earlier).1.elim
  | left _ | locked _ | takeFailed | delay _ => exact past.quiet (by simp [CountdownEvent.Tells]) Iff.rfl

theorem CountdownEdge.take_pc {now : Nat} {lock : UInt8} (edge : CountdownEdge now lock c .take c') : c'.pc = .testTick := by
  cases edge
  rfl

theorem CountdownEdge.wait_pc {now : Nat} {lock : UInt8} (edge : CountdownEdge now lock c .wait c') : ∃ wake, c.pc = .wait wake := by
  cases edge with
  | wait due => exact ⟨_, rfl⟩

theorem CountdownSound.inside (sound : CountdownSound menu es c) (fresh : ¬ RunDown menu es) (inside : ¬ c.pc.left) :
    c.tick.toNat + waitsDone menu es = 300000 := by
  have counted := sound.counted fresh
  unfold Countdown.Counted at counted
  cases here : c.pc with
  | take | delay wake =>
    rw [here] at inside
    exact absurd trivial inside
  | testTick =>
    rw [here] at counted
    exact counted
  | testLock | wait wake =>
    rw [here] at counted
    exact counted.1

theorem waitsDone_taken (took : es.head? = some (.countdown menu .take)) : waitsDone menu es = 0 := by
  cases es with
  | nil => cases took
  | cons e es =>
    cases Option.some_injective _ took
    exact if_pos rfl

theorem CountdownSound.noUnderflow {wake : Nat} (sound : CountdownSound menu es c) (waiting : c.pc = .wait wake) : c.tick ≠ 0 := by
  have once : ¬ RunDown menu es := sound.counting_left (by rw [waiting]; trivial)
  have counted := sound.counted once
  rw [Countdown.Counted, waiting] at counted
  exact counted.2

/-- A step of a countdown thread is an edge of its loop, and leaves the other threads. -/
theorem ErrThread.spec {a : Menu} (step : ErrThread a s l s') :
    CountdownEdge s.lockout.now (s.lockout.lock a) (s.thread a) l (s'.thread a) ∧ ∀ b, b ≠ a → s'.thread b = s.thread b := by
  cases step with
  | take free edge | other other edge =>
    constructor
    · simpa only [Function.update_self] using edge
    · intro b other
      exact Function.update_of_ne other _ _

/-- **One step of the system.** -/
theorem CountdownSound.step {e : CountdownEvent} (sound : CountdownSound menu es (s.thread menu)) (step : CountdownStep s e s') :
    CountdownSound menu (e :: es) (s'.thread menu) := by
  cases step with
  | lockout step => exact sound.lockout
  | @countdown _ a l step =>
    rw [a.errThread_eq] at step
    obtain ⟨edge, others⟩ := step.spec
    by_cases own : a = menu
    · subst own
      exact sound.edge edge
    · rw [others menu (Ne.symm own)]
      exact sound.elsewhere own

theorem CountdownPast.step {e : CountdownEvent} (past : CountdownPast menu es (s.thread menu)) (sound : CountdownSound menu es (s.thread menu))
    (step : CountdownStep s e s') : CountdownPast menu (e :: es) (s'.thread menu) := by
  cases step with
  | lockout step => exact past.quiet (by simp [CountdownEvent.Tells]) Iff.rfl
  | @countdown _ a l step =>
    rw [a.errThread_eq] at step
    obtain ⟨edge, others⟩ := step.spec
    by_cases own : a = menu
    · subst own
      exact past.edge sound edge
    · rw [others menu (Ne.symm own)]
      exact past.quiet (by simp [CountdownEvent.Tells, own]) Iff.rfl

/-- Where the thread of `menu` stands when it does `l`. -/
theorem CountdownStep.edge (step : CountdownStep s (.countdown menu l) s') :
    CountdownEdge s.lockout.now (s.lockout.lock menu) (s.thread menu) l (s'.thread menu) := by
  cases step with
  | countdown step =>
    rw [menu.errThread_eq] at step
    exact step.spec.1

end Invariant

theorem countdown_sound (menu : Menu) {es : List CountdownEvent} {s : CountdownState} (run : Runs CountdownStep .start es s) :
    CountdownSound menu es (s.thread menu) ∧ CountdownPast menu es (s.thread menu) := by
  induction run with
  | nil => exact ⟨.start menu, .start menu⟩
  | snoc before last ih =>
    obtain ⟨sound, past⟩ := ih
    exact ⟨sound.step last, past.step sound last⟩

/-- After a take the thread stands at the head of its loop. -/
theorem taken_testTick {menu : Menu} {es : List CountdownEvent} {s : CountdownState} (run : Runs CountdownStep .start es s)
    (took : es.head? = some (.countdown menu .take)) : (s.thread menu).pc = .testTick := by
  cases run with
  | nil => cases took
  | snoc before last =>
    cases Option.some_injective _ took
    exact last.edge.take_pc

/-- **The countdown**, in every run: all that it promises holds of a state that a run reaches
if and only if the thread has not taken its semaphore after a run-down, and did not leave its
last lockout at the first look at the flag. -/
theorem countdown_rule_iff (menu : Menu) {es : List CountdownEvent} {s : CountdownState} (run : Runs CountdownStep .start es s) :
    CountdownRule menu es s ↔ ¬ TakenRunDown menu es ∧ ¬ LeftAtOnce menu es := by
  obtain ⟨sound, past⟩ := countdown_sound menu run
  constructor
  · intro rule
    have behind (taken : .countdown menu .take ∈ es) (left : (s.thread menu).pc.left) (none : waitsDone menu es = 0) : False := by
      have shown := rule.shown (.inr ⟨taken, left⟩)
      rw [none] at shown
      exact sound.behind shown
    constructor
    · intro again
      have none := past.noWait again
      by_cases left : (s.thread menu).pc.left
      · exact behind again.taken left none
      · have counted := rule.counted left
        rw [none, (sound.runDown again.runDown).1] at counted
        cases counted
    · intro atOnce
      obtain ⟨left, none, taken⟩ := past.atOnce atOnce
      exact behind taken left none
  · rintro ⟨once, waited⟩
    have counted (inside : ¬ (s.thread menu).pc.left) : (s.thread menu).tick.toNat + waitsDone menu es = 300000 :=
      sound.inside (fun down => inside (past.stopped down once)) inside
    refine ⟨fun took => ?_, counted, fun s' step => ?_, sound.within, ?_⟩
    · have here := taken_testTick run took
      have whole := counted (by rw [here]; exact id)
      rw [waitsDone_taken took] at whole
      exact UInt32.toNat_inj.mp whole
    · obtain ⟨wake, waiting⟩ := step.edge.wait_pc
      exact sound.noUnderflow waiting
    · rintro (some | ⟨taken, left⟩)
      · exact sound.shown some
      · apply sound.shown
        by_contra none
        exact (past.cause taken left (Nat.eq_zero_of_not_pos none)).elim once waited

section SecondLockout

/-- A run reaches `s` with the register countdown at `pc` and its counter at `tick`. -/
def Counts (s : LockoutState) (pc : CountdownPc) (tick : UInt32) : Prop :=
  ∃ es value thread text, thread .register = ⟨pc, tick, text⟩ ∧ Runs CountdownStep .start es ⟨s, value, thread⟩

variable {s₀ s : LockoutState} {before : List CountdownEvent} {value : Menu → Nat} {thread : Menu → Countdown} {pc pc' : CountdownPc}
  {tick tick' : UInt32} {l : CountdownLabel}

/-- The countdown threads may wait while the rest goes on. -/
theorem lift_run {es : List LockoutEvent} (counts : Runs CountdownStep .start before ⟨s₀, value, thread⟩) (run : Runs LockoutStep s₀ es s) :
    Runs CountdownStep .start (es.map .lockout ++ before) ⟨s, es.foldr LockoutEvent.released value, thread⟩ := by
  induction run with
  | nil => exact counts
  | snoc _ last ih => exact ih.snoc (.lockout last)

theorem Counts.follow (counts : Counts s₀ pc tick) (leads : Leads s₀ s) : Counts s pc tick := by
  obtain ⟨before, value, thread, text, here, counts⟩ := counts
  obtain ⟨es, run⟩ := leads
  exact ⟨_, _, thread, text, here, lift_run counts (run.mono fun _ _ _ step => step.2)⟩

theorem Counts.edge (counts : Counts s pc tick)
    (edge : ∀ text, ∃ text', CountdownEdge s.now (s.lock .register) ⟨pc, tick, text⟩ l ⟨pc', tick', text'⟩) (other : l ≠ .take) :
    Counts s pc' tick' := by
  obtain ⟨before, value, thread, text, here, counts⟩ := counts
  obtain ⟨text', edge⟩ := edge text
  have step : CountdownStep ⟨s, value, thread⟩ (.countdown .register l) _ := .countdown (.other other (here ▸ edge))
  exact ⟨_, _, _, text', Function.update_self .., counts.snoc step⟩

variable {p : TouchPc} {timer : TimerPc Menu} {now : Nat} {errCnt lock : Menu → UInt8} {timers : SoftTimers Menu}

/-- The test of the loop and of the flag, and the next wait. -/
theorem Counts.again (counts : Counts s .testTick tick) (left : tick ≠ 0) (locked : s.lock .register ≠ 1) :
    Counts s (.wait (s.now + 1)) tick := by
  have tested : Counts s .testLock tick := counts.edge (fun text => ⟨text, .left left⟩) (by decide)
  exact tested.edge (fun text => ⟨text, .locked locked⟩) (by decide)

theorem ofNat_pred (n : Nat) : UInt32.ofNat (n + 1) - 1 = UInt32.ofNat n := by
  rw [UInt32.ofNat_add]
  exact UInt32.add_sub_cancel _ _

theorem ofNat_ne_zero {n : Nat} (positive : 0 < n) (bound : n ≤ 300000) : UInt32.ofNat n ≠ 0 := by
  intro zero
  have same := congrArg UInt32.toNat zero
  rw [UInt32.toNat_ofNat_of_lt' (by show n < 4294967296; omega)] at same
  exact positive.ne' same

theorem Counts.waited {wake n : Nat} (counts : Counts s (.wait wake) (.ofNat (n + 1))) (due : wake ≤ s.now) :
    Counts s .testTick (.ofNat n) := by
  rw [← ofNat_pred n]
  exact counts.edge (fun text => ⟨_, .wait due⟩) (by decide)

/-- Waits of one tick each, on time, while `touch_thread` waits itself. -/
theorem Counts.waits {n : Nat} (k : Nat) (counts : Counts ⟨p, timer, now, errCnt, lock, timers⟩ (.wait (now + 1)) (.ofNat (n + k)))
    (locked : lock .register ≠ 1) (positive : 0 < n) (bound : n + k ≤ 300000) :
    Counts ⟨p, timer, now + k, errCnt, lock, timers⟩ (.wait (now + k + 1)) (.ofNat n) := by
  induction k generalizing n with
  | zero => exact counts
  | succ k ih =>
    have waiting : Counts ⟨p, timer, now + k, errCnt, lock, timers⟩ (.wait (now + k + 1)) (.ofNat (n + 1)) :=
      ih (by rwa [Nat.add_right_comm]) (by omega) (by omega)
    have waited := (waiting.follow (Leads.refl.ticks 1)).waited (Nat.le_refl _)
    exact waited.again (ofNat_ne_zero positive (by omega)) locked

/-- The same while the screen is scanned every 5 ticks. -/
theorem Counts.idle {n : Nat} (k : Nat) (counts : Counts ⟨.delay, timer, now, errCnt, lock, timers⟩ (.wait (now + 1)) (.ofNat (n + 5 * k)))
    (locked : lock .register ≠ 1) (positive : 0 < n) (bound : n + 5 * k ≤ 300000) :
    Counts ⟨.delay, timer, now + 5 * k, errCnt, lock, timers⟩ (.wait (now + 5 * k + 1)) (.ofNat n) := by
  induction k generalizing n with
  | zero => exact counts
  | succ k ih =>
    have waiting := ih (n := n + 5) (by rwa [Nat.add_assoc, Nat.add_comm 5]) (by omega) (by omega)
    have waited := waiting.waits 5 locked positive (by omega)
    have here : Leads ⟨.delay, timer, now + 5 * k + 5, errCnt, lock, timers⟩ ⟨.delay, timer, now + 5 * k + 5, errCnt, lock, timers⟩ := .refl
    exact waited.follow ((here.tau .delay).tau .notPressed)

/-- A third wrong entry: the countdown thread is woken, and takes its semaphore. -/
theorem lockout_take {text : String} (two : errCnt .register = 2) (here : thread .register = ⟨.take, tick, text⟩)
    (run : Runs CountdownStep .start before ⟨⟨.matchPsw .register, .idle, now, errCnt, lock, timers⟩, value, thread⟩) :
    ∃ (es : List LockoutEvent) (s s' : CountdownState) (errCnt' : Menu → UInt8), Runs CountdownStep .start (es.map .lockout ++ before) s ∧
      CountdownStep s (.countdown .register .take) s' ∧ (s.thread .register).tick = tick ∧ errCnt' .register = 0 ∧
      s'.thread .register = ⟨.testTick, tick, text⟩ ∧
      s'.lockout = ⟨.wrongShown .register, .idle, now, errCnt', Function.update lock .register 0, timers.rtTimerStart (rtTick now) .register⟩ := by
  have asked : Runs RestfulStep _ [] ⟨.matchPsw .register, .idle, now, errCnt, lock, timers⟩ := .nil
  obtain ⟨errCnt', zero, cleared⟩ := lockout_run two asked
  have started := touch_run cleared .timerStart rfl (timerAtRest_idle rfl _)
  have woken := lift_run run (started.mono fun _ _ _ step => step.2)
  have edge : CountdownEdge now (Function.update lock .register 0 .register) (thread .register) .take ⟨.testTick, tick, text⟩ := by
    rw [here]
    exact .take
  have there : Function.update thread .register (⟨.testTick, tick, text⟩ : Countdown) .register = ⟨.testTick, tick, text⟩ := Function.update_self ..
  exact ⟨_, _, _, errCnt', woken, .countdown (.take (Nat.succ_pos _) edge), congrArg Countdown.tick here, zero, there, rfl⟩

/-- The lockout events alone run no counter down. -/
theorem not_runDown_lockout (menu : Menu) (es : List LockoutEvent) : ¬ RunDown menu (es.map .lockout) := by
  intro down
  obtain ⟨e, -, event⟩ := List.mem_map.mp down
  cases event

theorem first_run {es : List LockoutEvent} (run : Runs RestfulStep .start es s) :
    Runs CountdownStep .start (es.map .lockout) ⟨s, es.foldr LockoutEvent.released fun _ => 0, CountdownState.start.thread⟩ := by
  have initially : Runs CountdownStep .start [] ⟨.start, fun _ => 0, CountdownState.start.thread⟩ := .nil
  have lifted := lift_run initially (run.mono fun _ _ _ step => step.2)
  rwa [List.append_nil] at lifted

theorem countdown_rule_firstLockout : ∃ es s, Runs CountdownStep .start (.countdown .register .take :: es) s ∧
    CountdownRule .register (.countdown .register .take :: es) s := by
  obtain ⟨errCnt, two, before, run⟩ := leads_thirdEntry
  obtain ⟨es, s, s', -, woken, taken, -⟩ := lockout_take two rfl (first_run run)
  rw [← List.map_append] at woken
  have once := not_runDown_lockout .register (es ++ before)
  refine ⟨_, s', woken.snoc taken, (countdown_rule_iff .register (woken.snoc taken)).mpr ⟨?_, ?_⟩⟩
  · rintro (⟨-, down⟩ | ⟨-, earlier⟩)
    · exact once down
    · exact once (TakenRunDown.runDown earlier)
  · rintro (⟨saw, -⟩ | ⟨took, -⟩)
    · cases saw
    · exact took rfl

/-- The first lockout has been counted down to 0 on time, and has ended. -/
theorem counts_firstExpiry :
    ∃ errCnt lock timers, Counts ⟨.delay, .idle, 304190, errCnt, lock, timers⟩ (.delay 304200) 0 ∧ errCnt .register = 0 ∧ lock .register = 1 := by
  obtain ⟨errCnt, two, before, run⟩ := leads_thirdEntry
  obtain ⟨es, s, s', errCnt', woken, taken, -, zero, here, lockout⟩ := lockout_take two rfl (first_run run)
  set lock : Menu → UInt8 := Function.update (fun _ => 1) .register 0
  have locked : lock .register ≠ 1 := by decide
  set timers := LockoutState.start.timers.rtTimerStart (rtTick 4190) .register
  have alone : Alone timers (rtTick 4190) := .start rfl (by decide) rfl
  have begun : Counts ⟨.wrongShown .register, .idle, 4190, errCnt', lock, timers⟩ .testTick (.ofNat 300000) := by
    obtain ⟨now, value, thread⟩ := s'
    cases lockout
    exact ⟨_, value, thread, _, here, woken.snoc taken⟩
  have shown := (begun.again (by decide) locked).waits (n := 298000) 2000 locked (by decide) (by decide)
  have message : Leads ⟨.wrongShown .register, .idle, 6190, errCnt', lock, timers⟩ ⟨.wrongShown .register, .idle, 6190, errCnt', lock, timers⟩ := .refl
  have left := ((message.tau .wrongShown).tau .mainWindow).touch .release rfl trivial
  have scanning : Counts ⟨.delay, .idle, 6190, errCnt', lock, timers⟩ (.wait 6191) (.ofNat (5 + 5 * 59599)) :=
    shown.follow (left.tau .untouched)
  have last : Counts ⟨.delay, .idle, 304189, errCnt', lock, timers⟩ (.wait 304190) (.ofNat (0 + 1)) :=
    (scanning.idle 59599 locked (by decide) (by decide)).waits 4 locked (by decide) (by decide)
  have due : Leads ⟨.delay, .idle, 304189, errCnt', lock, timers⟩ ⟨.delay, .idle, 304190, errCnt', lock, timers⟩ := Leads.refl.ticks 1
  have ended : Leads ⟨.delay, .idle, 304189, errCnt', lock, timers⟩
      ⟨.delay, .idle, 304190, errCnt', Function.update lock .register 1, (timers.remove .register).rtTimerStart (rtTick 304190) .register⟩ :=
    (due.expire rfl alone.list (by rw [alone.timeout]; decide)).call rfl alone.again
  have zeroed := (last.follow ended).waited (Nat.le_refl 304190)
  exact ⟨_, _, _, zeroed.edge (fun text => ⟨text, .runDown⟩) (by decide), zero, Function.update_self ..⟩

/-- **A lockout without a countdown.** The 300000 waits of the first lockout are all on time, so
the counter is 0 when the thread looks next, and stays 0. -/
theorem second_take_finds_zero : ∃ es s, Runs CountdownStep .start es s ∧ ¬ CountdownRule .register es s := by
  obtain ⟨errCnt, lock, timers, counts, zero, unlocked⟩ := counts_firstExpiry
  have taking : Counts ⟨.delay, .idle, 304200, errCnt, lock, timers⟩ .take 0 :=
    (counts.follow (Leads.refl.idle 2)).edge (fun text => ⟨text, .delay (Nat.le_refl _)⟩) (by decide)
  have scanning : Leads ⟨.delay, .idle, 304200, errCnt, lock, timers⟩ ⟨.delay, .idle, 304200, errCnt, lock, timers⟩ := .refl
  obtain ⟨errCnt', two, leads⟩ := scanning.thirdEntry (by rw [unlocked]; decide) zero
  obtain ⟨before, value, thread, text, here, run⟩ := taking.follow leads
  obtain ⟨es, s, s', -, woken, taken, -, -, found, -⟩ := lockout_take two here run
  refine ⟨_, s', woken.snoc taken, fun rule => ?_⟩
  have whole := rule.fresh rfl
  rw [found] at whole
  cases whole

end SecondLockout

end DoorSecurity
