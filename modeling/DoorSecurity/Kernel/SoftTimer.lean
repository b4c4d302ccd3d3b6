import Mathlib

/-!
# Soft timers (`rt-thread/src/timer.c`)

A started soft timer waits in a list that is sorted by the remaining time. The timer
thread takes the expired ones off the list and calls their functions with the
scheduler unlocked, so that other threads may start the same timer between the two
(`TimerPc.firing`). Ticks are 32-bit and compared across the wrap: to a tick that is
half the range old a timeout to come looks past (`NotBefore`).
-/

namespace Kernel
set_option autoImplicit false

/-- `rt_tick_get` after `now` ticks. -/
def rtTick (now : Nat) : UInt32 := UInt32.ofNat now

def rtTickMax : UInt32 := 0xffffffff

def rtTimerFlagPeriodic : UInt8 := 0x2
def rtTimerFlagSoftTimer : UInt8 := 0x4
def rtTimerCtrlSetOneshot : UInt8 := 0x2

/-- The test `(current_tick - timeout_tick) < RT_TICK_MAX / 2`. -/
def expired (currentTick timeoutTick : UInt32) : Bool := currentTick - timeoutTick < rtTickMax / 2

/-- The timer objects, by name, and `rt_soft_timer_list`. -/
structure SoftTimers (I : Type) where
  initTick : I → UInt32
  periodic : I → Bool
  timeoutTick : I → UInt32
  activated : I → Bool
  list : List I
  nodup : list.Nodup

variable {I : Type} [DecidableEq I]

namespace SoftTimers

/-- `rt_timer_create` for each name, with a time and a flag byte. -/
def create (time : I → UInt32) (flag : I → UInt8) : SoftTimers I where
  initTick := time
  periodic i := flag i &&& rtTimerFlagPeriodic ≠ 0
  timeoutTick _ := 0
  activated _ := false
  list := []
  nodup := List.nodup_nil

/-- Before the first timer that is due later. -/
def insertSorted (timeoutTick : I → UInt32) (i : I) : List I → List I
  | [] => [i]
  | t :: rest =>
    let d := timeoutTick t - timeoutTick i
    if d ≠ 0 ∧ d < rtTickMax / 2 then i :: t :: rest else t :: insertSorted timeoutTick i rest

omit [DecidableEq I] in
theorem insertSorted_perm (timeoutTick : I → UInt32) (i : I) (l : List I) : (insertSorted timeoutTick i l).Perm (i :: l) := by
  induction l with
  | nil => exact .refl _
  | cons t rest ih =>
    unfold insertSorted
    dsimp only
    split
    · exact .refl _
    · exact (ih.cons t).trans (.swap i t rest)

/-- `_rt_timer_remove`. -/
def remove (st : SoftTimers I) (i : I) : SoftTimers I := { st with list := st.list.erase i, nodup := st.nodup.erase i }

/-- `rt_timer_start` at tick `tick`. -/
def rtTimerStart (st : SoftTimers I) (tick : UInt32) (i : I) : SoftTimers I :=
  let timeoutTick := Function.update st.timeoutTick i (tick + st.initTick i)
  { st with
    timeoutTick
    activated := Function.update st.activated i true
    list := insertSorted timeoutTick i (st.list.erase i)
    nodup := (insertSorted_perm timeoutTick i _).nodup_iff.mpr (List.nodup_cons.mpr ⟨st.nodup.not_mem_erase, st.nodup.erase i⟩) }

/-- After the call: start again if periodic and still active, else stop. -/
def rearm (st : SoftTimers I) (tick : UInt32) (i : I) : SoftTimers I :=
  if st.periodic i && st.activated i then st.rtTimerStart tick i else { st with activated := Function.update st.activated i false }

/-- `n->next` of a listed timer; `none` is the list head. -/
def next (st : SoftTimers I) (i : I) : Option I := (st.list.dropWhile (· ≠ i)).tail.head?

end SoftTimers

/-- Where the timer thread stands. -/
inductive TimerPc (I : Type) where
  /-- Outside `rt_soft_timer_check`: waiting for the next timeout, or resumed. -/
  | idle
  /-- It read the tick at `c` and is about to lock the scheduler. -/
  | ticked (c : Nat)
  /-- Timer `i` is off the list and the scheduler unlocked; the call is to come. -/
  | firing (i : I) (n : Option I)
  | fired (i : I) (n : Option I)
  /-- After the call it read the tick again, at `c`. -/
  | reticked (i : I) (n : Option I) (c : Nat)

/-- The time of the tick that the thread works with. -/
def TimerPc.cached : TimerPc I → Option Nat
  | .ticked c | .reticked _ _ c => some c
  | _ => none

/-- The head of the loop in `rt_soft_timer_check`: take an expired timer off, or leave. -/
def checkNext (st : SoftTimers I) (currentTick : UInt32) : Option I → TimerPc I × SoftTimers I
  | none => (.idle, st)
  | some i => if expired currentTick (st.timeoutTick i) then (.firing i (st.next i), st.remove i) else (.idle, st)

/-- `rt_thread_timer_entry` and `rt_soft_timer_check`, one stretch without a thread switch at
a time. The call itself changes nothing here. -/
def timerThreadStep (now : Nat) : TimerPc I × SoftTimers I → TimerPc I × SoftTimers I
  | (.idle, st) => (.ticked now, st)
  | (.ticked c, st) => checkNext st (rtTick c) st.list.head?
  | (.firing i n, st) => (.fired i n, st)
  | (.fired i n, st) => (.reticked i n now, st)
  | (.reticked i n c, st) => checkNext (st.rearm (rtTick now) i) (rtTick c) n

section Ticks

/-- A tick that is not too old sees a timeout only when it has come. -/
theorem due_of_expired {c T : Nat} (recent : T ≤ c + 2 ^ 31 + 1) (seen : expired (rtTick c) (rtTick T) = true) : T ≤ c := by
  have difference := of_decide_eq_true seen
  rw [UInt32.lt_iff_toNat_lt, UInt32.toNat_sub] at difference
  have half : (rtTickMax / 2).toNat = 2147483647 := by decide
  have current : (rtTick c).toNat = c % 4294967296 := UInt32.toNat_ofNat
  have timeout : (rtTick T).toNat = T % 4294967296 := UInt32.toNat_ofNat
  rw [half, current, timeout] at difference
  omega

theorem rtTick_add (now : Nat) (init : UInt32) : rtTick (now + init.toNat) = rtTick now + init := by
  unfold rtTick
  rw [UInt32.ofNat_add, UInt32.ofNat_toNat]

end Ticks

section Started

variable {st : SoftTimers I} {i j : I} {tick : UInt32}

theorem SoftTimers.rtTimerStart_self : (st.rtTimerStart tick i).timeoutTick i = tick + st.initTick i := Function.update_self ..

theorem SoftTimers.rtTimerStart_other (other : i ≠ j) : (st.rtTimerStart tick j).timeoutTick i = st.timeoutTick i :=
  Function.update_of_ne other _ _

theorem SoftTimers.rearm_other (other : i ≠ j) : (st.rearm tick j).timeoutTick i = st.timeoutTick i := by
  unfold rearm
  split
  · exact rtTimerStart_other other
  · rfl

theorem SoftTimers.rearm_initTick : (st.rearm tick i).initTick = st.initTick := by
  unfold rearm
  split <;> rfl

/-- A call leaves its own timer set from then on, or as it was. -/
theorem SoftTimers.rearm_self :
    (st.rearm tick i).timeoutTick i = tick + st.initTick i ∨ (st.rearm tick i).timeoutTick i = st.timeoutTick i := by
  unfold rearm
  split
  · exact .inl rtTimerStart_self
  · exact .inr rfl

/-- The list has a timer once, so none follows itself. -/
theorem SoftTimers.next_ne (st : SoftTimers I) (i : I) : st.next i ≠ some i := by
  unfold next
  have nodup := st.nodup
  generalize st.list = l at nodup
  induction l with
  | nil => rintro ⟨⟩
  | cons t rest ih =>
    obtain ⟨fresh, nodup⟩ := List.nodup_cons.mp nodup
    by_cases here : t = i
    · subst here
      rw [List.dropWhile_cons_of_neg (by simp)]
      intro again
      exact fresh (List.mem_of_mem_head? again)
    · rw [List.dropWhile_cons_of_pos (by simpa using here)]
      exact ih nodup

end Started

section NotBefore

/-- The cursor of a call is another timer, and the tick at work has been read. -/
structure TimerPc.Proper (now : Nat) (pc : TimerPc I) : Prop where
  cursor : ∀ i n, (pc = .firing i n ∨ pc = .fired i n ∨ ∃ c, pc = .reticked i n c) → n ≠ some i
  read : ∀ c, pc.cached = some c → c ≤ now

/-- Timer `i` is set for a time from `due` on, and the tick at work does not see it earlier. -/
structure SetFor (due now : Nat) (i : I) (s : TimerPc I × SoftTimers I) (T : Nat) : Prop where
  late : due ≤ T
  near : T ≤ now + 2 ^ 31 + 1
  timeout : s.2.timeoutTick i = rtTick T
  sees : ∀ c, s.1.cached = some c → expired (rtTick c) (rtTick T) = true → T ≤ c

/-- The function of timer `i` is not called before `due`. -/
def NotBefore (due now : Nat) (i : I) (s : TimerPc I × SoftTimers I) : Prop :=
  ((∃ n, s.1 = .firing i n) ∧ due ≤ now) ∨ ((∀ n, s.1 ≠ .firing i n) ∧ ∃ T, SetFor due now i s T)

variable {due now : Nat} {i j : I} {pc : TimerPc I} {st : SoftTimers I}

omit [DecidableEq I] in
theorem TimerPc.Proper.tick (proper : pc.Proper now) : pc.Proper (now + 1) where
  cursor := proper.cursor
  read c at_work := Nat.le_succ_of_le (proper.read c at_work)

omit [DecidableEq I] in
theorem NotBefore.tick {s : TimerPc I × SoftTimers I} (set : NotBefore due now i s) : NotBefore due (now + 1) i s := by
  rcases set with ⟨firing, reached⟩ | ⟨off, T, set⟩
  · exact .inl ⟨firing, Nat.le_succ_of_le reached⟩
  · refine .inr ⟨off, T, set.late, ?_, set.timeout, set.sees⟩
    have near := set.near
    omega

/-- Another thread starts the timer: the call is a whole period away unless it was about to
come, or the new timeout looks past to the tick at work. -/
theorem NotBefore.start (off : ∀ n, pc ≠ .firing i n) (short : (st.initTick i).toNat ≤ 2 ^ 31)
    (unseen : ∀ c, pc.cached = some c → expired (rtTick c) (rtTick now + st.initTick i) = false) :
    NotBefore (now + (st.initTick i).toNat) now i (pc, st.rtTimerStart (rtTick now) i) := by
  refine .inr ⟨off, now + (st.initTick i).toNat, Nat.le_refl _, by omega, ?_, fun c at_work seen => ?_⟩
  · rw [rtTick_add]
    exact SoftTimers.rtTimerStart_self
  · rw [rtTick_add, unseen c at_work] at seen
    contradiction

theorem NotBefore.start_other {tick : UInt32} (set : NotBefore due now i (pc, st)) (other : i ≠ j) :
    NotBefore due now i (pc, st.rtTimerStart tick j) := by
  rcases set with firing | ⟨off, T, set⟩
  · exact .inl firing
  · exact .inr ⟨off, T, set.late, set.near, (SoftTimers.rtTimerStart_other other).trans set.timeout, set.sees⟩

omit [DecidableEq I] in
/-- The thread is not about to call the timer and works with no tick but the present one. -/
theorem NotBefore.of_timeout {T : Nat} (late : due ≤ T) (near : T ≤ now + 2 ^ 31 + 1) (timeout : st.timeoutTick i = rtTick T)
    (off : ∀ n, pc ≠ .firing i n) (current : ∀ c, pc.cached = some c → c = now) : NotBefore due now i (pc, st) := by
  refine .inr ⟨off, T, late, near, timeout, fun c at_work seen => ?_⟩
  obtain rfl := current c at_work
  exact due_of_expired near seen

/-- The head of the loop calls a timer only when it is due. -/
theorem checkNext_notBefore {c T : Nat} {n : Option I} (read : c ≤ now) (late : due ≤ T) (near : T ≤ now + 2 ^ 31 + 1)
    (timeout : st.timeoutTick i = rtTick T) (sees : n = some i → expired (rtTick c) (rtTick T) = true → T ≤ c) :
    NotBefore due now i (checkNext st (rtTick c) n) := by
  cases n with
  | none => exact .of_timeout late near timeout nofun nofun
  | some j =>
    unfold checkNext
    dsimp only
    split
    case isTrue seen =>
      by_cases own : j = i
      · subst own
        rw [timeout] at seen
        exact .inl ⟨⟨_, rfl⟩, late.trans ((sees rfl seen).trans read)⟩
      · exact .of_timeout late near timeout (fun n same => own (TimerPc.firing.inj same).1) nofun
    case isFalse => exact .of_timeout late near timeout nofun nofun

theorem checkNext_initTick (st : SoftTimers I) (tick : UInt32) (n : Option I) : (checkNext st tick n).2.initTick = st.initTick := by
  cases n with
  | none => rfl
  | some i =>
    unfold checkNext
    dsimp only
    split <;> rfl

theorem timerThreadStep_initTick (now : Nat) (pc : TimerPc I) (st : SoftTimers I) :
    (timerThreadStep now (pc, st)).2.initTick = st.initTick := by
  cases pc with
  | idle | firing | fired => rfl
  | ticked c => exact checkNext_initTick _ _ _
  | reticked i n c => exact (checkNext_initTick _ _ _).trans SoftTimers.rearm_initTick

omit [DecidableEq I] in
theorem TimerPc.Proper.idle : (TimerPc.idle : TimerPc I).Proper now where
  cursor := by rintro i n (⟨⟨⟩⟩ | ⟨⟨⟩⟩ | ⟨c, ⟨⟩⟩)
  read := nofun

omit [DecidableEq I] in
theorem TimerPc.Proper.firing {n : Option I} (apart : n ≠ some i) : (TimerPc.firing i n).Proper now where
  cursor := by
    rintro j m (⟨⟨⟩⟩ | ⟨⟨⟩⟩ | ⟨c, ⟨⟩⟩)
    exact apart
  read := nofun

theorem checkNext_proper (tick : UInt32) (n : Option I) : (checkNext st tick n).1.Proper now := by
  cases n with
  | none => exact .idle
  | some i =>
    unfold checkNext
    dsimp only
    split
    · exact .firing (st.next_ne i)
    · exact .idle

theorem timerThreadStep_proper (proper : pc.Proper now) : (timerThreadStep now (pc, st)).1.Proper now := by
  cases pc with
  | idle =>
    refine ⟨by rintro j n (⟨⟨⟩⟩ | ⟨⟨⟩⟩ | ⟨c, ⟨⟩⟩), ?_⟩
    rintro c ⟨⟩
    exact Nat.le_refl _
  | ticked c => exact checkNext_proper _ _
  | firing i n =>
    refine ⟨?_, nofun⟩
    rintro j m (⟨⟨⟩⟩ | ⟨⟨⟩⟩ | ⟨c, ⟨⟩⟩)
    exact proper.cursor i n (.inl rfl)
  | fired i n =>
    refine ⟨?_, ?_⟩
    · rintro j m (⟨⟨⟩⟩ | ⟨⟨⟩⟩ | ⟨c, ⟨⟩⟩)
      exact proper.cursor i n (.inr (.inl rfl))
    · rintro c ⟨⟩
      exact Nat.le_refl _
  | reticked i n c => exact checkNext_proper _ _

/-- **The timer thread keeps to the timeouts**, its own restarts included. -/
theorem timerThreadStep_notBefore (proper : pc.Proper now) (off : ∀ n, pc ≠ .firing i n) (set : NotBefore due now i (pc, st))
    (restart : due ≤ now + (st.initTick i).toNat) (short : (st.initTick i).toNat ≤ 2 ^ 31) :
    NotBefore due now i (timerThreadStep now (pc, st)) := by
  rcases set with ⟨⟨n, firing⟩, -⟩ | ⟨-, T, late, near, timeout, sees⟩
  · exact absurd firing (off n)
  cases pc with
  | idle => exact .of_timeout late near timeout nofun fun c now => (Option.some.inj now).symm
  | ticked c => exact checkNext_notBefore (proper.read c rfl) late near timeout fun _ => sees c rfl
  | firing j n => exact .of_timeout late near timeout nofun nofun
  | fired j n => exact .of_timeout late near timeout nofun fun c now => (Option.some.inj now).symm
  | reticked j n c =>
    have read := proper.read c rfl
    by_cases own : j = i
    · subst own
      have cursor : n ≠ some j := proper.cursor j n (.inr (.inr ⟨c, rfl⟩))
      have elsewhere : ∀ {T}, n = some j → expired (rtTick c) (rtTick T) = true → T ≤ c := fun here => absurd here cursor
      rcases st.rearm_self with again | kept
      · rw [← rtTick_add] at again
        exact checkNext_notBefore read restart (by omega) again elsewhere
      · exact checkNext_notBefore read late near (kept.trans timeout) elsewhere
    · exact checkNext_notBefore read late near ((SoftTimers.rearm_other (Ne.symm own)).trans timeout) fun _ => sees c rfl

end NotBefore

end Kernel
