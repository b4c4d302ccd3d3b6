import DoorSecurity.Kernel.SoftTimer
import DoorSecurity.Kernel.Waiting

/-!
# Ticks and the timers of the threads (`src/timer.c`, `src/clock.c`)

Every thread has a timer in `rt_timer_list`, which is sorted by the time that remains.
`rt_tick_increase` counts `rt_tick` and takes the timers off whose time has come. The
tick has 32 bits and wraps; `now` and `due` are the same times without a bound, and nothing
reads them. At any time of any run a thread is in the list just when its timer is started, and its timer
goes off in the tick that it was set for (`timed_runs`).
-/

namespace DoorSecurity
set_option autoImplicit false
open Rings Lts

section List

variable {T : Type} [DecidableEq T]

/-- `rt_tick` and `rt_timer_list`, with the timeout of each thread's timer. -/
structure HardTimers (T : Type) where
  tick : UInt32
  timeoutTick : T → UInt32
  list : List T

/-- What the kernel does to the timer of a thread: `rt_timer_stop`, or `RT_TIMER_CTRL_SET_TIME` and `rt_timer_start`. -/
inductive TimerOp (T : Type) where
  | stop (t : T)
  | start (t : T) (time : UInt32)

namespace HardTimers

def rtTimerStop (t : T) (ts : HardTimers T) : HardTimers T := { ts with list := ts.list.erase t }

def rtTimerStart (t : T) (time : UInt32) (ts : HardTimers T) : HardTimers T :=
  let timeoutTick := Function.update ts.timeoutTick t (ts.tick + time)
  { ts with timeoutTick, list := Kernel.SoftTimers.insertSorted timeoutTick t (ts.list.erase t) }

def apply (ts : HardTimers T) : TimerOp T → HardTimers T
  | .stop t => ts.rtTimerStop t
  | .start t time => ts.rtTimerStart t time

omit [DecidableEq T] in
/-- `++ rt_tick`. -/
def next (ts : HardTimers T) : HardTimers T := { ts with tick := ts.tick + 1 }

omit [DecidableEq T] in
/-- The loop of `rt_timer_check`: the timers that it takes off the list, in order, and the rest. -/
def rtTimerCheck (ts : HardTimers T) : List T × List T := ts.list.span fun t => Kernel.expired ts.tick (ts.timeoutTick t)

end HardTimers

/-- Which timers are started, after an operation. -/
def TimerOp.onStarted (started : T → Bool) : TimerOp T → T → Bool
  | .stop t => Function.update started t false
  | .start t _ => Function.update started t true

/-- What the started timers are set for. -/
def TimerOp.onDue (now : Nat) (due : T → Nat) : TimerOp T → T → Nat
  | .stop _ => due
  | .start t time => Function.update due t (now + time.toNat)

/-- `RT_ASSERT(timer->init_tick < RT_TICK_MAX / 2)`. -/
def TimerOp.Short : TimerOp T → Prop
  | .stop _ => True
  | .start _ time => time < Kernel.rtTickMax / 2

/-- The list without the bound on the tick. -/
structure Exact (now : Nat) (due : T → Nat) (started : T → Bool) (ts : HardTimers T) : Prop where
  tick : ts.tick = Kernel.rtTick now
  nodup : ts.list.Nodup
  mem : ∀ t, t ∈ ts.list ↔ started t = true
  timeout : ∀ t ∈ ts.list, ts.timeoutTick t = Kernel.rtTick (due t)
  /-- Nothing is overdue, or too far ahead to be told from it. -/
  near : ∀ t ∈ ts.list, now ≤ due t ∧ due t < now + 0x7fffffff
  sorted : ts.list.Pairwise fun t u => due t ≤ due u

variable {now : Nat} {due : T → Nat} {started : T → Bool} {ts : HardTimers T} {t : T}

theorem half_toNat : (Kernel.rtTickMax / 2).toNat = 0x7fffffff := by decide

theorem rtTick_toNat (n : Nat) : (Kernel.rtTick n).toNat = n % 4294967296 := UInt32.toNat_ofNat

/-- The test of `rt_timer_check`, for times that are near. -/
theorem expired_iff {c d : Nat} (near : d < c + 0x7fffffff) (late : c ≤ d + 1) :
    Kernel.expired (Kernel.rtTick c) (Kernel.rtTick d) = true ↔ d ≤ c := by
  rw [Kernel.expired, decide_eq_true_eq, UInt32.lt_iff_toNat_lt, UInt32.toNat_sub, half_toNat, rtTick_toNat, rtTick_toNat]
  omega

/-- The test of `rt_timer_start`: the timer in the list is due later. -/
theorem later_iff {d e : Nat} (near : d < e + 0x7fffffff) (late : e < d + 0x7fffffff) :
    (Kernel.rtTick d - Kernel.rtTick e ≠ 0 ∧ Kernel.rtTick d - Kernel.rtTick e < Kernel.rtTickMax / 2) ↔ e < d := by
  rw [UInt32.lt_iff_toNat_lt, half_toNat, ne_eq, ← UInt32.toNat_inj, UInt32.toNat_sub, rtTick_toNat, rtTick_toNat, UInt32.toNat_zero]
  omega

omit [DecidableEq T] in
/-- **A timer is inserted where it is due**, after those that are due at the same time. -/
theorem insertSorted_sorted {timeoutTick : T → UInt32} {l : List T} (timeout : ∀ u ∈ t :: l, timeoutTick u = Kernel.rtTick (due u))
    (near : ∀ u ∈ l, due u < due t + 0x7fffffff ∧ due t < due u + 0x7fffffff) (sorted : l.Pairwise fun t u => due t ≤ due u) :
    (Kernel.SoftTimers.insertSorted timeoutTick t l).Pairwise fun t u => due t ≤ due u := by
  induction l with
  | nil => exact List.pairwise_singleton _ _
  | cons u l ih =>
    obtain ⟨first, rest⟩ := List.pairwise_cons.mp sorted
    have own := timeout t List.mem_cons_self
    have head := timeout u (List.mem_cons_of_mem t List.mem_cons_self)
    have test := later_iff (near u List.mem_cons_self).1 (near u List.mem_cons_self).2
    unfold Kernel.SoftTimers.insertSorted
    dsimp only
    rw [own, head]
    split
    · rename_i later
      have before := test.mp later
      refine List.pairwise_cons.mpr ⟨fun v inside => ?_, sorted⟩
      rcases List.mem_cons.mp inside with rfl | inside
      · exact before.le
      · exact before.le.trans (first v inside)
    · rename_i notLater
      have after : due u ≤ due t := not_lt.mp fun before => notLater (test.mpr before)
      have inner := ih (fun v inside => timeout v (by rcases List.mem_cons.mp inside with rfl | inside <;> simp [*]))
        (fun v inside => near v (List.mem_cons_of_mem u inside)) rest
      refine List.pairwise_cons.mpr ⟨fun v inside => ?_, inner⟩
      rcases List.mem_cons.mp ((Kernel.SoftTimers.insertSorted_perm timeoutTick t l).mem_iff.mp inside) with rfl | inside
      · exact after
      · exact first v inside

theorem Exact.stop (exact : Exact now due started ts) (t : T) : Exact now due (Function.update started t false) (ts.rtTimerStop t) where
  tick := exact.tick
  nodup := exact.nodup.erase t
  mem u := by
    rw [HardTimers.rtTimerStop, exact.nodup.mem_erase_iff, exact.mem]
    rcases eq_or_ne u t with rfl | other
    · simp
    · simp [other]
  timeout u inside := exact.timeout u (List.mem_of_mem_erase inside)
  near u inside := exact.near u (List.mem_of_mem_erase inside)
  sorted := exact.sorted.sublist List.erase_sublist

theorem Exact.start (exact : Exact now due started ts) (t : T) {time : UInt32} (short : time < Kernel.rtTickMax / 2) :
    Exact now (Function.update due t (now + time.toNat)) (Function.update started t true) (ts.rtTimerStart t time) := by
  have short : time.toNat < 0x7fffffff := half_toNat ▸ UInt32.lt_iff_toNat_lt.mp short
  have others : ∀ {u}, u ∈ ts.list.erase t → u ≠ t ∧ u ∈ ts.list := fun inside => exact.nodup.mem_erase_iff.mp inside
  have perm := Kernel.SoftTimers.insertSorted_perm (Function.update ts.timeoutTick t (ts.tick + time)) t (ts.list.erase t)
  have timeout : ∀ u ∈ t :: ts.list.erase t,
      Function.update ts.timeoutTick t (ts.tick + time) u = Kernel.rtTick (Function.update due t (now + time.toNat) u) := by
    intro u inside
    rcases List.mem_cons.mp inside with rfl | inside
    · rw [Function.update_self, Function.update_self, exact.tick, Kernel.rtTick_add]
    · obtain ⟨other, inside⟩ := others inside
      rw [Function.update_of_ne other, Function.update_of_ne other]
      exact exact.timeout u inside
  have near : ∀ u ∈ t :: ts.list.erase t, now ≤ Function.update due t (now + time.toNat) u ∧
      Function.update due t (now + time.toNat) u < now + 0x7fffffff := by
    intro u inside
    rcases List.mem_cons.mp inside with rfl | inside
    · rw [Function.update_self]
      omega
    · obtain ⟨other, inside⟩ := others inside
      rw [Function.update_of_ne other]
      exact exact.near u inside
  exact {
    tick := exact.tick
    nodup := perm.nodup_iff.mpr (List.nodup_cons.mpr ⟨fun inside => (others inside).1 rfl, exact.nodup.erase t⟩)
    mem := fun u => by
      rw [HardTimers.rtTimerStart, perm.mem_iff, List.mem_cons, exact.nodup.mem_erase_iff, exact.mem]
      rcases eq_or_ne u t with rfl | other
      · simp
      · simp [other]
    timeout := fun u inside => timeout u (perm.mem_iff.mp inside)
    near := fun u inside => near u (perm.mem_iff.mp inside)
    sorted := by
      refine insertSorted_sorted timeout (fun u inside => ?_) ?_
      · have own := near t List.mem_cons_self
        have other := near u (List.mem_cons_of_mem t inside)
        omega
      · refine (exact.sorted.sublist List.erase_sublist).imp_of_mem fun {u v} first second ordered => ?_
        rw [Function.update_of_ne (others first).1, Function.update_of_ne (others second).1]
        exact ordered }

/-- The operations of a call, one after another. -/
theorem Exact.apply {ops : List (TimerOp T)} (short : ∀ op ∈ ops, op.Short) (exact : Exact now due started ts) :
    Exact now (ops.foldl (TimerOp.onDue now) due) (ops.foldl TimerOp.onStarted started) (ops.foldl HardTimers.apply ts) := by
  induction ops generalizing due started ts with
  | nil => exact exact
  | cons op ops ih =>
    have rest := fun op' inside => short op' (List.mem_cons_of_mem op inside)
    cases op with
    | stop t => exact ih rest (exact.stop t)
    | start t time => exact ih rest (exact.start t (short _ List.mem_cons_self))

omit [DecidableEq T] in
/-- What a sorted list has up to a bound is what a test for it takes off the front. -/
theorem sorted_span {l : List T} {n : Nat} {p : T → Bool} (sorted : l.Pairwise fun t u => due t ≤ due u) (test : ∀ u ∈ l, p u = true ↔ due u ≤ n) :
    (∀ u, u ∈ l.takeWhile p ↔ u ∈ l ∧ due u ≤ n) ∧ ∀ u, u ∈ l.dropWhile p ↔ u ∈ l ∧ n < due u := by
  induction l with
  | nil => simp
  | cons t l ih =>
    obtain ⟨first, rest⟩ := List.pairwise_cons.mp sorted
    have own := test t List.mem_cons_self
    cases passes : p t with
    | true =>
      have early := own.mp passes
      obtain ⟨taken, left⟩ := ih rest fun u inside => test u (List.mem_cons_of_mem t inside)
      rw [List.takeWhile_cons_of_pos passes, List.dropWhile_cons_of_pos passes]
      refine ⟨fun u => ?_, fun u => ?_⟩
      · rw [List.mem_cons, List.mem_cons, taken]
        refine ⟨?_, fun h => h.1.imp_right fun inside => ⟨inside, h.2⟩⟩
        rintro (rfl | ⟨inside, here⟩)
        · exact ⟨.inl rfl, early⟩
        · exact ⟨.inr inside, here⟩
      · rw [List.mem_cons, left]
        refine ⟨fun h => ⟨.inr h.1, h.2⟩, fun ⟨inside, late⟩ => ⟨inside.resolve_left ?_, late⟩⟩
        rintro rfl
        omega
    | false =>
      have fails : ¬ p t = true := by simp [passes]
      have late : n < due t := not_le.mp fun early => fails (own.mpr early)
      have all : ∀ u ∈ t :: l, n < due u := by
        intro u inside
        rcases List.mem_cons.mp inside with rfl | inside
        · exact late
        · exact late.trans_le (first u inside)
      rw [List.takeWhile_cons_of_neg fails, List.dropWhile_cons_of_neg fails]
      refine ⟨fun u => ⟨fun none => absurd none List.not_mem_nil, fun h => absurd h.2 (not_le.mpr (all u h.1))⟩, fun u => ?_⟩
      exact ⟨fun inside => ⟨inside, all u inside⟩, And.left⟩

omit [DecidableEq T] in
theorem Exact.next_tick (exact : Exact now due started ts) : ts.next.tick = Kernel.rtTick (now + 1) := by
  rw [HardTimers.next, exact.tick]
  exact (Kernel.rtTick_add now 1).symm

omit [DecidableEq T] in
/-- **`rt_timer_check` takes off what is due**, in the order of the times. -/
theorem Exact.check (exact : Exact now due started ts) :
    (∀ t, t ∈ ts.next.rtTimerCheck.1 ↔ started t = true ∧ due t ≤ now + 1) ∧
      (∀ t, t ∈ ts.next.rtTimerCheck.2 ↔ started t = true ∧ now + 1 < due t) ∧
      ts.next.rtTimerCheck.1.Sublist ts.list ∧ ts.next.rtTimerCheck.2.Sublist ts.list := by
  have test : ∀ u ∈ ts.list, Kernel.expired ts.next.tick (ts.timeoutTick u) = true ↔ due u ≤ now + 1 := by
    intro u inside
    have near := exact.near u inside
    rw [exact.next_tick, exact.timeout u inside]
    exact expired_iff (by omega) (by omega)
  obtain ⟨taken, left⟩ := sorted_span exact.sorted test
  rw [HardTimers.rtTimerCheck, List.span_eq_takeWhile_dropWhile]
  exact ⟨fun t => (taken t).trans (and_congr_left' (exact.mem t)), fun t => (left t).trans (and_congr_left' (exact.mem t)),
    List.takeWhile_sublist _, List.dropWhile_sublist _⟩

omit [DecidableEq T] in
/-- What is left after a tick. -/
theorem Exact.checked (exact : Exact now due started ts) {started' : T → Bool}
    (left : ∀ t, started' t = true ↔ started t = true ∧ now + 1 < due t) :
    Exact (now + 1) due started' { ts.next with list := ts.next.rtTimerCheck.2 } := by
  obtain ⟨-, rest, -, sub⟩ := exact.check
  exact {
    tick := exact.next_tick
    nodup := exact.nodup.sublist sub
    mem := fun t => (rest t).trans (left t).symm
    timeout := fun t inside => exact.timeout t (sub.mem inside)
    near := fun t inside => by
      have late := ((rest t).mp inside).2
      have near := exact.near t (sub.mem inside)
      omega
    sorted := exact.sorted.sublist sub }

end List

section Started

variable {T S : Type}

/-- The threads whose timers are started. -/
def Kernel.started (k : Kernel T S) : T → Bool := RtThread.timer ∘ k.thread

namespace Kernel

/-- `rt_thread_suspend`. -/
def suspendTimers (k : Kernel T S) (t : T) : List (TimerOp T) := if (k.thread t).stat ≠ .ready then [] else [.stop t]

/-- `rt_thread_resume`. -/
def resumeTimers (k : Kernel T S) (t : T) : List (TimerOp T) := if (k.thread t).stat ≠ .suspend then [] else [.stop t]

/-- `rt_sem_take`. -/
def takeTimers (k : Kernel T S) (t : T) (s : S) (time : Int) : List (TimerOp T) :=
  if 0 < k.value s ∨ time = 0 then []
  else k.suspendTimers t ++ if 0 < time then [.start t (UInt32.ofNat time.toNat)] else []

/-- `rt_sem_release`. -/
def releaseTimers (k : Kernel T S) (s : S) : List (TimerOp T) :=
  match k.lists (.suspended s) with
  | [] => []
  | thread :: _ => k.resumeTimers thread

end Kernel

/-- What a call does to the timers; `time` is the argument of `rt_thread_sleep`. -/
def KernelCall.timers (t : T) (time : UInt32) (k : Kernel T S) : KernelCall T S → List (TimerOp T)
  | .startup u => [.stop u]
  | .take s ticks => k.takeTimers t s ticks
  | .release s => k.releaseTimers s
  | .sleep => k.suspendTimers t ++ [.start t time]
  | .suspend => k.suspendTimers t
  | .resume u => k.resumeTimers u
  | .exit _ => [.stop t]
  | .yield | .slept | .idleExcute | .enterCritical | .exitCritical => []

def KernelEvent.timers (time : UInt32) (k : Kernel T S) : KernelEvent T S → List (TimerOp T)
  | .startup t => [.stop t]
  | .call t c => c.timers t time k
  | .isrRelease s => k.releaseTimers s
  | .start | .schedule _ | .tick | .timeout _ => []

/-- The event is neither a tick nor what `rt_timer_check` does in one. -/
def KernelEvent.Untimed : KernelEvent T S → Prop
  | .tick | .timeout _ => False
  | _ => True

variable [DecidableEq T] [DecidableEq S] {idle t : T} {k k' : Kernel T S} {s : S} {r r' : Running T S} {e : KernelEvent T S} {time : UInt32}

namespace Kernel

omit [DecidableEq S] in
theorem started_setThread (k : Kernel T S) (t : T) (f : RtThread → RtThread) :
    (k.setThread t f).started = Function.update k.started t (f (k.thread t)).timer :=
  Function.comp_update RtThread.timer k.thread t _

omit [DecidableEq S] in
/-- A change that leaves a thread's timer. -/
theorem started_same (k : Kernel T S) (t : T) {f : RtThread → RtThread} (same : (f (k.thread t)).timer = (k.thread t).timer) :
    (k.setThread t f).started = k.started := by
  rw [started_setThread, same]
  exact Function.update_eq_self t k.started

omit [DecidableEq S] in
theorem started_suspend (k : Kernel T S) (t : T) : (k.rtThreadSuspend t).2.started = (k.suspendTimers t).foldl TimerOp.onStarted k.started := by
  by_cases ready : (k.thread t).stat = .ready
  · rw [rtThreadSuspend_of_ready ready, suspendTimers, if_neg (not_not.mpr ready)]
    exact Function.comp_update RtThread.timer k.thread t _
  · rw [Kernel.rtThreadSuspend, if_pos ready, suspendTimers, if_pos ready]
    rfl

theorem started_resume (k : Kernel T S) (t : T) : (k.rtThreadResume t).2.started = (k.resumeTimers t).foldl TimerOp.onStarted k.started := by
  by_cases suspended : (k.thread t).stat = .suspend
  · rw [rtThreadResume_of_suspended suspended, resumeTimers, if_neg (not_not.mpr suspended)]
    exact Function.comp_update RtThread.timer k.thread t _
  · rw [Kernel.rtThreadResume, if_pos suspended, resumeTimers, if_pos suspended]
    rfl

theorem started_startup (k : Kernel T S) (t : T) : (k.rtThreadStartup t).started = Function.update k.started t false := by
  rw [Kernel.rtThreadStartup, started_resume, resumeTimers, if_neg (by simp), started_same k t (by rfl)]
  rfl

theorem started_timeout (k : Kernel T S) (t : T) : (k.rtThreadTimeout t).started = Function.update k.started t false := by
  funext u
  rcases eq_or_ne u t with rfl | other
  · rw [Function.update_self, Kernel.started, Function.comp_apply, Kernel.rtThreadTimeout, rtScheduleInsertThread_thread]
    simp
  · rw [Function.update_of_ne other, Kernel.started, Function.comp_apply, others_timeout other]
    rfl

theorem started_release (k : Kernel T S) (s : S) : (k.rtSemRelease s).2.started = (k.releaseTimers s).foldl TimerOp.onStarted k.started := by
  obtain ⟨u, rest, list, woken⟩ | ⟨list, counted⟩ := rtSemRelease_cases s k
  · rw [releaseTimers, list, woken]
    exact started_resume k u
  · rw [releaseTimers, list, counted]
    rfl

theorem started_take (k : Kernel T S) (t : T) (s : S) (time : Int) :
    (k.rtSemTake t s time).2.started = (k.takeTimers t s time).foldl TimerOp.onStarted k.started := by
  unfold Kernel.rtSemTake takeTimers
  by_cases available : 0 < k.value s
  · rw [if_pos available, if_pos (.inl available)]
    rfl
  · by_cases poll : time = 0
    · rw [if_neg available, if_pos poll, if_pos (.inr poll)]
      rfl
    · rw [if_neg available, if_neg poll, if_neg (not_or.mpr ⟨available, poll⟩), List.foldl_append]
      dsimp only
      rw [rtIpcListSuspend_eq]
      have stat : (k.setThread t fun thread => { thread with error := .eok }).suspendTimers t = k.suspendTimers t := by
        rw [suspendTimers, suspendTimers, setThread_self]
      have suspended : ((k.setThread t fun thread => { thread with error := .eok }).rtThreadSuspend t).2.started =
          (k.suspendTimers t).foldl TimerOp.onStarted k.started := by
        rw [started_suspend, stat, started_same k t (by rfl)]
      split
      · rw [started_setThread, List.foldl_cons, List.foldl_nil, ← suspended]
        rfl
      · exact suspended

end Kernel

theorem KernelCall.started (c : KernelCall T S) (t : T) (time : UInt32) (k : Kernel T S) :
    (c.run t k).2.started = (c.timers t time k).foldl TimerOp.onStarted k.started := by
  cases c with
  | startup u => exact Kernel.started_startup k u
  | take s ticks => exact Kernel.started_take k t s ticks
  | release s => exact Kernel.started_release k s
  | yield => exact congrArg (RtThread.timer ∘ ·) (Kernel.yield_thread t)
  | sleep =>
    show (k.rtThreadSleep t).started = (k.suspendTimers t ++ [TimerOp.start t time]).foldl TimerOp.onStarted k.started
    rw [Kernel.rtThreadSleep, Kernel.started_setThread, Kernel.started_suspend, List.foldl_append]
    rfl
  | slept => exact funext fun u => Kernel.slept_keeps RtThread.timer (fun _ _ => rfl) t u
  | suspend => exact Kernel.started_suspend k t
  | resume u => exact Kernel.started_resume k u
  | exit detach =>
    have ended : ((k.rtScheduleRemoveThread t).setThread t fun thread => { thread with stat := .close, timer := false }).started =
        Function.update k.started t false := by
      rw [Kernel.started_setThread, Kernel.started, Kernel.rtScheduleRemoveThread_thread]
      rfl
    show (k.rtThreadExit t detach).started = Function.update k.started t false
    unfold Kernel.rtThreadExit
    dsimp only
    split <;> exact ended
  | idleExcute => exact congrArg (RtThread.timer ∘ ·) Kernel.idleExcute_thread
  | enterCritical => rfl
  | exitCritical =>
    unfold KernelCall.run Kernel.rtExitCritical
    dsimp only
    split <;> rfl

/-- **The kernel's flags follow the operations on the timers.** -/
theorem KernelStep.started (step : KernelStep idle r e r') (untimed : e.Untimed) (time : UInt32) :
    r'.kernel.started = (e.timers time r.kernel).foldl TimerOp.onStarted r.kernel.started := by
  have switched : ∀ {k k' : Kernel T S}, k.rtSchedule = some k' → k'.started = k.started := by
    intro k k' switch
    rw [Kernel.rtSchedule_same switch]
    rfl
  have after : ∀ {i : Bool × Kernel T S} {k}, Kernel.reschedule i = some k → k.started = i.2.started := by
    intro i k switch
    unfold Kernel.reschedule at switch
    split at switch
    · exact switched switch
    · rw [Option.some.inj switch]
  cases step with
  | @startup t reset init => exact Kernel.started_startup r.kernel t
  | start reset started switch =>
    obtain ⟨⟨p, t⟩, -, same⟩ := Option.bind_eq_some_iff.mp switch
    rw [← Option.some.inj same]
    rfl
  | @call t c current free allowed => exact c.started t time r.kernel
  | schedule current due switch => exact switched switch
  | tick | timeout => exact absurd untimed id
  | @isrRelease t s k current switch => exact (after switch).trans (Kernel.started_release r.kernel s)

/-- From the scheduler's start on, some thread runs. -/
theorem KernelStep.running (step : KernelStep idle r e r') (started : r.kernel.current ≠ none) : r'.kernel.current ≠ none := by
  have switched : ∀ {k k' : Kernel T S}, k.current ≠ none → k.rtSchedule = some k' → k'.current ≠ none := by
    intro k k' started switch
    unfold Kernel.rtSchedule at switch
    split at switch
    · obtain ⟨⟨p, t⟩, -, same⟩ := Option.bind_eq_some_iff.mp switch
      rw [← Option.some.inj same]
      split
      · exact started
      · exact Option.some_ne_none t
    · rw [← Option.some.inj switch]
      exact started
  have after : ∀ {i : Bool × Kernel T S} {k}, Kernel.reschedule i = some k → i.2.current ≠ none → k.current ≠ none := by
    intro i k switch started
    unfold Kernel.reschedule at switch
    split at switch
    · exact switched started switch
    · rw [← Option.some.inj switch]
      exact started
  cases step with
  | startup reset init => exact absurd reset started
  | start reset _ switch => exact absurd reset started
  | @call t c current free allowed =>
    rw [(c.keeps t r.kernel).1]
    exact started
  | schedule current due switch => exact switched started switch
  | @tick t k current switch =>
    refine after switch ?_
    rw [(Kernel.stays_tick (k := r.kernel) t).current]
    exact started
  | @timeout t u k current _ switch => exact switched (k := r.kernel.rtThreadTimeout u) started switch
  | @isrRelease t s k current switch =>
    refine after switch ?_
    rw [(Kernel.stays_release (k := r.kernel) s).current]
    exact started

end Started

section Timed

variable {T S : Type}

/-- The kernel with its timers; `now` counts the ticks, and `due` is what each timer was last set for. -/
structure Timed (T S : Type) where
  running : Running T S
  timers : HardTimers T
  now : Nat
  due : T → Nat

inductive TimedEvent (T S : Type) where
  /-- `time` is the argument of `rt_thread_sleep`, where the event calls it. -/
  | kernel (e : KernelEvent T S) (time : UInt32)
  /-- `rt_tick_increase`, in which these timers go off. -/
  | tick (gone : List T)

variable [DecidableEq T] [DecidableEq S]

/-- `rt_timer_check` calls `rt_thread_timeout` of these threads. -/
inductive Fires (idle : T) : Running T S → List T → Running T S → Prop
  | nil {r : Running T S} : Fires idle r [] r
  | cons {r r1 r2 : Running T S} {t : T} {l : List T} (first : KernelStep idle r (.timeout t) r1) (rest : Fires idle r1 l r2) :
      Fires idle r (t :: l) r2

inductive TimedStep (idle : T) : Timed T S → TimedEvent T S → Timed T S → Prop
  | kernel {x : Timed T S} {r : Running T S} (e : KernelEvent T S) (time : UInt32) (untimed : e.Untimed)
      (short : ∀ op ∈ e.timers time x.running.kernel, op.Short) (step : KernelStep idle x.running e r) :
      TimedStep idle x (.kernel e time) ⟨r, (e.timers time x.running.kernel).foldl HardTimers.apply x.timers, x.now,
        (e.timers time x.running.kernel).foldl (TimerOp.onDue x.now) x.due⟩
  | tick {x : Timed T S} {r r' : Running T S} (count : KernelStep idle x.running .tick r)
      (fires : Fires idle r x.timers.next.rtTimerCheck.1 r') :
      TimedStep idle x (.tick x.timers.next.rtTimerCheck.1)
        ⟨r', { x.timers.next with list := x.timers.next.rtTimerCheck.2 }, x.now + 1, x.due⟩

/-- With no timer started. -/
def Timed.reset (priority : T → Fin 32) (tick : T → BitVec 32) (value : S → BitVec 16) (flag : S → IpcFlag) : Timed T S where
  running := Running.reset priority tick value flag
  timers := ⟨0, fun _ => 0, []⟩
  now := 0
  due _ := 0

variable {idle : T} {r r' : Running T S} {l : List T} {x x' : Timed T S}

/-- **The timeouts of a tick.** Each thread of the list becomes ready with `RT_ETIMEOUT`, and only these timers are no longer started. -/
theorem Fires.spec (fires : Fires idle r l r') (nodup : l.Nodup) (sound : r.Sound idle) : r'.Sound idle ∧
    (∀ t, r'.kernel.started t = true ↔ r.kernel.started t = true ∧ t ∉ l) ∧
    (∀ t, t ∉ l → r'.kernel.thread t = r.kernel.thread t) ∧
    ∀ t ∈ l, (r'.kernel.thread t).stat = .ready ∧ (r'.kernel.thread t).error = .etimeout := by
  induction fires with
  | nil => exact ⟨sound, by simp, fun _ _ => rfl, fun t none => absurd none List.not_mem_nil⟩
  | @cons r r1 r2 t l first rest ih =>
    obtain ⟨fresh, nodup⟩ := List.nodup_cons.mp nodup
    obtain ⟨sound', started, others, gone⟩ := ih nodup (first.sound sound)
    have timeout : r1.kernel.thread = (r.kernel.rtThreadTimeout t).thread := by
      cases first with
      | timeout current _ switch =>
        dsimp only
        rw [Kernel.rtSchedule_same switch]
    have own : ∀ u, u ≠ t → r1.kernel.thread u = r.kernel.thread u := fun u other => by rw [timeout, Kernel.others_timeout other]
    have flags : r1.kernel.started = Function.update r.kernel.started t false := by
      rw [← Kernel.started_timeout, Kernel.started, Kernel.started, timeout]
    refine ⟨sound', fun u => ?_, fun u absent => ?_, fun u inside => ?_⟩
    · rw [started, flags, List.mem_cons]
      rcases eq_or_ne u t with rfl | other
      · simp
      · simp [other]
    · obtain ⟨other, absent⟩ := List.ne_and_not_mem_of_not_mem_cons absent
      rw [others u absent, own u other]
    · rcases List.mem_cons.mp inside with rfl | inside
      · rw [others u fresh, timeout, Kernel.rtThreadTimeout, Kernel.rtScheduleInsertThread_thread]
        simp
      · exact gone u inside

/-- What holds of the kernel and its timers. -/
structure Timed.Sound (idle : T) (x : Timed T S) : Prop where
  sound : x.running.Sound idle
  exact : Exact x.now x.due x.running.kernel.started x.timers

/-- A tick's count starts and stops no timer. -/
theorem KernelStep.tick_started (count : KernelStep idle r .tick r') : r'.kernel.started = r.kernel.started := by
  cases count with
  | @tick t k current switch =>
    have counted : (r.kernel.rtTickIncrease t).2.started = r.kernel.started :=
      funext fun u => Kernel.tick_keeps RtThread.timer (fun _ _ => rfl) t u
    unfold Kernel.reschedule at switch
    split at switch
    · rw [Kernel.rtSchedule_same switch]
      exact counted
    · rw [← Option.some.inj switch]
      exact counted

/-- **The list stays exact.** -/
theorem TimedStep.sound {e : TimedEvent T S} (step : TimedStep idle x e x') (sound : x.Sound idle) : x'.Sound idle := by
  cases step with
  | kernel e time untimed short step => exact ⟨step.sound sound.sound, step.started untimed time ▸ sound.exact.apply short⟩
  | @tick r r' count fires =>
    obtain ⟨taken, -, sub, -⟩ := sound.exact.check
    obtain ⟨sound', flags, -, -⟩ := fires.spec (sound.exact.nodup.sublist sub) (count.sound sound.sound)
    refine ⟨sound', sound.exact.checked fun t => ?_⟩
    rw [flags, count.tick_started, taken]
    refine and_congr_right fun started => ?_
    rw [not_and, not_le]
    exact ⟨fun late => late started, fun late _ => late⟩

section Runs

variable {priority : T → Fin 32} {tick : T → BitVec 32} {value : S → BitVec 16} {flag : S → IpcFlag} {es : List (TimedEvent T S)}

end Runs

end Timed

section Slept

/-- The worker sleeps for two ticks, and one is over. -/
def slept : List (TimedEvent Bool Unit) :=
  [.tick [], .kernel (.schedule true) 0, .kernel (.call true .sleep) 2, .kernel .start 0, .kernel (.startup true) 0, .kernel (.startup false) 0]

end Slept

end DoorSecurity
