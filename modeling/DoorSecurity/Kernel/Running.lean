import DoorSecurity.Kernel.Queues
import DoorSecurity.Lts.Runs

/-!
# The kernel running

The running thread calls the kernel; a call that has to reschedule leaves the thread with
an `rt_schedule` due, and interrupts may come before it. Interrupts count ticks, let
thread timers go off and release semaphores. From reset on and in any order of these,
the lists stay well formed, `rt_schedule` finds a thread, and a thread that has nothing
due is the first of the most urgent ready ones (`KernelStep.sound`).
-/

namespace DoorSecurity
set_option autoImplicit false
open Rings Lts

variable {T S : Type}

/-- What the running thread calls. -/
inductive KernelCall (T S : Type) where
  | startup (t : T)
  | take (s : S) (time : Int)
  | release (s : S)
  | yield
  | sleep
  /-- The end of `rt_thread_sleep`. -/
  | slept
  /-- `rt_thread_suspend` of the thread itself. -/
  | suspend
  | resume (t : T)
  /-- The end of a thread, whose object is detached or not. -/
  | exit (detach : Bool)
  | idleExcute
  | enterCritical
  | exitCritical

namespace KernelCall

/-- The call by the thread `t`, and whether it goes on to `rt_schedule` itself. -/
def run [DecidableEq T] [DecidableEq S] (t : T) (k : Kernel T S) : KernelCall T S → Bool × Kernel T S
  | .startup u => (true, k.rtThreadStartup u)
  | .take s time => ((k.rtSemTake t s time).1 = .suspended, (k.rtSemTake t s time).2)
  | .release s => k.rtSemRelease s
  | .yield => k.rtThreadYield t
  | .sleep => (true, k.rtThreadSleep t)
  | .slept => (false, k.rtThreadSlept t)
  | .suspend => (false, (k.rtThreadSuspend t).2)
  | .resume u => (false, (k.rtThreadResume u).2)
  | .exit detach => (true, k.rtThreadExit t detach)
  | .idleExcute => (false, k.rtThreadIdleExcute)
  | .enterCritical => (false, k.rtEnterCritical)
  | .exitCritical => k.rtExitCritical

/-- The call leaves `rt_schedule` to its caller: so the comment of `rt_thread_suspend`, and so
`rt_timer_start` does where it resumed the timer thread. -/
def callerSchedules [DecidableEq T] [DecidableEq S] (k : Kernel T S) : KernelCall T S → Bool
  | .suspend => true
  | .resume u => (k.rtThreadResume u).1 = .eok
  | _ => false

/-- The next statement of the thread is `rt_schedule`. -/
def due [DecidableEq T] [DecidableEq S] (t : T) (k : Kernel T S) (c : KernelCall T S) : Bool := (c.run t k).1 || c.callerSchedules k

/-- The call suspends or ends its thread. -/
def Blocks (k : Kernel T S) : KernelCall T S → Prop
  | .take s time => k.value s = 0 ∧ time ≠ 0
  | .sleep | .suspend | .exit _ => True
  | _ => False

/-- How the kernel may be called. -/
structure Allowed (idle t : T) (k : Kernel T S) (c : KernelCall T S) : Prop where
  /-- A thread is started once. -/
  once : ∀ u, c = .startup u → (k.thread u).stat = .init
  /-- Nothing blocks in a critical section, and the idle thread never. -/
  blocks : c.Blocks k → k.lockNest = 0 ∧ t ≠ idle
  /-- The counter of the critical sections does not overflow. -/
  nest : c = .enterCritical → k.lockNest < 32767

end KernelCall

/-- The kernel, and the threads whose next statement is `rt_schedule`. -/
structure Running (T S : Type) where
  kernel : Kernel T S
  due : T → Bool

inductive KernelEvent (T S : Type) where
  /-- `rt_thread_startup` before the scheduler starts. -/
  | startup (t : T)
  | start
  | call (t : T) (c : KernelCall T S)
  | schedule (t : T)
  | tick
  | timeout (t : T)
  | isrRelease (s : S)

/-- `rt_schedule` where a function goes on to it. -/
def Kernel.reschedule [DecidableEq T] (r : Bool × Kernel T S) : Option (Kernel T S) := if r.1 then r.2.rtSchedule else some r.2

inductive KernelStep [DecidableEq T] [DecidableEq S] (idle : T) : Running T S → KernelEvent T S → Running T S → Prop
  | startup {r t} (reset : r.kernel.current = none) (init : (r.kernel.thread t).stat = .init) :
      KernelStep idle r (.startup t) { r with kernel := r.kernel.rtThreadStartup t }
  | start {r k} (reset : r.kernel.current = none) (started : (r.kernel.thread idle).stat = .ready)
      (switch : r.kernel.rtSystemSchedulerStart = some k) : KernelStep idle r .start { r with kernel := k }
  | call {r t c} (current : r.kernel.current = some t) (free : r.due t = false) (allowed : c.Allowed idle t r.kernel) :
      KernelStep idle r (.call t c) ⟨(c.run t r.kernel).2, Function.update r.due t (c.due t r.kernel)⟩
  | schedule {r t k} (current : r.kernel.current = some t) (due : r.due t = true) (switch : r.kernel.rtSchedule = some k) :
      KernelStep idle r (.schedule t) ⟨k, Function.update r.due t false⟩
  | tick {r t k} (current : r.kernel.current = some t) (switch : Kernel.reschedule (r.kernel.rtTickIncrease t) = some k) :
      KernelStep idle r .tick { r with kernel := k }
  | timeout {r t u k} (current : r.kernel.current = some t) (started : (r.kernel.thread u).timer = true)
      (switch : (r.kernel.rtThreadTimeout u).rtSchedule = some k) : KernelStep idle r (.timeout u) { r with kernel := k }
  | isrRelease {r t s k} (current : r.kernel.current = some t) (switch : Kernel.reschedule (r.kernel.rtSemRelease s) = some k) :
      KernelStep idle r (.isrRelease s) { r with kernel := k }

/-- The kernel after `rt_system_scheduler_init` and the initialisation of the threads and semaphores. -/
def Running.reset (priority : T → Fin 32) (tick : T → BitVec 32) (value : S → BitVec 16) (flag : S → IpcFlag) : Running T S where
  kernel := {
    lists := fun _ => []
    group := 0
    current := none
    currentPriority := 31
    lockNest := 0
    thread := fun t => ⟨.init, priority t, priority t, 0, .eok, tick t, tick t, false⟩
    value := value
    flag := flag }
  due _ := false

namespace Kernel

variable {k k' : Kernel T S} {t u : T} {s : S}

/-- The thread runs and is the first of the most urgent ready ones. -/
structure Leads (k : Kernel T S) (t : T) : Prop where
  current : k.current = some t
  ready : (k.thread t).stat = .ready
  first : (k.lists (.priority (k.thread t).currentPriority)).head? = some t
  urgent : ∀ {u}, (k.thread u).stat = .ready → (k.thread t).currentPriority ≤ (k.thread u).currentPriority

/-- What `rt_schedule` finds where some thread is ready. -/
theorem WellFormed.toThread (wf : k.WellFormed) (awake : (k.thread u).stat = .ready) : ∃ t, k.toThread = some ((k.thread t).currentPriority, t) ∧
    (k.thread t).stat = .ready ∧ (k.lists (.priority (k.thread t).currentPriority)).head? = some t ∧
    ∀ {v}, (k.thread v).stat = .ready → (k.thread t).currentPriority ≤ (k.thread v).currentPriority := by
  have bit : ∀ {v}, (k.thread v).stat = .ready → k.group.getLsbD (k.thread v).currentPriority = true := by
    intro v ready
    exact (wf.group _).mpr (List.ne_nil_of_mem (wf.ready ready))
  have nonzero : k.group ≠ 0 := by
    intro none
    have set := bit awake
    rw [none] at set
    exact absurd (set.symm.trans BitVec.getLsbD_zero) (by decide)
  obtain ⟨p, found, set, lowest⟩ := rtFfs_spec nonzero
  obtain ⟨t, l, list⟩ := List.exists_cons_of_ne_nil ((wf.group p).mp set)
  have first : t ∈ k.lists (.priority p) := by rw [list]; exact List.mem_cons_self
  obtain ⟨ready, rfl⟩ := wf.belongs first
  refine ⟨t, ?_, ready, by rw [list]; rfl, fun {v} ready' => ?_⟩
  · have place : k.highestReadyPriority = some (k.thread t).currentPriority := by
      rw [highestReadyPriority, found, if_neg (Nat.succ_ne_zero _), Nat.add_sub_cancel]
      exact congrArg some (Fin.ofNat_val_eq_self _)
    rw [Kernel.toThread, place]
    simp [list]
  · by_contra lower
    exact absurd (bit ready') (by rw [lowest _ (Fin.not_le.mp lower)]; decide)

theorem WellFormed.current (wf : k.WellFormed) (c : Option T) (p : Fin 32) : ({ k with current := c, currentPriority := p } : Kernel T S).WellFormed :=
  ⟨wf.toSeparate, wf.belongs, wf.ready, wf.mask, wf.group, wf.timer, wf.value, wf.order⟩

/-- What the leading thread depends on. -/
theorem Leads.congr (leads : k.Leads t) (current : k'.current = k.current) (lists : ∀ p, k'.lists (.priority p) = k.lists (.priority p))
    (same : ∀ u, (k'.thread u).stat = (k.thread u).stat ∧ (k'.thread u).currentPriority = (k.thread u).currentPriority) : k'.Leads t where
  current := current.trans leads.current
  ready := (same t).1.trans leads.ready
  first := by
    rw [lists, (same t).2]
    exact leads.first
  urgent := by
    intro u ready
    rw [(same t).2, (same u).2]
    exact leads.urgent ((same u).1.symm.trans ready)

section Schedule

variable [DecidableEq T]

/-- `rt_schedule` changes what runs and nothing else. -/
theorem rtSchedule_same (switch : k.rtSchedule = some k') : k' = { k with current := k'.current, currentPriority := k'.currentPriority } := by
  unfold Kernel.rtSchedule at switch
  split at switch
  · obtain ⟨⟨p, t⟩, -, same⟩ := Option.bind_eq_some_iff.mp switch
    obtain rfl := Option.some.inj same
    split <;> rfl
  · obtain rfl := Option.some.inj switch
    rfl

theorem WellFormed.rtSchedule (wf : k.WellFormed) (switch : k.rtSchedule = some k') : k'.WellFormed := by
  rw [rtSchedule_same switch]
  exact wf.current _ _

/-- `rt_schedule` finds a thread, and the right one. -/
theorem WellFormed.rtSchedule_leads (wf : k.WellFormed) (awake : (k.thread u).stat = .ready) :
    ∃ k', k.rtSchedule = some k' ∧ (k.lockNest = 0 → ∃ t, k'.Leads t) ∧ (k.lockNest ≠ 0 → k' = k) := by
  unfold Kernel.rtSchedule
  split
  · rename_i unlocked
    obtain ⟨t, found, ready, first, urgent⟩ := wf.toThread awake
    rw [found]
    refine ⟨_, rfl, fun _ => ⟨t, ?_⟩, fun locked => absurd unlocked locked⟩
    split
    · rename_i current
      exact ⟨current, ready, first, urgent⟩
    · exact ⟨rfl, ready, first, urgent⟩
  · rename_i locked
    exact ⟨k, rfl, fun unlocked => absurd unlocked locked, fun _ => rfl⟩

end Schedule

/-- What runs, the scheduler's lock and the kind of each semaphore stay. -/
structure Stays (k k' : Kernel T S) : Prop where
  current : k'.current = k.current
  lockNest : k'.lockNest = k.lockNest
  flag : k'.flag = k.flag

theorem Stays.trans {k'' : Kernel T S} (first : Stays k k') (second : Stays k' k'') : Stays k k'' :=
  ⟨second.current.trans first.current, second.lockNest.trans first.lockNest, second.flag.trans first.flag⟩

section Stays

variable [DecidableEq T]

theorem stays_setThread (t : T) (f : RtThread → RtThread) : Stays k (k.setThread t f) := ⟨rfl, rfl, rfl⟩

theorem stays_removeThread (t : T) : Stays k (k.rtScheduleRemoveThread t) := by
  rw [rtScheduleRemoveThread_eq]
  exact ⟨rfl, rfl, rfl⟩

theorem stays_suspend (t : T) : Stays k (k.rtThreadSuspend t).2 := by
  unfold Kernel.rtThreadSuspend
  split
  · exact ⟨rfl, rfl, rfl⟩
  · dsimp only
    exact (stays_setThread t _).trans ((stays_removeThread t).trans (stays_setThread t _))

theorem stays_sleep (t : T) : Stays k (k.rtThreadSleep t) := (stays_suspend t).trans (stays_setThread t _)

theorem stays_idleExcute : Stays k k.rtThreadIdleExcute := by
  unfold Kernel.rtThreadIdleExcute
  split <;> exact ⟨rfl, rfl, rfl⟩

variable [DecidableEq S]

theorem stays_exit (t : T) (detach : Bool) : Stays k (k.rtThreadExit t detach) := by
  have ended := (stays_removeThread (k := k) t).trans (stays_setThread t fun thread => { thread with stat := .close, timer := false })
  unfold Kernel.rtThreadExit
  dsimp only
  split
  · exact ended
  · exact ended.trans ⟨rfl, rfl, rfl⟩

theorem stays_resume (t : T) : Stays k (k.rtThreadResume t).2 := by
  unfold Kernel.rtThreadResume
  split <;> exact ⟨rfl, rfl, rfl⟩

theorem stays_yield (t : T) : Stays k (k.rtThreadYield t).2 := by
  unfold Kernel.rtThreadYield
  split <;> exact ⟨rfl, rfl, rfl⟩

theorem stays_tick (t : T) : Stays k (k.rtTickIncrease t).2 := by
  unfold Kernel.rtTickIncrease
  dsimp only
  split
  · exact (stays_setThread t _).trans ((stays_setThread t _).trans (stays_yield t))
  · exact ⟨rfl, rfl, rfl⟩

theorem stays_take (t : T) (s : S) (time : Int) : Stays k (k.rtSemTake t s time).2 := by
  unfold Kernel.rtSemTake
  split
  · exact ⟨rfl, rfl, rfl⟩
  · split
    · exact ⟨rfl, rfl, rfl⟩
    · dsimp only
      rw [rtIpcListSuspend_eq]
      have waiting := (stays_setThread (k := k) t fun thread => { thread with error := .eok }).trans (stays_suspend t)
      split <;> exact waiting.trans ⟨rfl, rfl, rfl⟩

theorem stays_release (s : S) : Stays k (k.rtSemRelease s).2 := by
  unfold Kernel.rtSemRelease
  split
  · unfold Kernel.rtIpcListResume
    dsimp only
    split
    · exact ⟨rfl, rfl, rfl⟩
    · exact stays_resume _
  · exact ⟨rfl, rfl, rfl⟩

end Stays

/-- Every thread has the priority that it was created with. -/
def Level (priority : T → Fin 32) (k : Kernel T S) : Prop :=
  ∀ t, (k.thread t).initPriority = priority t ∧ (k.thread t).currentPriority = priority t

section Level

variable [DecidableEq T] {priority : T → Fin 32}

theorem Level.setThread (level : k.Level priority) (t : T) {f : RtThread → RtThread}
    (same : (f (k.thread t)).initPriority = (k.thread t).initPriority ∧ (f (k.thread t)).currentPriority = (k.thread t).currentPriority) :
    (k.setThread t f).Level priority := by
  intro u
  rcases eq_or_ne u t with rfl | other
  · rw [setThread_self, same.1, same.2]
    exact level u
  · rw [setThread_of_ne _ other]
    exact level u

theorem Level.removeThread (level : k.Level priority) (t : T) : (k.rtScheduleRemoveThread t).Level priority := by
  rw [rtScheduleRemoveThread_eq]
  exact level

theorem Level.suspend (level : k.Level priority) (t : T) : (k.rtThreadSuspend t).2.Level priority := by
  unfold Kernel.rtThreadSuspend
  split
  · exact level
  · dsimp only
    refine Level.setThread (Level.removeThread (level.setThread t ?_) t) t ?_ <;> exact ⟨rfl, rfl⟩

theorem Level.sleep (level : k.Level priority) (t : T) : (k.rtThreadSleep t).Level priority := (level.suspend t).setThread t ⟨rfl, rfl⟩

theorem Level.slept (level : k.Level priority) (t : T) : (k.rtThreadSlept t).Level priority := by
  unfold Kernel.rtThreadSlept
  split
  · exact level.setThread t ⟨rfl, rfl⟩
  · exact level

theorem idleExcute_thread : k.rtThreadIdleExcute.thread = k.thread := by
  unfold Kernel.rtThreadIdleExcute
  split <;> rfl

theorem Level.idleExcute (level : k.Level priority) : k.rtThreadIdleExcute.Level priority := by
  unfold Level
  rw [idleExcute_thread]
  exact level

theorem Level.schedule (level : k.Level priority) (switch : k.rtSchedule = some k') : k'.Level priority := by
  rw [rtSchedule_same switch]
  exact level

variable [DecidableEq S]

theorem Level.exit (level : k.Level priority) (t : T) (detach : Bool) : (k.rtThreadExit t detach).Level priority := by
  have ended := (level.removeThread t).setThread t (f := fun thread => { thread with stat := .close, timer := false }) ⟨rfl, rfl⟩
  unfold Kernel.rtThreadExit
  dsimp only
  split <;> exact ended

theorem Level.insertThread (level : k.Level priority) (t : T) : (k.rtScheduleInsertThread t).Level priority :=
  level.setThread t (f := fun thread => { thread with stat := .ready }) ⟨rfl, rfl⟩

theorem Level.resume (level : k.Level priority) (t : T) : (k.rtThreadResume t).2.Level priority := by
  have unlinked : (k.setLists (remove t)).Level priority := level
  unfold Kernel.rtThreadResume
  split
  · exact level
  · exact (unlinked.setThread t ⟨rfl, rfl⟩).insertThread t

/-- A thread starts with its first priority. -/
theorem Level.startup (level : k.Level priority) (t : T) : (k.rtThreadStartup t).Level priority :=
  Level.resume (level.setThread t ⟨rfl, (level t).1.trans (level t).2.symm⟩) t

theorem Level.timeout (level : k.Level priority) (t : T) : (k.rtThreadTimeout t).Level priority := by
  have failed := (level.setThread t (f := fun thread => { thread with timer := false }) ⟨rfl, rfl⟩).setThread t
    (f := fun thread => { thread with error := .etimeout }) ⟨rfl, rfl⟩
  refine Level.insertThread ?_ t
  exact failed

theorem Level.yield (level : k.Level priority) (t : T) : (k.rtThreadYield t).2.Level priority := by
  unfold Kernel.rtThreadYield
  split <;> exact level

theorem Level.tick (level : k.Level priority) (t : T) : (k.rtTickIncrease t).2.Level priority := by
  have counted := level.setThread t (f := fun thread => { thread with remainingTick := thread.remainingTick - 1 }) ⟨rfl, rfl⟩
  unfold Kernel.rtTickIncrease
  dsimp only
  split
  · exact (counted.setThread t ⟨rfl, rfl⟩).yield t
  · exact counted

theorem Level.take (level : k.Level priority) (t : T) (s : S) (time : Int) : (k.rtSemTake t s time).2.Level priority := by
  have suspended := (level.setThread t (f := fun thread => { thread with error := .eok }) ⟨rfl, rfl⟩).suspend t
  unfold Kernel.rtSemTake
  split
  · exact level
  · split
    · exact level
    · dsimp only
      rw [rtIpcListSuspend_eq]
      split
      · refine Level.setThread ?_ t ⟨rfl, rfl⟩
        exact suspended
      · exact suspended

theorem Level.release (level : k.Level priority) (s : S) : (k.rtSemRelease s).2.Level priority := by
  unfold Kernel.rtSemRelease
  split
  · unfold Kernel.rtIpcListResume
    dsimp only
    split
    · exact level
    · exact level.resume _
  · exact level

end Level

section Others

variable [DecidableEq T] (other : u ≠ t)
include other

theorem others_suspend : (k.rtThreadSuspend t).2.thread u = k.thread u := by
  unfold Kernel.rtThreadSuspend
  split
  · rfl
  · dsimp only
    rw [setThread_of_ne _ other, rtScheduleRemoveThread_thread, setThread_of_ne _ other]

theorem others_sleep : (k.rtThreadSleep t).thread u = k.thread u := (setThread_of_ne _ other _).trans (others_suspend other)

theorem others_slept : (k.rtThreadSlept t).thread u = k.thread u := by
  unfold Kernel.rtThreadSlept
  split
  · exact setThread_of_ne _ other _
  · rfl

variable [DecidableEq S]

theorem others_exit (detach : Bool) : (k.rtThreadExit t detach).thread u = k.thread u := by
  have ended : ((k.rtScheduleRemoveThread t).setThread t fun thread => { thread with stat := .close, timer := false }).thread u = k.thread u := by
    rw [setThread_of_ne _ other, rtScheduleRemoveThread_thread]
  unfold Kernel.rtThreadExit
  dsimp only
  split <;> exact ended

theorem others_resume : (k.rtThreadResume t).2.thread u = k.thread u := by
  unfold Kernel.rtThreadResume
  split
  · rfl
  · dsimp only
    rw [rtScheduleInsertThread_thread, setThread_of_ne _ other, setThread_of_ne _ other, setLists_thread]

theorem others_startup : (k.rtThreadStartup t).thread u = k.thread u := (others_resume other).trans (setThread_of_ne _ other _)

theorem others_timeout : (k.rtThreadTimeout t).thread u = k.thread u := by
  rw [Kernel.rtThreadTimeout, rtScheduleInsertThread_thread, setThread_of_ne _ other, setLists_thread, setThread_of_ne _ other,
    setThread_of_ne _ other]

theorem others_take (s : S) (time : Int) : (k.rtSemTake t s time).2.thread u = k.thread u := by
  unfold Kernel.rtSemTake
  split
  · rfl
  · split
    · rfl
    · dsimp only
      rw [rtIpcListSuspend_eq]
      have waiting : ((k.setThread t fun thread => { thread with error := .eok }).rtThreadSuspend t).2.thread u = k.thread u :=
        (others_suspend other).trans (setThread_of_ne _ other _)
      split
      · exact (setThread_of_ne _ other _).trans waiting
      · exact waiting

end Others

section Semaphores

variable [DecidableEq T] [DecidableEq S]

omit [DecidableEq T] [DecidableEq S] in
theorem value_cases (k : Kernel T S) (s : S) : k.value s = 0 ∨ 0 < k.value s := by
  rcases Nat.eq_zero_or_pos (k.value s).toNat with zero | positive
  · exact .inl (BitVec.eq_of_toNat_eq zero)
  · exact .inr positive

/-- The three ways of `rt_sem_take`. -/
theorem rtSemTake_cases (t : T) (s : S) (time : Int) (k : Kernel T S) :
    (0 < k.value s ∧ k.rtSemTake t s time = (.taken, { k with value := Function.update k.value s (k.value s - 1) })) ∨
    (k.value s = 0 ∧ time = 0 ∧ k.rtSemTake t s time = (.timeout, k)) ∨
    (k.value s = 0 ∧ time ≠ 0 ∧ (k.rtSemTake t s time).1 = .suspended) := by
  unfold Kernel.rtSemTake
  rcases value_cases k s with zero | available
  · have unavailable : ¬ 0 < k.value s := by rw [zero]; decide
    by_cases poll : time = 0
    · exact .inr (.inl ⟨zero, poll, by rw [if_neg unavailable, if_pos poll]⟩)
    · exact .inr (.inr ⟨zero, poll, by rw [if_neg unavailable, if_neg poll]⟩)
  · exact .inl ⟨available, if_pos available⟩

/-- The two ways of `rt_sem_release`: the first thread that waits goes on, or the value counts. -/
theorem rtSemRelease_cases (s : S) (k : Kernel T S) :
    (∃ u rest, k.lists (.suspended s) = u :: rest ∧ k.rtSemRelease s = (true, (k.rtThreadResume u).2)) ∨
    (k.lists (.suspended s) = [] ∧ k.rtSemRelease s = (false, { k with value := Function.update k.value s (k.value s + 1) })) := by
  unfold Kernel.rtSemRelease rtIpcListResume
  cases list : k.lists (.suspended s) with
  | nil => exact .inr ⟨rfl, if_neg (not_not.mpr rfl)⟩
  | cons u rest => exact .inl ⟨u, rest, rfl, if_pos (List.cons_ne_nil u rest)⟩

end Semaphores

section Ready

variable [DecidableEq T] [DecidableEq S]

/-- A ready thread is not resumed. -/
theorem resume_of_ready (ready : (k.thread t).stat = .ready) : (k.rtThreadResume t).2 = k := by
  rw [Kernel.rtThreadResume, if_pos (by rw [ready]; decide)]

theorem resume_of_failed (failed : (k.rtThreadResume t).1 ≠ .eok) : (k.rtThreadResume t).2 = k := by
  unfold Kernel.rtThreadResume at failed ⊢
  split
  · rfl
  · rename_i suspended
    exact absurd (by rw [if_neg suspended]) failed

/-- Waking a thread leaves the ready ones ready. -/
theorem ready_resume (ready : (k.thread u).stat = .ready) (t : T) : ((k.rtThreadResume t).2.thread u).stat = .ready := by
  rcases eq_or_ne u t with rfl | other
  · rw [resume_of_ready ready, ready]
  · rw [others_resume other, ready]

theorem ready_release (ready : (k.thread u).stat = .ready) (s : S) : ((k.rtSemRelease s).2.thread u).stat = .ready := by
  unfold Kernel.rtSemRelease
  split
  · unfold Kernel.rtIpcListResume
    dsimp only
    split
    · exact ready
    · exact ready_resume ready _
  · exact ready

omit [DecidableEq S] in
/-- What `f` leaves of a thread stays. -/
theorem setThread_keeps {A : Type} (p : RtThread → A) {f : RtThread → RtThread} (same : ∀ thread, p (f thread) = p thread) (t u : T) :
    p ((k.setThread t f).thread u) = p (k.thread u) := by
  rcases eq_or_ne u t with rfl | other
  · rw [setThread_self]
    exact same _
  · rw [setThread_of_ne _ other]

omit [DecidableEq S] in
/-- The end of a sleep only clears an error. -/
theorem slept_keeps {A : Type} (p : RtThread → A) (same : ∀ thread e, p { thread with error := e } = p thread) (t u : T) :
    p ((k.rtThreadSlept t).thread u) = p (k.thread u) := by
  unfold Kernel.rtThreadSlept
  split
  · exact setThread_keeps p (fun thread => same thread .eok) t u
  · rfl

theorem yield_thread (t : T) : (k.rtThreadYield t).2.thread = k.thread := by
  unfold Kernel.rtThreadYield
  split <;> rfl

/-- A tick only counts the running thread's ticks. -/
theorem tick_keeps {A : Type} (p : RtThread → A) (same : ∀ thread n, p { thread with remainingTick := n } = p thread) (t u : T) :
    p ((k.rtTickIncrease t).2.thread u) = p (k.thread u) := by
  have counted := setThread_keeps (k := k) p (fun thread => same thread (thread.remainingTick - 1)) t u
  unfold Kernel.rtTickIncrease
  dsimp only
  split
  · rw [yield_thread]
    exact (setThread_keeps p (fun thread => same thread thread.initTick) t u).trans counted
  · exact counted

/-- A yield that does not reschedule does nothing. -/
theorem yield_same (alone : (k.rtThreadYield t).1 = false) : (k.rtThreadYield t).2 = k := by
  unfold Kernel.rtThreadYield at alone ⊢
  split
  · rename_i several
    simp [if_pos several] at alone
  · rfl

omit [DecidableEq S] in
/-- The idle thread leaves the ready lists. -/
theorem idleExcute_priority (wf : k.WellFormed) (p : Fin 32) : k.rtThreadIdleExcute.lists (.priority p) = k.lists (.priority p) := by
  obtain same | ⟨t, closed, same⟩ := wf.idleExcute_cases <;> rw [same]
  exact List.erase_of_not_mem (wf.not_mem_priority (by rw [closed]; decide) p)

/-- A critical section that is entered below the counter's bound. -/
theorem nest_enter {n : Int16} (lock : 0 ≤ n) (below : n < 32767) : 0 ≤ n + 1 ∧ n + 1 ≠ 0 := by
  grind

/-- A tick that does not reschedule leaves the lists. -/
theorem tick_lists (same : (k.rtTickIncrease t).1 = false) : (k.rtTickIncrease t).2.lists = k.lists := by
  unfold Kernel.rtTickIncrease at same ⊢
  dsimp only at same ⊢
  split
  · rename_i spent
    rw [if_pos spent] at same
    rw [yield_same same]
    rfl
  · rfl

end Ready

end Kernel

/-- What holds of the kernel at any time. -/
structure Running.Sound (idle : T) (r : Running T S) : Prop where
  wf : r.kernel.WellFormed
  reset : r.kernel.current = none → r.kernel.lockNest = 0 ∧ ∀ t, r.due t = false
  lock : 0 ≤ r.kernel.lockNest
  /-- The idle thread is ready from the scheduler's start on. -/
  idle : r.kernel.current ≠ none → (r.kernel.thread idle).stat = .ready
  leads : ∀ {t}, r.kernel.current = some t → r.due t = false → r.kernel.lockNest = 0 → r.kernel.Leads t

section Step

variable [DecidableEq T] [DecidableEq S] {idle t : T} {k : Kernel T S} {c : KernelCall T S} {r r' : Running T S} {e : KernelEvent T S}

theorem KernelCall.wellFormed (wf : k.WellFormed) (init : ∀ u, c = .startup u → (k.thread u).stat = .init)
    (ready : c.Blocks k → (k.thread t).stat = .ready) : (c.run t k).2.WellFormed := by
  cases c with
  | startup u => exact wf.rtThreadStartup (init u rfl)
  | take s time => exact wf.rtSemTake s fun zero waits => ready ⟨zero, waits⟩
  | release s => exact wf.rtSemRelease s
  | yield => exact wf.rtThreadYield t
  | sleep => exact wf.rtThreadSleep (ready trivial)
  | slept => exact wf.rtThreadSlept t
  | suspend => exact wf.rtThreadSuspend (ready trivial)
  | resume u => exact wf.rtThreadResume u
  | exit detach => exact wf.rtThreadExit (ready trivial) detach
  | idleExcute => exact wf.rtThreadIdleExcute
  | enterCritical => exact ⟨wf.toSeparate, wf.belongs, wf.ready, wf.mask, wf.group, wf.timer, wf.value, wf.order⟩
  | exitCritical =>
    unfold KernelCall.run Kernel.rtExitCritical
    dsimp only
    split <;> exact ⟨wf.toSeparate, wf.belongs, wf.ready, wf.mask, wf.group, wf.timer, wf.value, wf.order⟩

theorem KernelCall.keeps (c : KernelCall T S) (t : T) (k : Kernel T S) :
    (c.run t k).2.current = k.current ∧ (c.run t k).2.flag = k.flag := by
  have both : ∀ {k' : Kernel T S}, Kernel.Stays k k' → k'.current = k.current ∧ k'.flag = k.flag := fun stays => ⟨stays.current, stays.flag⟩
  cases c with
  | startup u => exact both ((Kernel.stays_setThread u _).trans (Kernel.stays_resume u))
  | take s time => exact both (Kernel.stays_take t s time)
  | release s => exact both (Kernel.stays_release s)
  | yield => exact both (Kernel.stays_yield t)
  | sleep => exact both (Kernel.stays_sleep t)
  | slept =>
    unfold KernelCall.run Kernel.rtThreadSlept
    dsimp only
    split <;> exact ⟨rfl, rfl⟩
  | suspend => exact both (Kernel.stays_suspend t)
  | resume u => exact both (Kernel.stays_resume u)
  | exit detach => exact both (Kernel.stays_exit t detach)
  | idleExcute => exact both Kernel.stays_idleExcute
  | enterCritical => exact ⟨rfl, rfl⟩
  | exitCritical =>
    unfold KernelCall.run Kernel.rtExitCritical
    dsimp only
    split <;> exact ⟨rfl, rfl⟩

/-- The idle thread stays ready. -/
theorem KernelCall.ready_idle (awake : (k.thread idle).stat = .ready) (init : ∀ u, c = .startup u → (k.thread u).stat = .init)
    (other : c.Blocks k → t ≠ idle) : ((c.run t k).2.thread idle).stat = .ready := by
  cases c with
  | startup u =>
    have apart : idle ≠ u := by
      rintro rfl
      exact absurd (awake.symm.trans (init idle rfl)) (by decide)
    exact (congrArg RtThread.stat (Kernel.others_startup apart)).trans awake
  | take s time =>
    obtain ⟨-, taken⟩ | ⟨-, -, timeout⟩ | ⟨zero, waits, -⟩ := Kernel.rtSemTake_cases t s time k
    · show ((k.rtSemTake t s time).2.thread idle).stat = .ready
      rw [taken]
      exact awake
    · show ((k.rtSemTake t s time).2.thread idle).stat = .ready
      rw [timeout]
      exact awake
    · exact (congrArg RtThread.stat (Kernel.others_take (other ⟨zero, waits⟩).symm s time)).trans awake
  | release s => exact Kernel.ready_release awake s
  | yield => exact (congrArg (fun thread => (thread idle).stat) (Kernel.yield_thread t)).trans awake
  | sleep => exact (congrArg RtThread.stat (Kernel.others_sleep (other trivial).symm)).trans awake
  | slept => exact (Kernel.slept_keeps RtThread.stat (fun _ _ => rfl) t idle).trans awake
  | suspend => exact (congrArg RtThread.stat (Kernel.others_suspend (other trivial).symm)).trans awake
  | resume u => exact Kernel.ready_resume awake u
  | exit detach => exact (congrArg RtThread.stat (Kernel.others_exit (other trivial).symm detach)).trans awake
  | idleExcute => exact (congrArg (fun thread => (thread idle).stat) Kernel.idleExcute_thread).trans awake
  | enterCritical => exact awake
  | exitCritical =>
    unfold KernelCall.run Kernel.rtExitCritical
    dsimp only
    split <;> exact awake

/-- A call that has nothing due leaves its thread where it was. -/
theorem KernelCall.leads (wf : k.WellFormed) (leads : k.lockNest = 0 → k.Leads t) (lock : 0 ≤ k.lockNest) (nest : c = .enterCritical → k.lockNest < 32767)
    (free : c.due t k = false) (unlocked : (c.run t k).2.lockNest = 0) : (c.run t k).2.Leads t := by
  obtain ⟨free, left⟩ := Bool.or_eq_false_iff.mp free
  cases c with
  | startup u => exact absurd free (by simp [KernelCall.run])
  | take s time =>
    have here := leads ((Kernel.stays_take t s time).lockNest.symm.trans unlocked)
    show (k.rtSemTake t s time).2.Leads t
    obtain ⟨-, taken⟩ | ⟨-, -, timeout⟩ | ⟨-, -, suspended⟩ := Kernel.rtSemTake_cases t s time k
    · rw [taken]
      exact here.congr rfl (fun _ => rfl) fun _ => ⟨rfl, rfl⟩
    · rw [timeout]
      exact here
    · exact absurd free (by simp [KernelCall.run, suspended])
  | release s =>
    have here := leads ((Kernel.stays_release s).lockNest.symm.trans unlocked)
    show (k.rtSemRelease s).2.Leads t
    obtain ⟨u, rest, -, woken⟩ | ⟨-, counted⟩ := Kernel.rtSemRelease_cases s k
    · exact absurd free (by simp [KernelCall.run, woken])
    · rw [counted]
      exact here.congr rfl (fun _ => rfl) fun _ => ⟨rfl, rfl⟩
  | yield =>
    have same : (k.rtThreadYield t).2 = k := Kernel.yield_same free
    show (k.rtThreadYield t).2.Leads t
    rw [same]
    exact leads ((Kernel.stays_yield t).lockNest.symm.trans unlocked)
  | sleep | exit => exact absurd free (by simp [KernelCall.run])
  | slept =>
    have same : k.rtThreadSlept t = { k with thread := (k.rtThreadSlept t).thread } := by
      unfold Kernel.rtThreadSlept
      split <;> rfl
    show (k.rtThreadSlept t).Leads t
    rw [same]
    exact (leads (by rw [← unlocked]; exact (congrArg Kernel.lockNest same).symm)).congr rfl (fun _ => rfl) fun u =>
      ⟨Kernel.slept_keeps RtThread.stat (fun _ _ => rfl) t u, Kernel.slept_keeps RtThread.currentPriority (fun _ _ => rfl) t u⟩
  | suspend => exact absurd left (by simp [KernelCall.callerSchedules])
  | resume u =>
    have same : (k.rtThreadResume u).2 = k := Kernel.resume_of_failed (of_decide_eq_false left)
    show (k.rtThreadResume u).2.Leads t
    rw [same]
    exact leads ((Kernel.stays_resume u).lockNest.symm.trans unlocked)
  | idleExcute =>
    have here := leads (Kernel.stays_idleExcute.lockNest.symm.trans unlocked)
    exact here.congr Kernel.stays_idleExcute.current (Kernel.idleExcute_priority wf) fun u => by
      rw [show (KernelCall.run t k .idleExcute).2.thread = k.thread from Kernel.idleExcute_thread]
      exact ⟨rfl, rfl⟩
  | enterCritical => exact absurd unlocked (Kernel.nest_enter lock (nest rfl)).2
  | exitCritical =>
    have held : ¬ k.lockNest - 1 ≤ 0 := fun last => by simp [KernelCall.run, Kernel.rtExitCritical, last] at free
    have zero : k.lockNest - 1 = 0 := by simpa [KernelCall.run, Kernel.rtExitCritical, held] using unlocked
    exact absurd (by rw [zero]; decide) held

theorem KernelCall.lock (c : KernelCall T S) (t : T) (lock : 0 ≤ k.lockNest) (nest : c = .enterCritical → k.lockNest < 32767) :
    0 ≤ (c.run t k).2.lockNest := by
  cases c with
  | startup u => exact lock.trans_eq ((Kernel.stays_setThread u _).trans (Kernel.stays_resume u)).lockNest.symm
  | take s time => exact lock.trans_eq (Kernel.stays_take t s time).lockNest.symm
  | release s => exact lock.trans_eq (Kernel.stays_release s).lockNest.symm
  | yield => exact lock.trans_eq (Kernel.stays_yield t).lockNest.symm
  | sleep => exact lock.trans_eq (Kernel.stays_sleep t).lockNest.symm
  | slept =>
    unfold KernelCall.run Kernel.rtThreadSlept
    dsimp only
    split <;> exact lock
  | suspend => exact lock.trans_eq (Kernel.stays_suspend t).lockNest.symm
  | resume u => exact lock.trans_eq (Kernel.stays_resume u).lockNest.symm
  | exit detach => exact lock.trans_eq (Kernel.stays_exit t detach).lockNest.symm
  | idleExcute => exact lock.trans_eq Kernel.stays_idleExcute.lockNest.symm
  | enterCritical => exact (Kernel.nest_enter lock (nest rfl)).1
  | exitCritical =>
    unfold KernelCall.run Kernel.rtExitCritical
    dsimp only
    split
    · exact Int16.le_refl 0
    · rename_i held
      exact Int16.le_of_lt (Int16.not_le.mp held)

omit [DecidableEq S] in
/-- After `rt_schedule`, whatever is due. -/
theorem Running.Sound.schedule (wf : k.WellFormed) (awake : (k.thread idle).stat = .ready) (lock : 0 ≤ k.lockNest) (started : k.current ≠ none)
    {k' : Kernel T S} (switch : k.rtSchedule = some k') (due : T → Bool) : Running.Sound idle ⟨k', due⟩ := by
  have same := Kernel.rtSchedule_same switch
  obtain ⟨k'', found, leads, locked⟩ := wf.rtSchedule_leads awake
  obtain rfl : k' = k'' := Option.some.inj (switch.symm.trans found)
  have nest : k'.lockNest = k.lockNest := by rw [same]
  have running : k'.current ≠ none := by
    by_cases unlocked : k.lockNest = 0
    · obtain ⟨t, here⟩ := leads unlocked
      rw [here.current]
      exact Option.some_ne_none t
    · rw [locked unlocked]
      exact started
  exact {
    wf := wf.rtSchedule switch
    reset := fun none => absurd none running
    lock := nest ▸ lock
    idle := fun _ => by
      show (k'.thread idle).stat = .ready
      rw [same]
      exact awake
    leads := by
      intro t current _ unlocked
      obtain ⟨u, here⟩ := leads (nest ▸ unlocked)
      obtain rfl : u = t := Option.some.inj (here.current.symm.trans current)
      exact here }

omit [DecidableEq S] in
/-- After an interrupt, which reschedules or leaves what leads. -/
theorem Running.Sound.interrupt {i : Bool × Kernel T S} (wf : i.2.WellFormed) (awake : (i.2.thread idle).stat = .ready) (lock : 0 ≤ i.2.lockNest)
    (started : i.2.current ≠ none) {k' : Kernel T S} (switch : Kernel.reschedule i = some k') (due : T → Bool)
    (leads : i.1 = false → ∀ {t}, i.2.current = some t → due t = false → i.2.lockNest = 0 → i.2.Leads t) : Running.Sound idle ⟨k', due⟩ := by
  unfold Kernel.reschedule at switch
  split at switch
  · exact .schedule wf awake lock started switch due
  · rename_i stays
    obtain rfl := Option.some.inj switch
    exact ⟨wf, fun none => absurd none started, lock, fun _ => awake, leads (Bool.eq_false_iff.mpr stays)⟩

theorem KernelCall.level {priority : T → Fin 32} (level : k.Level priority) (c : KernelCall T S) (t : T) : (c.run t k).2.Level priority := by
  cases c with
  | startup u => exact level.startup u
  | take s time => exact level.take t s time
  | release s => exact level.release s
  | yield => exact level.yield t
  | sleep => exact level.sleep t
  | slept => exact level.slept t
  | suspend => exact level.suspend t
  | resume u => exact level.resume u
  | exit detach => exact level.exit t detach
  | idleExcute => exact level.idleExcute
  | enterCritical => exact level
  | exitCritical =>
    unfold KernelCall.run Kernel.rtExitCritical
    dsimp only
    split <;> exact level

/-- Nothing changes a thread's priority. -/
theorem KernelStep.level {priority : T → Fin 32} (step : KernelStep idle r e r') (level : r.kernel.Level priority) : r'.kernel.Level priority := by
  have after : ∀ {i : Bool × Kernel T S} {k}, Kernel.reschedule i = some k → i.2.Level priority → k.Level priority := by
    intro i k switch level
    unfold Kernel.reschedule at switch
    split at switch
    · exact level.schedule switch
    · rw [← Option.some.inj switch]
      exact level
  cases step with
  | @startup t reset init => exact level.startup t
  | start reset started switch =>
    obtain ⟨⟨p, t⟩, -, same⟩ := Option.bind_eq_some_iff.mp switch
    rw [← Option.some.inj same]
    exact level
  | @call t c current free allowed => exact c.level level t
  | schedule current due switch => exact level.schedule switch
  | @tick t k current switch => exact after switch (level.tick t)
  | @timeout t u k current started switch => exact (level.timeout u).schedule switch
  | @isrRelease t s k current switch => exact after switch (level.release s)

/-- **What holds at any time is kept by every step.** -/
theorem KernelStep.sound (step : KernelStep idle r e r') (sound : r.Sound idle) : r'.Sound idle := by
  cases step with
  | @startup t reset init =>
    have stays := (Kernel.stays_setThread (k := r.kernel) t fun thread =>
      { thread with currentPriority := thread.initPriority, numberMask := 1#32 <<< thread.initPriority.val, stat := .suspend }).trans
        (Kernel.stays_resume t)
    have still : (r.kernel.rtThreadStartup t).current = none := stays.current.trans reset
    exact {
      wf := sound.wf.rtThreadStartup init
      reset := fun _ => ⟨stays.lockNest.trans (sound.reset reset).1, (sound.reset reset).2⟩
      lock := sound.lock.trans_eq stays.lockNest.symm
      idle := fun started => absurd still started
      leads := fun current => absurd (still.symm.trans current) (by simp) }
  | @start k reset started switch =>
    obtain ⟨t, found, ready, first, urgent⟩ := sound.wf.toThread started
    have begun : k = { r.kernel with current := some t } := by
      rw [Kernel.rtSystemSchedulerStart, found] at switch
      exact (Option.some.inj switch).symm
    rw [begun]
    exact {
      wf := sound.wf.current _ _
      reset := fun none => absurd none (Option.some_ne_none t)
      lock := sound.lock
      idle := fun _ => started
      leads := fun {u} current _ _ => by
        obtain rfl : t = u := Option.some.inj current
        exact ⟨rfl, ready, first, urgent⟩ }
  | @call t c current free allowed =>
    have started : r.kernel.current ≠ none := by simp [current]
    have ready : c.Blocks r.kernel → (r.kernel.thread t).stat = .ready := fun blocks =>
      (sound.leads current free (allowed.blocks blocks).1).ready
    have still : (c.run t r.kernel).2.current = some t := (c.keeps t r.kernel).1.trans current
    exact {
      wf := KernelCall.wellFormed sound.wf allowed.once ready
      reset := fun none => absurd (still.symm.trans none) (Option.some_ne_none t)
      lock := c.lock t sound.lock allowed.nest
      idle := fun _ => KernelCall.ready_idle (sound.idle started) allowed.once fun blocks => (allowed.blocks blocks).2
      leads := fun {u} current' nothing unlocked => by
        obtain rfl : t = u := Option.some.inj (still.symm.trans current')
        have nothing : c.due t r.kernel = false := (Function.update_self t _ r.due).symm.trans nothing
        exact KernelCall.leads sound.wf (sound.leads current free) sound.lock allowed.nest nothing unlocked }
  | schedule current due switch =>
    exact .schedule sound.wf (sound.idle (by simp [current])) sound.lock (by simp [current]) switch _
  | @tick t k current switch =>
    have stays : r.kernel.Stays (r.kernel.rtTickIncrease t).2 := Kernel.stays_tick t
    have same := fun u => And.intro (Kernel.tick_keeps (k := r.kernel) RtThread.stat (fun _ _ => rfl) t u)
      (Kernel.tick_keeps (k := r.kernel) RtThread.currentPriority (fun _ _ => rfl) t u)
    refine .interrupt (sound.wf.rtTickIncrease t) ((same idle).1.trans (sound.idle (by simp [current])))
      (sound.lock.trans_eq stays.lockNest.symm) (by rw [stays.current]; simp [current]) switch r.due fun whole {u} current' free unlocked => ?_
    have here := sound.leads (stays.current.symm.trans current') free (stays.lockNest.symm.trans unlocked)
    exact here.congr stays.current (fun p => congrFun (Kernel.tick_lists whole) _) same
  | @timeout t u k current started switch =>
    have suspended := sound.wf.timer started
    have awake := sound.idle (by simp [current])
    have other : idle ≠ u := by
      rintro rfl
      exact absurd (awake.symm.trans suspended) (by decide)
    exact .schedule (sound.wf.rtThreadTimeout suspended) ((congrArg RtThread.stat (Kernel.others_timeout other)).trans awake) sound.lock
      (by rw [show (r.kernel.rtThreadTimeout u).current = r.kernel.current from rfl]; simp [current]) switch _
  | @isrRelease t s k current switch =>
    have stays : r.kernel.Stays (r.kernel.rtSemRelease s).2 := Kernel.stays_release s
    refine .interrupt (sound.wf.rtSemRelease s) (Kernel.ready_release (sound.idle (by simp [current])) s)
      (sound.lock.trans_eq stays.lockNest.symm) (by rw [stays.current]; simp [current]) switch r.due fun counted {u} current' free unlocked => ?_
    have here := sound.leads (stays.current.symm.trans current') free (stays.lockNest.symm.trans unlocked)
    obtain ⟨w, rest, -, woken⟩ | ⟨-, added⟩ := Kernel.rtSemRelease_cases s r.kernel
    · exact absurd counted (by simp [woken])
    · rw [added]
      exact here.congr rfl (fun _ => rfl) fun _ => ⟨rfl, rfl⟩

/-- Each semaphore stays of its kind. -/
theorem KernelStep.flag (step : KernelStep idle r e r') : r'.kernel.flag = r.kernel.flag := by
  have switched : ∀ {k k' : Kernel T S}, k.rtSchedule = some k' → k'.flag = k.flag := by
    intro k k' switch
    rw [Kernel.rtSchedule_same switch]
  have after : ∀ {i : Bool × Kernel T S} {k}, Kernel.reschedule i = some k → k.flag = i.2.flag := by
    intro i k switch
    unfold Kernel.reschedule at switch
    split at switch
    · exact switched switch
    · rw [Option.some.inj switch]
  cases step with
  | @startup t reset init => exact ((Kernel.stays_setThread t _).trans (Kernel.stays_resume t)).flag
  | start reset started switch =>
    obtain ⟨⟨p, t⟩, -, same⟩ := Option.bind_eq_some_iff.mp switch
    rw [← Option.some.inj same]
  | @call t c current free allowed => exact (c.keeps t r.kernel).2
  | schedule current due switch => exact switched switch
  | @tick t k current switch => exact (after switch).trans (Kernel.stays_tick t).flag
  | @timeout t u k current started switch =>
    have timed := switched switch
    exact timed
  | @isrRelease t s k current switch => exact (after switch).trans (Kernel.stays_release s).flag

omit [DecidableEq T] [DecidableEq S] in
theorem sound_reset {priority : T → Fin 32} {tick : T → BitVec 32} {value : S → BitVec 16} {flag : S → IpcFlag} :
    (Running.reset priority tick value flag).Sound idle where
  wf := {
    nodup := fun _ => List.nodup_nil
    once := fun none => absurd none List.not_mem_nil
    belongs := fun none => absurd none List.not_mem_nil
    ready := fun ready => absurd ready (by simp [Running.reset])
    mask := fun present => absurd present (by simp [Running.reset])
    group := fun p => by simp [Running.reset]
    timer := fun started => absurd started (by simp [Running.reset])
    value := fun waited => absurd rfl waited
    order := fun _ => List.Pairwise.nil }
  reset _ := ⟨rfl, fun _ => rfl⟩
  lock := Int16.le_refl 0
  idle started := absurd rfl started
  leads current := absurd current (by simp [Running.reset])

end Step

section Woken

/-- The worker waits, and an interrupt wakes it. -/
def woken : List (KernelEvent Bool Unit) :=
  [.isrRelease (), .schedule true, .call true (.take () (-1)), .start, .startup true, .startup false]

end Woken

end DoorSecurity
