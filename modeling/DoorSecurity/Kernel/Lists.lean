import DoorSecurity.Kernel.Semaphores

/-!
# The kernel's lists in memory (`include/rtservice.h`)

Every thread's `tlist` is a node of at most one ring: a ready list's, or the queue's of a
semaphore. `KernelEvent.rings` is what each step does to the nodes, in the order of the source. From
`rt_list_init` of every node on, the rings of the nodes are the lists of the model at
any time of any run, and what the kernel reads off a node is what the model reads off a list (`rings_runs`).
-/

namespace DoorSecurity
set_option autoImplicit false
open Rings Lts

section Service

variable {N : Type} [DecidableEq N]

end Service

variable {T S : Type}

namespace Kernel

variable (k : Kernel T S) (t : T)

/-- `rt_thread_suspend`. -/
def suspendRings : List (Command (ListHead S) T) := if (k.thread t).stat ≠ .ready then [] else [.remove t]

/-- `rt_thread_resume`, with `rt_schedule_insert_thread`. -/
def resumeRings : List (Command (ListHead S) T) :=
  if (k.thread t).stat ≠ .suspend then [] else [.remove t, .append (.priority (k.thread t).currentPriority) t]

/-- `rt_thread_yield`. -/
def yieldRings : List (Command (ListHead S) T) :=
  if (k.thread t).stat = .ready ∧ 1 < (k.lists (.priority (k.thread t).currentPriority)).length then
    [.remove t, .append (.priority (k.thread t).currentPriority) t]
  else []

/-- `rt_tick_increase`. -/
def tickRings : List (Command (ListHead S) T) := if (k.thread t).remainingTick - 1 = 0 then k.yieldRings t else []

/-- `rt_thread_exit`. -/
def exitRings (detach : Bool) : List (Command (ListHead S) T) := if detach then [.remove t] else [.remove t, .prepend .defunct t]

/-- `rt_thread_idle_excute`, which reads the first of the defunct threads off the head. -/
def idleRings : List (Command (ListHead S) T) :=
  match k.lists .defunct with
  | [] => []
  | thread :: _ => [.first .defunct, .remove thread]

/-- `rt_ipc_list_suspend`. -/
def queueRings (s : S) : List (Command (ListHead S) T) :=
  match k.flag s with
  | .fifo => [.append (.suspended s) t]
  | .prio =>
    match (k.lists (.suspended s)).find? fun sthread => (k.thread t).currentPriority < (k.thread sthread).currentPriority with
    | some sthread => [.insertBefore sthread t]
    | none => [.append (.suspended s) t]

/-- `rt_sem_take`. -/
def takeRings (s : S) (time : Int) : List (Command (ListHead S) T) :=
  if 0 < k.value s ∨ time = 0 then [] else k.suspendRings t ++ k.queueRings t s

/-- `rt_sem_release`. -/
def releaseRings (s : S) : List (Command (ListHead S) T) :=
  match k.lists (.suspended s) with
  | [] => []
  | thread :: _ => k.resumeRings thread

end Kernel

def KernelCall.rings (t : T) (k : Kernel T S) : KernelCall T S → List (Command (ListHead S) T)
  | .startup u => [.remove u, .append (.priority (k.thread u).initPriority) u]
  | .take s time => k.takeRings t s time
  | .release s => k.releaseRings s
  | .yield => k.yieldRings t
  | .sleep | .suspend => k.suspendRings t
  | .resume u => k.resumeRings u
  | .exit detach => Kernel.exitRings t detach
  | .idleExcute => k.idleRings
  | .slept | .enterCritical | .exitCritical => []

/-- What a step does to the nodes. -/
def KernelEvent.rings (k : Kernel T S) : KernelEvent T S → List (Command (ListHead S) T)
  | .startup t => [.remove t, .append (.priority (k.thread t).initPriority) t]
  | .call t c => c.rings t k
  | .tick => k.current.elim [] k.tickRings
  | .timeout u => [.remove u, .append (.priority (k.thread u).currentPriority) u]
  | .isrRelease s => k.releaseRings s
  | .start | .schedule _ => []

section Rewires

variable [DecidableEq T] [DecidableEq S]

namespace Kernel

variable {k : Kernel T S} {t : T} {s : S}

theorem rewires_suspend (t : T) (k : Kernel T S) : Rewires (k.suspendRings t) k.lists (k.rtThreadSuspend t).2.lists := by
  by_cases ready : (k.thread t).stat = .ready
  · rw [rtThreadSuspend_of_ready ready, suspendRings, if_neg (not_not.mpr ready)]
    exact .remove t k.lists
  · rw [Kernel.rtThreadSuspend, if_pos ready, suspendRings, if_pos ready]
    exact .nil k.lists

theorem rewires_resume (separate : Separate k.lists) (t : T) : Rewires (k.resumeRings t) k.lists (k.rtThreadResume t).2.lists := by
  by_cases suspended : (k.thread t).stat = .suspend
  · rw [rtThreadResume_of_suspended suspended, resumeRings, if_neg (not_not.mpr suspended)]
    exact .move separate t _
  · rw [Kernel.rtThreadResume, if_pos suspended, resumeRings, if_pos suspended]
    exact .nil k.lists

/-- A thread that ends leaves its ready list, and may go to the front of the defunct threads. -/
theorem rewires_exit (separate : Separate k.lists) (t : T) (detach : Bool) : Rewires (exitRings t detach) k.lists (k.rtThreadExit t detach).lists := by
  have removed : ((k.rtScheduleRemoveThread t).setThread t fun thread => { thread with stat := .close, timer := false }).lists =
      remove t k.lists := rtScheduleRemoveThread_lists t k
  have buried : Rewires [.remove t, .prepend .defunct t] k.lists (prepend .defunct t (remove t k.lists)) :=
    .then t (separate.detached_remove t)
  unfold Kernel.rtThreadExit exitRings
  dsimp only
  split
  · rw [removed]
    exact .remove t k.lists
  · show Rewires _ k.lists (prepend .defunct t _)
    rw [removed]
    exact buried

theorem rewires_idleExcute (k : Kernel T S) : Rewires k.idleRings k.lists k.rtThreadIdleExcute.lists := by
  unfold Kernel.rtThreadIdleExcute idleRings
  cases list : k.lists .defunct with
  | nil => exact .nil k.lists
  | cons thread rest => exact ⟨rfl, trivial, trivial, trivial⟩

theorem rewires_startup (separate : Separate k.lists) (t : T) :
    Rewires [.remove t, .append (.priority (k.thread t).initPriority) t] k.lists (k.rtThreadStartup t).lists := by
  have moved := Rewires.move separate t (.priority (k.thread t).initPriority)
  rw [Kernel.rtThreadStartup, rtThreadResume_of_suspended (by simp)]
  simp only [setThread_self]
  exact moved

theorem rewires_timeout (separate : Separate k.lists) (t : T) :
    Rewires [.remove t, .append (.priority (k.thread t).currentPriority) t] k.lists (k.rtThreadTimeout t).lists := by
  have moved := Rewires.move separate t (.priority (k.thread t).currentPriority)
  have lists : (k.rtThreadTimeout t).lists = append (.priority (k.thread t).currentPriority) t (remove t k.lists) := by
    rw [Kernel.rtThreadTimeout, rtScheduleInsertThread_lists]
    simp
    rfl
  rw [lists]
  exact moved

theorem rewires_yield (separate : Separate k.lists) (t : T) : Rewires (k.yieldRings t) k.lists (k.rtThreadYield t).2.lists := by
  unfold Kernel.rtThreadYield yieldRings
  split
  · exact .move separate t _
  · exact .nil k.lists

theorem rewires_tick (separate : Separate k.lists) (t : T) : Rewires (k.tickRings t) k.lists (k.rtTickIncrease t).2.lists := by
  have counted : ((k.setThread t fun thread => { thread with remainingTick := thread.remainingTick - 1 }).thread t).remainingTick =
      (k.thread t).remainingTick - 1 := by rw [setThread_self]
  unfold Kernel.rtTickIncrease tickRings
  dsimp only
  rw [counted]
  split
  · generalize renewed : (k.setThread t fun thread => { thread with remainingTick := thread.remainingTick - 1 }).setThread t
      (fun thread => { thread with remainingTick := thread.initTick }) = k'
    have lists : k'.lists = k.lists := by rw [← renewed]; rfl
    have same : k'.yieldRings t = k.yieldRings t := by
      rw [yieldRings, yieldRings, lists, ← renewed]
      simp
    rw [← same, ← lists]
    exact rewires_yield (lists ▸ separate) t
  · exact .nil k.lists

theorem rewires_release (separate : Separate k.lists) (s : S) : Rewires (k.releaseRings s) k.lists (k.rtSemRelease s).2.lists := by
  obtain ⟨u, rest, list, woken⟩ | ⟨list, counted⟩ := rtSemRelease_cases s k
  · rw [releaseRings, list, woken]
    exact rewires_resume separate u
  · rw [releaseRings, list, counted]
    exact .nil k.lists

/-- A thread that has to wait leaves its ready list and goes to its place in the queue. -/
theorem rewires_take (wf : k.WellFormed) {time : Int} (ready : k.value s = 0 → time ≠ 0 → (k.thread t).stat = .ready) :
    Rewires (k.takeRings t s time) k.lists (k.rtSemTake t s time).2.lists := by
  obtain ⟨available, taken⟩ | ⟨-, poll, timeout⟩ | ⟨zero, waits, -⟩ := rtSemTake_cases t s time k
  · rw [taken, takeRings, if_pos (.inl available)]
    exact .nil k.lists
  · rw [timeout, takeRings, if_pos (.inr poll)]
    exact .nil k.lists
  · have ready := ready zero waits
    obtain ⟨ks, lists, flag, priorities, -, -, queued⟩ := take_suspended ready zero waits
    have unavailable : ¬ (0 < k.value s ∨ time = 0) := by
      rw [zero]
      exact not_or.mpr ⟨by decide, waits⟩
    have absent := wf.not_mem_suspended (t := t) (by rw [ready]; decide) s
    have list : ks.lists (.suspended s) = k.lists (.suspended s) := by
      rw [lists]
      exact List.erase_of_not_mem absent
    have detached : Detached (remove t k.lists) t := wf.toSeparate.detached_remove t
    have last : Rewires [.remove t, .append (.suspended s) t] k.lists (append (.suspended s) t (remove t k.lists)) := .then t detached
    rw [queued, takeRings, if_neg unavailable, suspendRings, if_neg (not_not.mpr ready), queueRings, Kernel.queued, flag, list, lists]
    simp only [priorities]
    cases kind : k.flag s with
    | fifo => exact last
    | prio =>
      cases found : (k.lists (.suspended s)).find? fun sthread => (k.thread t).currentPriority < (k.thread sthread).currentPriority with
      | none => exact last
      | some sthread =>
        have inside : sthread ∈ remove t k.lists (.suspended s) := by
          rw [← lists, list]
          exact List.mem_of_find?_eq_some found
        have between : Rewires [.remove t, .insertBefore sthread t] k.lists (insertBefore sthread t (remove t k.lists)) :=
          .then t ⟨⟨_, inside⟩, detached⟩
        exact between

end Kernel

variable {idle t : T} {k : Kernel T S} {r r' : Running T S} {e : KernelEvent T S}

theorem KernelCall.rewires (c : KernelCall T S) (wf : k.WellFormed) (ready : c.Blocks k → (k.thread t).stat = .ready) :
    Rewires (c.rings t k) k.lists (c.run t k).2.lists := by
  cases c with
  | startup u => exact Kernel.rewires_startup wf.toSeparate u
  | take s time => exact Kernel.rewires_take wf fun zero waits => ready ⟨zero, waits⟩
  | release s => exact Kernel.rewires_release wf.toSeparate s
  | yield => exact Kernel.rewires_yield wf.toSeparate t
  | sleep => exact Kernel.rewires_suspend t k
  | slept =>
    unfold KernelCall.run Kernel.rtThreadSlept
    dsimp only
    split <;> exact .nil k.lists
  | suspend => exact Kernel.rewires_suspend t k
  | resume u => exact Kernel.rewires_resume wf.toSeparate u
  | exit detach => exact Kernel.rewires_exit wf.toSeparate t detach
  | idleExcute => exact Kernel.rewires_idleExcute k
  | enterCritical => exact .nil k.lists
  | exitCritical =>
    unfold KernelCall.run Kernel.rtExitCritical
    dsimp only
    split <;> exact .nil k.lists

/-- **What a step does to the nodes is what it does to the lists**, and every node that goes into a ring is by itself. -/
theorem KernelStep.rewires (step : KernelStep idle r e r') (sound : r.Sound idle) : Rewires (e.rings r.kernel) r.kernel.lists r'.kernel.lists := by
  have switched : ∀ {k k' : Kernel T S}, k.rtSchedule = some k' → k'.lists = k.lists := by
    intro k k' switch
    rw [Kernel.rtSchedule_same switch]
  have after : ∀ {i : Bool × Kernel T S} {k}, Kernel.reschedule i = some k → k.lists = i.2.lists := by
    intro i k switch
    unfold Kernel.reschedule at switch
    split at switch
    · exact switched switch
    · rw [Option.some.inj switch]
  cases step with
  | @startup t reset init => exact Kernel.rewires_startup sound.wf.toSeparate t
  | start reset started switch =>
    obtain ⟨⟨p, t⟩, -, same⟩ := Option.bind_eq_some_iff.mp switch
    rw [← Option.some.inj same]
    exact .nil r.kernel.lists
  | @call t c current free allowed =>
    exact c.rewires sound.wf fun blocks => (sound.leads current free (allowed.blocks blocks).1).ready
  | schedule current due switch =>
    rw [switched switch]
    exact .nil r.kernel.lists
  | @tick t k current switch =>
    rw [after switch, KernelEvent.rings, current]
    exact Kernel.rewires_tick sound.wf.toSeparate t
  | @timeout t u k current started switch =>
    rw [switched switch]
    exact Kernel.rewires_timeout sound.wf.toSeparate u
  | @isrRelease t s k current switch =>
    rw [after switch]
    exact Kernel.rewires_release sound.wf.toSeparate s

end Rewires

end DoorSecurity
