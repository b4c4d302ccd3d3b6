import DoorSecurity.Kernel.Running
import DoorSecurity.Lts.Fifo

/-!
# The kernel's semaphores over whole runs

What each step does to one semaphore: nothing, or a step of the queue of `Lts/Fifo.lean`
(`KernelStep.onSem`). So the threads that wait on a `RT_IPC_FLAG_FIFO` semaphore are served
in the order of their arrival, whatever their priorities, and no release is lost.
-/

namespace DoorSecurity
set_option autoImplicit false
open Rings Lts

variable {T S : Type}

namespace Kernel

/-- What a semaphore's users see of it. -/
structure SameSem (s : S) (k k' : Kernel T S) : Prop where
  value : k'.value s = k.value s
  waiters : k'.lists (.suspended s) = k.lists (.suspended s)

theorem SameSem.trans {s : S} {k k' k'' : Kernel T S} (first : SameSem s k k') (second : SameSem s k' k'') : SameSem s k k'' :=
  ⟨second.value.trans first.value, second.waiters.trans first.waiters⟩

variable {k k' : Kernel T S} {t u : T} {s : S}

/-- A thread that is not suspended waits for nothing. -/
theorem WellFormed.not_mem_suspended (wf : k.WellFormed) (awake : (k.thread t).stat ≠ .suspend) (s : S) : t ∉ k.lists (.suspended s) :=
  fun inside => awake (wf.belongs inside)

variable [DecidableEq T]

theorem sameSem_setThread (t : T) (f : RtThread → RtThread) : SameSem s k (k.setThread t f) := ⟨rfl, rfl⟩

theorem sameSem_remove (absent : t ∉ k.lists (.suspended s)) : SameSem s k (k.setLists (remove t)) :=
  ⟨rfl, List.erase_of_not_mem absent⟩

theorem sameSem_removeThread (absent : t ∉ k.lists (.suspended s)) : SameSem s k (k.rtScheduleRemoveThread t) := by
  rw [rtScheduleRemoveThread_eq]
  exact ⟨rfl, List.erase_of_not_mem absent⟩

theorem sameSem_suspend (wf : k.WellFormed) (ready : (k.thread t).stat = .ready) (s : S) : SameSem s k (k.rtThreadSuspend t).2 := by
  rw [rtThreadSuspend_of_ready ready]
  exact ⟨rfl, List.erase_of_not_mem (wf.not_mem_suspended (by rw [ready]; decide) s)⟩

theorem sameSem_sleep (wf : k.WellFormed) (ready : (k.thread t).stat = .ready) (s : S) : SameSem s k (k.rtThreadSleep t) :=
  (sameSem_suspend wf ready s).trans (sameSem_setThread t _)

theorem sameSem_idleExcute (wf : k.WellFormed) (s : S) : SameSem s k k.rtThreadIdleExcute := by
  obtain same | ⟨t, closed, same⟩ := wf.idleExcute_cases <;> rw [same]
  · exact ⟨rfl, rfl⟩
  · exact sameSem_remove (wf.not_mem_suspended (by rw [closed]; decide) s)

theorem sameSem_schedule (switch : k.rtSchedule = some k') : SameSem s k k' := by
  rw [rtSchedule_same switch]
  exact ⟨rfl, rfl⟩

variable [DecidableEq S]

omit [DecidableEq T] in
theorem sameSem_bury (t : T) : SameSem s k (k.setLists (prepend .defunct t)) :=
  ⟨rfl, prepend_of_ne (show ListHead.suspended s ≠ .defunct by simp) t k.lists⟩

theorem sameSem_exit (wf : k.WellFormed) (ready : (k.thread t).stat = .ready) (detach : Bool) (s : S) : SameSem s k (k.rtThreadExit t detach) := by
  have removed : SameSem s k (k.rtScheduleRemoveThread t) := sameSem_removeThread (wf.not_mem_suspended (by rw [ready]; decide) s)
  have ended := removed.trans (sameSem_setThread t fun thread => { thread with stat := .close, timer := false })
  unfold Kernel.rtThreadExit
  dsimp only
  split
  · exact ended
  · exact ended.trans (sameSem_bury t)

theorem sameSem_insertThread (t : T) : SameSem s k (k.rtScheduleInsertThread t) :=
  ⟨rfl, by rw [rtScheduleInsertThread_lists]; exact append_of_ne (by simp) _ _⟩

theorem sameSem_resume (absent : t ∉ k.lists (.suspended s)) : SameSem s k (k.rtThreadResume t).2 := by
  unfold Kernel.rtThreadResume
  split
  · exact ⟨rfl, rfl⟩
  · exact (sameSem_remove absent).trans ((sameSem_setThread t _).trans (sameSem_insertThread t))

theorem sameSem_yield (wf : k.WellFormed) (t : T) : SameSem s k (k.rtThreadYield t).2 := by
  unfold Kernel.rtThreadYield
  split
  · rename_i several
    have absent := wf.not_mem_suspended (t := t) (by rw [several.1]; decide) s
    have turned : append (.priority (k.thread t).currentPriority) t (remove t k.lists) (.suspended s) = remove t k.lists (.suspended s) :=
      append_of_ne (by simp) _ _
    exact ⟨rfl, turned.trans (List.erase_of_not_mem absent)⟩
  · exact ⟨rfl, rfl⟩

theorem sameSem_tick (wf : k.WellFormed) (t : T) : SameSem s k (k.rtTickIncrease t).2 := by
  unfold Kernel.rtTickIncrease
  dsimp only
  split
  · have counted := wf.setThread (t := t) (fun thread => { thread with remainingTick := thread.remainingTick - 1 }) rfl rfl rfl wf.timer
    have renewed := counted.setThread (t := t) (fun thread => { thread with remainingTick := thread.initTick }) rfl rfl rfl counted.timer
    exact (sameSem_setThread t _).trans ((sameSem_setThread t _).trans (sameSem_yield renewed t))
  · exact ⟨rfl, rfl⟩

/-- A timeout takes its thread from the queue. -/
theorem timeout_sem (t : T) (s : S) : (k.rtThreadTimeout t).value s = k.value s ∧
    (k.rtThreadTimeout t).lists (.suspended s) = (k.lists (.suspended s)).erase t := by
  have inserted := sameSem_insertThread (s := s) (k := ((k.setThread t fun thread => { thread with timer := false }).setThread t
    fun thread => { thread with error := .etimeout }).setLists (remove t)) t
  exact ⟨inserted.value, inserted.waiters⟩

/-- `rt_sem_take` where the thread has to wait. -/
theorem take_suspended (ready : (k.thread t).stat = .ready) (zero : k.value s = 0) {time : Int} (waits : time ≠ 0) :
    ∃ ks : Kernel T S, ks.lists = remove t k.lists ∧ ks.flag = k.flag ∧ (∀ u, (ks.thread u).currentPriority = (k.thread u).currentPriority) ∧
      (k.rtSemTake t s time).1 = .suspended ∧ (k.rtSemTake t s time).2.value = k.value ∧
      (k.rtSemTake t s time).2.lists = ks.queued s t := by
  have unavailable : ¬ 0 < k.value s := by rw [zero]; decide
  have still : ((k.setThread t fun thread => { thread with error := .eok }).thread t).stat = .ready := by simpa using ready
  have suspended := rtThreadSuspend_of_ready still
  rw [Kernel.rtSemTake, if_neg unavailable, if_neg waits]
  dsimp only
  rw [rtIpcListSuspend_eq]
  generalize left : ((k.setThread t fun thread => { thread with error := .eok }).rtThreadSuspend t).2 = ks
  rw [suspended] at left
  refine ⟨ks, by rw [← left]; rfl, by rw [← left]; rfl, fun u => ?_, rfl, ?_, ?_⟩
  · rw [← left]
    rcases eq_or_ne u t with rfl | other
    · simp
    · simp [Function.update_of_ne other, setThread_of_ne _ other]
  · split <;> exact (congrArg Kernel.value left).symm
  · split <;> rfl

theorem sameSem_startup (wf : k.WellFormed) (init : (k.thread t).stat = .init) (s : S) : SameSem s k (k.rtThreadStartup t) :=
  (sameSem_setThread t _).trans (sameSem_resume (wf.not_mem_suspended (by rw [init]; decide) s))

/-- `rt_sem_release` of another semaphore. -/
theorem sameSem_release (wf : k.WellFormed) {s' : S} (other : s' ≠ s) : SameSem s k (k.rtSemRelease s').2 := by
  obtain ⟨u, rest, list, woken⟩ | ⟨-, counted⟩ := rtSemRelease_cases s' k
  · have absent : u ∉ k.lists (.suspended s) := by
      intro inside
      have same := wf.once inside (show u ∈ k.lists (.suspended s') by rw [list]; exact List.mem_cons_self)
      exact other (ListHead.suspended.inj same).symm
    rw [woken]
    exact sameSem_resume absent
  · rw [counted]
    exact ⟨Function.update_of_ne other.symm _ _, rfl⟩

/-- `rt_sem_release` with a thread that waits. -/
theorem release_woken (wf : k.WellFormed) {rest : List T} (list : k.lists (.suspended s) = u :: rest) :
    (k.rtSemRelease s).2.value = k.value ∧ (k.rtSemRelease s).2.lists (.suspended s) = rest := by
  obtain ⟨u', rest', list', woken⟩ | ⟨none, -⟩ := rtSemRelease_cases s k
  · obtain ⟨rfl, rfl⟩ := List.cons.inj (list.symm.trans list')
    have suspended : (k.thread u).stat = .suspend := wf.belongs (h := .suspended s) (by rw [list]; exact List.mem_cons_self)
    rw [woken, rtThreadResume_of_suspended suspended]
    refine ⟨rfl, ?_⟩
    dsimp only
    rw [append_of_ne (by simp), remove, list, List.erase_cons_head]
  · exact absurd (list.symm.trans none) (List.cons_ne_nil u rest)

/-- `rt_sem_take` of another semaphore. -/
theorem sameSem_take (wf : k.WellFormed) {s' : S} (other : s' ≠ s) {time : Int}
    (ready : k.value s' = 0 → time ≠ 0 → (k.thread t).stat = .ready) : SameSem s k (k.rtSemTake t s' time).2 := by
  obtain ⟨-, taken⟩ | ⟨-, -, timeout⟩ | ⟨zero, waits, -⟩ := rtSemTake_cases t s' time k
  · rw [taken]
    exact ⟨Function.update_of_ne other.symm _ _, rfl⟩
  · rw [timeout]
    exact ⟨rfl, rfl⟩
  · have ready := ready zero waits
    obtain ⟨ks, lists, -, -, -, value, queued⟩ := take_suspended ready zero waits
    have separate : Separate ks.lists := lists ▸ wf.toSeparate.remove t
    have detached : Detached ks.lists t := lists ▸ wf.toSeparate.detached_remove t
    refine ⟨congrFun value s, ?_⟩
    rw [queued, (queued_spec separate detached s').2.1 _ (by simpa using other.symm), lists]
    exact List.erase_of_not_mem (wf.not_mem_suspended (by rw [ready]; decide) s)

end Kernel

section Step

variable [DecidableEq T] [DecidableEq S] {idle : T} {r r' : Running T S} {e : KernelEvent T S}

/-- What an event is for the semaphore `s`. -/
def KernelEvent.onSem (s : S) (k : Kernel T S) : KernelEvent T S → Option (Fifo.Event T)
  | .call t (.take s' time) =>
    if s' = s then
      match (k.rtSemTake t s time).1 with
      | .taken => some (.took t)
      | .suspended => some (.waits t)
      | .timeout => none
    else none
  | .call _ (.release s') | .isrRelease s' =>
    if s' = s then
      match k.lists (.suspended s) with
      | u :: _ => some (.woken u)
      | [] => some .counted
    else none
  | .call _ (.resume u) | .timeout u => if u ∈ k.lists (.suspended s) then some (.gaveUp u) else none
  | _ => none

section OnSem

variable {t : T} {s s' : S} {k : Kernel T S} {time : Int}

theorem KernelEvent.onSem_release (t : T) (s : S) (k : Kernel T S) : (KernelEvent.call t (.release s)).onSem s k =
    match k.lists (.suspended s) with | u :: _ => some (.woken u) | [] => some .counted := if_pos rfl

theorem KernelEvent.onSem_take (t : T) (s : S) (time : Int) (k : Kernel T S) : (KernelEvent.call t (.take s time)).onSem s k =
    match (k.rtSemTake t s time).1 with | .taken => some (.took t) | .suspended => some (.waits t) | .timeout => none := if_pos rfl

theorem KernelEvent.onSem_release_of_ne (other : s' ≠ s) : (KernelEvent.call t (.release s')).onSem s k = none := if_neg other

theorem KernelEvent.onSem_take_of_ne (other : s' ≠ s) : (KernelEvent.call t (.take s' time)).onSem s k = none := if_neg other

theorem KernelEvent.onSem_isrRelease_of_ne (other : s' ≠ s) : (KernelEvent.isrRelease s' : KernelEvent T S).onSem s k = none := if_neg other

end OnSem

/-- The semaphore as a queue. -/
def Kernel.queue (s : S) (k : Kernel T S) : Fifo.State T (BitVec 16) := ⟨k.value s, k.lists (.suspended s)⟩

omit [DecidableEq T] [DecidableEq S] in
theorem Kernel.SameSem.queue {k k' : Kernel T S} {s : S} (same : Kernel.SameSem s k k') : k'.queue s = k.queue s := by
  rw [Kernel.queue, same.value, same.waiters]
  rfl

theorem Kernel.fifo_release {k : Kernel T S} (wf : k.WellFormed) (s : S) :
    Fifo.Step (k.queue s) (match k.lists (.suspended s) with | u :: _ => some (.woken u) | [] => some .counted) ((k.rtSemRelease s).2.queue s) := by
  cases list : k.lists (.suspended s) with
  | nil =>
    obtain ⟨u, rest, some, -⟩ | ⟨none, counted⟩ := Kernel.rtSemRelease_cases s k
    · exact absurd (some.symm.trans list) (List.cons_ne_nil u rest)
    · have after : (k.rtSemRelease s).2.queue s = ⟨k.value s + 1, []⟩ := by
        rw [counted, Kernel.queue, none]
        exact congrArg (Fifo.State.mk · []) (Function.update_self s _ k.value)
      rw [Kernel.queue, list, after]
      exact .counted
  | cons u rest =>
    obtain ⟨value, waiters⟩ := Kernel.release_woken wf list
    rw [Kernel.queue, Kernel.queue, list, value, waiters]
    exact .woken

theorem Kernel.fifo_take {k : Kernel T S} (wf : k.WellFormed) {t : T} {s : S} {time : Int} (fifo : k.flag s = .fifo)
    (ready : k.value s = 0 → time ≠ 0 → (k.thread t).stat = .ready) :
    Fifo.Step (k.queue s)
      (match (k.rtSemTake t s time).1 with | .taken => some (.took t) | .suspended => some (.waits t) | .timeout => none)
      ((k.rtSemTake t s time).2.queue s) := by
  obtain ⟨available, taken⟩ | ⟨-, -, timeout⟩ | ⟨zero, waits, -⟩ := Kernel.rtSemTake_cases t s time k
  · have nonzero : k.value s ≠ 0 := by
      intro zero
      rw [zero] at available
      exact absurd available (by decide)
    rw [taken, Kernel.queue, Kernel.queue]
    dsimp only
    rw [Function.update_self]
    exact .took nonzero
  · rw [timeout]
    exact .other
  · obtain ⟨ks, lists, flag, -, suspended, value, queued⟩ := Kernel.take_suspended (ready zero waits) zero waits
    have place : ks.queued s t (.suspended s) = k.lists (.suspended s) ++ [t] := by
      have absent := wf.not_mem_suspended (t := t) (by rw [ready zero waits]; decide) s
      rw [Kernel.queued, flag, fifo]
      dsimp only
      rw [append_self, lists, remove, List.erase_of_not_mem absent]
    rw [suspended, Kernel.queue, Kernel.queue, value, queued, place, zero]
    exact .waits

/-- A thread that waits and is resumed leaves the queue. -/
theorem Kernel.fifo_resume {k : Kernel T S} (wf : k.WellFormed) {u : T} {s : S} (waits : u ∈ k.lists (.suspended s)) :
    Fifo.Step (k.queue s) (some (.gaveUp u)) ((k.rtThreadResume u).2.queue s) := by
  have suspended : (k.thread u).stat = .suspend := wf.belongs waits
  have after : (k.rtThreadResume u).2.queue s = ⟨k.value s, (k.lists (.suspended s)).erase u⟩ := by
    rw [Kernel.rtThreadResume_of_suspended suspended, Kernel.queue]
    dsimp only
    rw [append_of_ne (by simp), remove]
  rw [after, Kernel.queue]
  exact .gaveUp

/-- **What a call is for a semaphore.** -/
theorem KernelCall.onSem {k : Kernel T S} (wf : k.WellFormed) {t : T} {s : S} (fifo : k.flag s = .fifo) {c : KernelCall T S}
    (init : ∀ u, c = .startup u → (k.thread u).stat = .init) (ready : c.Blocks k → (k.thread t).stat = .ready) :
    Fifo.Step (k.queue s) ((KernelEvent.call t c).onSem s k) ((c.run t k).2.queue s) := by
  have same : ∀ {k'}, Kernel.SameSem s k k' → Fifo.Step (k.queue s) none (k'.queue s) := by
    intro k' untouched
    rw [untouched.queue]
    exact .other
  cases c with
  | startup u => exact same (Kernel.sameSem_startup wf (init u rfl) s)
  | take s' time =>
    show Fifo.Step _ (if s' = s then _ else none) ((k.rtSemTake t s' time).2.queue s)
    have ready : k.value s' = 0 → time ≠ 0 → (k.thread t).stat = .ready := fun zero waits => ready ⟨zero, waits⟩
    split
    · rename_i here
      subst here
      exact Kernel.fifo_take wf fifo ready
    · exact same (Kernel.sameSem_take wf ‹_› ready)
  | release s' =>
    show Fifo.Step _ (if s' = s then _ else none) ((k.rtSemRelease s').2.queue s)
    split
    · rename_i here
      subst here
      exact Kernel.fifo_release wf s'
    · exact same (Kernel.sameSem_release wf ‹_›)
  | yield => exact same (Kernel.sameSem_yield wf t)
  | sleep => exact same (Kernel.sameSem_sleep wf (ready trivial) s)
  | slept =>
    refine same ?_
    unfold KernelCall.run Kernel.rtThreadSlept
    dsimp only
    split <;> exact ⟨rfl, rfl⟩
  | suspend => exact same (Kernel.sameSem_suspend wf (ready trivial) s)
  | resume u =>
    show Fifo.Step _ (if u ∈ k.lists (.suspended s) then some (.gaveUp u) else none) ((k.rtThreadResume u).2.queue s)
    split
    · exact Kernel.fifo_resume wf ‹_›
    · exact same (Kernel.sameSem_resume ‹_›)
  | exit detach => exact same (Kernel.sameSem_exit wf (ready trivial) detach s)
  | idleExcute => exact same (Kernel.sameSem_idleExcute wf s)
  | enterCritical => exact same ⟨rfl, rfl⟩
  | exitCritical =>
    refine same ?_
    unfold KernelCall.run Kernel.rtExitCritical
    dsimp only
    split <;> exact ⟨rfl, rfl⟩

/-- **What a step is for a semaphore.** -/
theorem KernelStep.onSem (step : KernelStep idle r e r') (sound : r.Sound idle) {s : S} (fifo : r.kernel.flag s = .fifo) :
    Fifo.Step (r.kernel.queue s) (e.onSem s r.kernel) (r'.kernel.queue s) := by
  have same : ∀ {k}, Kernel.SameSem s r.kernel k → Fifo.Step (r.kernel.queue s) none (k.queue s) := by
    intro k untouched
    rw [untouched.queue]
    exact .other
  have after : ∀ {i : Bool × Kernel T S} {k}, Kernel.reschedule i = some k → k.queue s = i.2.queue s := by
    intro i k switch
    unfold Kernel.reschedule at switch
    split at switch
    · exact (Kernel.sameSem_schedule switch).queue
    · rw [Option.some.inj switch]
  cases step with
  | startup reset init => exact same (Kernel.sameSem_startup sound.wf init s)
  | start reset started switch =>
    refine same ?_
    obtain ⟨t, found, -⟩ := sound.wf.toThread started
    rw [Kernel.rtSystemSchedulerStart, found] at switch
    rw [← Option.some.inj switch]
    exact ⟨rfl, rfl⟩
  | call current free allowed =>
    exact KernelCall.onSem sound.wf fifo allowed.once fun blocks => (sound.leads current free (allowed.blocks blocks).1).ready
  | schedule current due switch => exact same (Kernel.sameSem_schedule switch)
  | @tick t k current switch =>
    show Fifo.Step _ none (k.queue s)
    rw [after switch]
    exact same (Kernel.sameSem_tick sound.wf t)
  | @timeout t u k current started switch =>
    show Fifo.Step _ (if u ∈ r.kernel.lists (.suspended s) then some (.gaveUp u) else none) (k.queue s)
    obtain ⟨value, waiters⟩ := Kernel.timeout_sem (k := r.kernel) u s
    rw [(Kernel.sameSem_schedule switch).queue]
    split
    · rw [Kernel.queue, Kernel.queue, value, waiters]
      exact .gaveUp
    · exact same ⟨value, waiters.trans (List.erase_of_not_mem ‹_›)⟩
  | @isrRelease t s' k current switch =>
    show Fifo.Step _ (if s' = s then _ else none) (k.queue s)
    rw [after switch]
    split
    · rename_i here
      subst here
      exact Kernel.fifo_release sound.wf s'
    · exact same (Kernel.sameSem_release sound.wf ‹_›)

end Step

section Runs

variable [DecidableEq T] [DecidableEq S] {idle : T} {r : Running T S} {s : S} {priority : T → Fin 32} {tick : T → BitVec 32}
  {value : S → BitVec 16} {flag : S → IpcFlag}

end Runs

end DoorSecurity
