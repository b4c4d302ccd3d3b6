import DoorSecurity.Kernel.Semaphores

/-!
# A thread in `rt_sem_take`

While a thread waits without a timeout, whatever the other threads and the interrupts
do, it is in the queue of the semaphore or has been made ready, and its `error` is still
`RT_EOK` (`KernelStep.awaits`). So `rt_sem_take` returns `RT_EOK`, or does not return.
-/

namespace DoorSecurity
set_option autoImplicit false
open Rings Lts

variable {T S : Type}

def rtWaitingForever : Int := -1

namespace Kernel

variable {k k' : Kernel T S} {t u : T} {s : S}

/-- The thread is in `rt_sem_take(s, RT_WAITING_FOREVER)`: it waits, or it has been woken. -/
structure Awaits (k : Kernel T S) (t : T) (s : S) : Prop where
  error : (k.thread t).error = .eok
  timer : (k.thread t).timer = false
  place : (k.thread t).stat = .ready ∨ t ∈ k.lists (.suspended s)

/-- The thread is in the queue. -/
def queues [DecidableEq T] (k : Kernel T S) (t : T) (s : S) : Bool := t ∈ k.lists (.suspended s)

theorem Awaits.congr (awaits : k.Awaits t s) (thread : k'.thread t = k.thread t)
    (stays : t ∈ k.lists (.suspended s) → t ∈ k'.lists (.suspended s)) : k'.Awaits t s where
  error := thread ▸ awaits.error
  timer := thread ▸ awaits.timer
  place := thread ▸ awaits.place.imp_right stays

theorem Awaits.sameSem (awaits : k.Awaits t s) (thread : k'.thread t = k.thread t) (same : SameSem s k k') : k'.Awaits t s :=
  awaits.congr thread fun inside => same.waiters ▸ inside

/-- A thread that is not started yet waits for nothing. -/
theorem Awaits.started (awaits : k.Awaits t s) (wf : k.WellFormed) : (k.thread t).stat ≠ .init := by
  intro init
  rcases awaits.place with ready | inside
  · exact absurd (init.symm.trans ready) (by decide)
  · have suspended : (k.thread t).stat = .suspend := wf.belongs inside
    exact absurd (init.symm.trans suspended) (by decide)

variable [DecidableEq T]

theorem Awaits.schedule (awaits : k.Awaits t s) (switch : k.rtSchedule = some k') : k'.Awaits t s := by
  rw [rtSchedule_same switch]
  exact awaits.congr rfl id

theorem Awaits.slept (awaits : k.Awaits t s) (other : t ≠ u) : (k.rtThreadSlept u).Awaits t s := by
  refine awaits.congr (others_slept other) fun inside => ?_
  unfold Kernel.rtThreadSlept
  split <;> exact inside

variable [DecidableEq S]

theorem Awaits.yield (awaits : k.Awaits t s) (wf : k.WellFormed) (u : T) : (k.rtThreadYield u).2.Awaits t s :=
  awaits.sameSem (congrFun (yield_thread u) t) (sameSem_yield wf u)

theorem Awaits.tick (awaits : k.Awaits t s) (wf : k.WellFormed) (u : T) : (k.rtTickIncrease u).2.Awaits t s where
  error := (tick_keeps RtThread.error (fun _ _ => rfl) u t).trans awaits.error
  timer := (tick_keeps RtThread.timer (fun _ _ => rfl) u t).trans awaits.timer
  place := by
    rw [tick_keeps RtThread.stat (fun _ _ => rfl) u t, (sameSem_tick wf u).waiters]
    exact awaits.place

theorem Awaits.resume_of_ne (awaits : k.Awaits t s) (other : t ≠ u) : (k.rtThreadResume u).2.Awaits t s := by
  refine awaits.congr (others_resume other) fun inside => ?_
  by_cases suspended : (k.thread u).stat = .suspend
  · rw [rtThreadResume_of_suspended suspended]
    dsimp only
    rw [append_of_ne (by simp), remove]
    exact (List.mem_erase_of_ne other).mpr inside
  · rw [Kernel.rtThreadResume, if_pos suspended]
    exact inside

theorem Awaits.resume (awaits : k.Awaits t s) (wf : k.WellFormed) (u : T) : (k.rtThreadResume u).2.Awaits t s := by
  rcases eq_or_ne t u with rfl | other
  · rcases awaits.place with ready | inside
    · rw [resume_of_ready ready]
      exact awaits
    · rw [rtThreadResume_of_suspended (wf.belongs inside)]
      refine ⟨?_, ?_, .inl ?_⟩ <;> simp [awaits.error]
  · exact awaits.resume_of_ne other

theorem Awaits.startup (awaits : k.Awaits t s) (other : t ≠ u) : (k.rtThreadStartup u).Awaits t s :=
  (awaits.congr (setThread_of_ne _ other _) id).resume_of_ne other

theorem Awaits.timeout (awaits : k.Awaits t s) (other : t ≠ u) : (k.rtThreadTimeout u).Awaits t s := by
  refine awaits.congr (others_timeout other) fun inside => ?_
  rw [(timeout_sem u s).2]
  exact (List.mem_erase_of_ne other).mpr inside

theorem Awaits.release (awaits : k.Awaits t s) (wf : k.WellFormed) (s' : S) : (k.rtSemRelease s').2.Awaits t s := by
  obtain ⟨u, rest, -, woken⟩ | ⟨-, counted⟩ := rtSemRelease_cases s' k
  · rw [woken]
    exact awaits.resume wf u
  · rw [counted]
    exact awaits.congr rfl id

theorem Awaits.take (awaits : k.Awaits t s) (wf : k.WellFormed) (other : t ≠ u) {s' : S} {time : Int}
    (ready : k.value s' = 0 → time ≠ 0 → (k.thread u).stat = .ready) : (k.rtSemTake u s' time).2.Awaits t s := by
  refine awaits.congr (others_take other s' time) fun inside => ?_
  obtain ⟨-, taken⟩ | ⟨-, -, timeout⟩ | ⟨zero, waits, -⟩ := rtSemTake_cases u s' time k
  · rw [taken]
    exact inside
  · rw [timeout]
    exact inside
  · obtain ⟨ks, lists, -, -, -, -, queued⟩ := take_suspended (ready zero waits) zero waits
    have separate : Separate ks.lists := lists ▸ wf.toSeparate.remove u
    have detached : Detached ks.lists u := lists ▸ wf.toSeparate.detached_remove u
    have still : t ∈ ks.lists (.suspended s) := by
      rw [lists]
      exact (List.mem_erase_of_ne other).mpr inside
    rw [queued]
    rcases eq_or_ne s' s with rfl | elsewhere
    · exact ((queued_spec separate detached s').2.2 t).mpr (.inl still)
    · rw [(queued_spec separate detached s').2.1 _ (by simpa using elsewhere.symm)]
      exact still

/-- `rt_sem_take` where the thread has to wait. -/
theorem awaits_take (wf : k.WellFormed) (ready : (k.thread t).stat = .ready) (zero : k.value s = 0) :
    (k.rtSemTake t s rtWaitingForever).2.Awaits t s := by
  have waits : rtWaitingForever ≠ 0 := by decide
  obtain ⟨ks, lists, -, -, -, -, queued⟩ := take_suspended ready zero waits
  have separate : Separate ks.lists := lists ▸ wf.toSeparate.remove t
  have detached : Detached ks.lists t := lists ▸ wf.toSeparate.detached_remove t
  have still : ((k.setThread t fun thread => { thread with error := .eok }).thread t).stat = .ready := by simpa using ready
  have thread : (k.rtSemTake t s rtWaitingForever).2.thread t =
      { k.thread t with error := .eok, stat := .suspend, timer := false } := by
    have unavailable : ¬ 0 < k.value s := by rw [zero]; decide
    have forever : ¬ 0 < rtWaitingForever := by decide
    rw [Kernel.rtSemTake, if_neg unavailable, if_neg waits]
    dsimp only
    rw [if_neg forever, rtIpcListSuspend_self still, setThread_self]
  exact {
    error := by rw [thread]
    timer := by rw [thread]
    place := .inr (queued ▸ ((queued_spec separate detached s).2.2 t).mpr (.inr rfl)) }

end Kernel

section Step

variable [DecidableEq T] [DecidableEq S] {idle t u : T} {s : S} {k : Kernel T S} {c : KernelCall T S} {r r' : Running T S} {e : KernelEvent T S}

theorem KernelCall.awaits (awaits : k.Awaits t s) (wf : k.WellFormed) (other : t ≠ u) (init : ∀ v, c = .startup v → (k.thread v).stat = .init)
    (ready : c.Blocks k → (k.thread u).stat = .ready) : (c.run u k).2.Awaits t s := by
  cases c with
  | startup v =>
    have started : t ≠ v := by
      rintro rfl
      exact awaits.started wf (init t rfl)
    exact awaits.startup started
  | take s' time => exact awaits.take wf other fun zero waits => ready ⟨zero, waits⟩
  | release s' => exact awaits.release wf s'
  | yield => exact awaits.yield wf u
  | sleep => exact awaits.sameSem (Kernel.others_sleep other) (Kernel.sameSem_sleep wf (ready trivial) s)
  | slept => exact awaits.slept other
  | suspend => exact awaits.sameSem (Kernel.others_suspend other) (Kernel.sameSem_suspend wf (ready trivial) s)
  | resume v => exact awaits.resume wf v
  | exit detach => exact awaits.sameSem (Kernel.others_exit other detach) (Kernel.sameSem_exit wf (ready trivial) detach s)
  | idleExcute => exact awaits.sameSem (congrFun Kernel.idleExcute_thread t) (Kernel.sameSem_idleExcute wf s)
  | enterCritical => exact awaits.congr rfl id
  | exitCritical =>
    unfold KernelCall.run Kernel.rtExitCritical
    dsimp only
    split <;> exact awaits.congr rfl id

/-- **A waiting thread goes on waiting until a release wakes it.** -/
theorem KernelStep.awaits (step : KernelStep idle r e r') (sound : r.Sound idle) (awaits : r.kernel.Awaits t s) (own : ∀ c, e ≠ .call t c) :
    r'.kernel.Awaits t s := by
  have after : ∀ {i : Bool × Kernel T S} {k}, Kernel.reschedule i = some k → i.2.Awaits t s → k.Awaits t s := by
    intro i k switch awaits
    unfold Kernel.reschedule at switch
    split at switch
    · exact awaits.schedule switch
    · rw [← Option.some.inj switch]
      exact awaits
  cases step with
  | @startup u reset init =>
    have started : t ≠ u := by
      rintro rfl
      exact awaits.started sound.wf init
    exact awaits.startup started
  | start reset started switch =>
    obtain ⟨⟨p, u⟩, -, same⟩ := Option.bind_eq_some_iff.mp switch
    rw [← Option.some.inj same]
    exact awaits.congr rfl id
  | @call u c current free allowed =>
    have other : t ≠ u := by
      rintro rfl
      exact own c rfl
    exact KernelCall.awaits awaits sound.wf other allowed.once fun blocks => (sound.leads current free (allowed.blocks blocks).1).ready
  | schedule current due switch => exact awaits.schedule switch
  | @tick u k current switch => exact after switch (awaits.tick sound.wf u)
  | @timeout u v k current started switch =>
    have other : t ≠ v := by
      rintro rfl
      exact absurd (awaits.timer.symm.trans started) Bool.false_ne_true
    exact (awaits.timeout other).schedule switch
  | @isrRelease u s' k current switch => exact after switch (awaits.release sound.wf s')

/-- `rt_sem_take` that finds no positive value. -/
theorem KernelStep.take_waits (step : KernelStep idle r (.call t (.take s rtWaitingForever)) r') (sound : r.Sound idle)
    (zero : r.kernel.value s = 0) : r'.kernel.Awaits t s ∧ r'.kernel.lockNest = 0 := by
  cases step with
  | call current free allowed =>
    have unlocked := (allowed.blocks ⟨zero, by decide⟩).1
    have ready := (sound.leads current free unlocked).ready
    exact ⟨Kernel.awaits_take sound.wf ready zero, (Kernel.stays_take t s rtWaitingForever).lockNest.trans unlocked⟩

/-- Where the scheduler is locked, nothing switches. -/
theorem KernelStep.nest (step : KernelStep idle r e r') (sound : r.Sound idle) : r'.kernel.lockNest = 0 ∨
    (r'.kernel.current = r.kernel.current ∧ r'.kernel.lockNest = r.kernel.lockNest) ∨ ∃ u c, e = .call u c ∧ r'.kernel.current = some u := by
  have switched : ∀ {k k' : Kernel T S}, k.rtSchedule = some k' → k'.lockNest = 0 ∨ (k'.current = k.current ∧ k'.lockNest = k.lockNest) := by
    intro k k' switch
    by_cases unlocked : k.lockNest = 0
    · rw [Kernel.rtSchedule_same switch]
      exact .inl unlocked
    · rw [Kernel.rtSchedule, if_neg unlocked] at switch
      rw [← Option.some.inj switch]
      exact .inr ⟨rfl, rfl⟩
  have after : ∀ {i : Bool × Kernel T S} {k}, Kernel.reschedule i = some k → r.kernel.Stays i.2 →
      k.lockNest = 0 ∨ (k.current = r.kernel.current ∧ k.lockNest = r.kernel.lockNest) := by
    intro i k switch stays
    unfold Kernel.reschedule at switch
    split at switch
    · rw [← stays.current, ← stays.lockNest]
      exact switched switch
    · rw [← Option.some.inj switch]
      exact .inr ⟨stays.current, stays.lockNest⟩
  cases step with
  | @startup u reset init =>
    have stays := (Kernel.stays_setThread (k := r.kernel) u fun thread =>
      { thread with currentPriority := thread.initPriority, numberMask := 1#32 <<< thread.initPriority.val, stat := .suspend }).trans
        (Kernel.stays_resume u)
    exact .inr (.inl ⟨stays.current, stays.lockNest⟩)
  | start reset started switch =>
    obtain ⟨⟨p, u⟩, -, same⟩ := Option.bind_eq_some_iff.mp switch
    rw [← Option.some.inj same]
    exact .inl (sound.reset reset).1
  | @call u c current free allowed => exact .inr (.inr ⟨u, c, rfl, (c.keeps u r.kernel).1.trans current⟩)
  | schedule current due switch => exact (switched switch).imp_right .inl
  | @tick u k current switch => exact (after switch (Kernel.stays_tick u)).imp_right .inl
  | @timeout u v k current started switch => exact (switched (k := r.kernel.rtThreadTimeout v) switch).imp_right .inl
  | @isrRelease u s' k current switch => exact (after switch (Kernel.stays_release s')).imp_right .inl

end Step

end DoorSecurity
