import DoorSecurity.Kernel.FirstBit
import DoorSecurity.Lists.Rings

/-!
# The scheduler and the semaphores of the kernel (`rt-thread/src`)

`scheduler.c`, the part of `thread.c` that moves threads between lists, `rt_tick_increase`,
the semaphores of `ipc.c` and what `idle.c` does to the defunct threads. Each function is what it
does up to the `rt_schedule()` at its end, which is a step of its own, because interrupts are
enabled before it. Every list is a ring of `Lists/Rings.lean`.

Left out: signals, hooks, mutexes and the other objects.
-/

namespace DoorSecurity
set_option autoImplicit false
open Rings

instance neZeroThirtyTwo : NeZero 32 := ⟨by decide⟩

/-- `thread->stat` under `RT_THREAD_STAT_MASK`. -/
inductive ThreadStat where
  | init | ready | suspend | close
  deriving DecidableEq, Repr

inductive RtErr where
  | eok | error | etimeout
  deriving DecidableEq, Repr

/-- `RT_IPC_FLAG_FIFO` and `RT_IPC_FLAG_PRIO`. -/
inductive IpcFlag where
  | fifo | prio
  deriving DecidableEq, Repr

/-- `struct rt_thread`; `timer` is whether `thread_timer` is started. -/
structure RtThread where
  stat : ThreadStat
  initPriority : Fin 32
  currentPriority : Fin 32
  numberMask : BitVec 32
  error : RtErr
  initTick : BitVec 32
  remainingTick : BitVec 32
  timer : Bool

/-- The lists that a thread's `tlist` may be in. -/
inductive ListHead (S : Type) where
  /-- `rt_thread_priority_table[p]` -/
  | priority (p : Fin 32)
  /-- `suspend_thread` of a semaphore -/
  | suspended (s : S)
  /-- `rt_thread_defunct` -/
  | defunct
  deriving DecidableEq

/-- The kernel's state over the threads `T` and the semaphores `S`. -/
structure Kernel (T S : Type) where
  lists : ListHead S → List T
  /-- `rt_thread_ready_priority_group` -/
  group : BitVec 32
  /-- `rt_current_thread` -/
  current : Option T
  /-- `rt_current_priority` -/
  currentPriority : Fin 32
  /-- `rt_scheduler_lock_nest` -/
  lockNest : Int16
  thread : T → RtThread
  value : S → BitVec 16
  flag : S → IpcFlag

namespace Kernel

variable {T S : Type} [DecidableEq T] [DecidableEq S]

def setThread (t : T) (f : RtThread → RtThread) (k : Kernel T S) : Kernel T S :=
  { k with thread := Function.update k.thread t (f (k.thread t)) }

def setLists (f : (ListHead S → List T) → ListHead S → List T) (k : Kernel T S) : Kernel T S := { k with lists := f k.lists }

section Scheduler

/-- `rt_schedule_insert_thread`. -/
def rtScheduleInsertThread (t : T) (k : Kernel T S) : Kernel T S :=
  let k := k.setThread t fun thread => { thread with stat := .ready }
  let k := k.setLists (append (.priority (k.thread t).currentPriority) t)
  { k with group := k.group ||| (k.thread t).numberMask }

/-- `rt_schedule_remove_thread`. -/
def rtScheduleRemoveThread (t : T) (k : Kernel T S) : Kernel T S :=
  let k := k.setLists (remove t)
  if k.lists (.priority (k.thread t).currentPriority) = [] then { k with group := k.group &&& ~~~(k.thread t).numberMask } else k

/-- `__rt_ffs(rt_thread_ready_priority_group) - 1`, none where that is no index of the table. -/
def highestReadyPriority (k : Kernel T S) : Option (Fin 32) :=
  if rtFfs k.group = 0 then none else some (Fin.ofNat 32 (rtFfs k.group - 1))

/-- The thread that `rt_schedule` switches to, none where it would not find one. -/
def toThread (k : Kernel T S) : Option (Fin 32 × T) := do
  let p ← k.highestReadyPriority
  let t ← (k.lists (.priority p)).head?
  return (p, t)

/-- `rt_schedule`. -/
def rtSchedule (k : Kernel T S) : Option (Kernel T S) :=
  if k.lockNest = 0 then do
    let (p, t) ← k.toThread
    return if k.current = some t then k else { k with currentPriority := p, current := some t }
  else some k

/-- `rt_system_scheduler_start`. -/
def rtSystemSchedulerStart (k : Kernel T S) : Option (Kernel T S) := do
  let (_, t) ← k.toThread
  return { k with current := some t }

/-- `rt_enter_critical`; the counter wraps. -/
def rtEnterCritical (k : Kernel T S) : Kernel T S := { k with lockNest := k.lockNest + 1 }

/-- `rt_exit_critical`, and whether it goes on to `rt_schedule`. -/
def rtExitCritical (k : Kernel T S) : Bool × Kernel T S :=
  if k.lockNest - 1 ≤ 0 then (true, { k with lockNest := 0 }) else (false, { k with lockNest := k.lockNest - 1 })

end Scheduler

section Threads

/-- `rt_thread_suspend`. -/
def rtThreadSuspend (t : T) (k : Kernel T S) : RtErr × Kernel T S :=
  if (k.thread t).stat ≠ .ready then (.error, k)
  else
    let k := k.setThread t fun thread => { thread with stat := .suspend }
    let k := k.rtScheduleRemoveThread t
    (.eok, k.setThread t fun thread => { thread with timer := false })

/-- `rt_thread_resume`. -/
def rtThreadResume (t : T) (k : Kernel T S) : RtErr × Kernel T S :=
  if (k.thread t).stat ≠ .suspend then (.error, k)
  else
    let k := k.setLists (remove t)
    let k := k.setThread t fun thread => { thread with timer := false }
    (.eok, k.rtScheduleInsertThread t)

/-- `rt_thread_startup`, up to `rt_schedule`. -/
def rtThreadStartup (t : T) (k : Kernel T S) : Kernel T S :=
  let k := k.setThread t fun thread =>
    { thread with currentPriority := thread.initPriority, numberMask := 1#32 <<< thread.initPriority.val, stat := .suspend }
  (k.rtThreadResume t).2

/-- `rt_thread_yield`, and whether it goes on to `rt_schedule`. A ready thread's `tlist.next` and
`tlist.prev` are the same node where it is alone in its list. -/
def rtThreadYield (t : T) (k : Kernel T S) : Bool × Kernel T S :=
  if (k.thread t).stat = .ready ∧ 1 < (k.lists (.priority (k.thread t).currentPriority)).length then
    let k := k.setLists (remove t)
    (true, k.setLists (append (.priority (k.thread t).currentPriority) t))
  else (false, k)

/-- `rt_thread_sleep`, up to `rt_schedule`. -/
def rtThreadSleep (t : T) (k : Kernel T S) : Kernel T S :=
  (k.rtThreadSuspend t).2.setThread t fun thread => { thread with timer := true }

/-- `rt_thread_sleep`, after `rt_schedule`. -/
def rtThreadSlept (t : T) (k : Kernel T S) : Kernel T S :=
  if (k.thread t).error = .etimeout then k.setThread t fun thread => { thread with error := .eok } else k

/-- `rt_thread_exit`, up to `rt_schedule`. The object of a thread of `rt_thread_init` without a cleanup
function is detached; any other thread is left to the idle thread. -/
def rtThreadExit (t : T) (detach : Bool) (k : Kernel T S) : Kernel T S :=
  let k := k.rtScheduleRemoveThread t
  let k := k.setThread t fun thread => { thread with stat := .close, timer := false }
  if detach then k else k.setLists (prepend .defunct t)

/-- A round of `rt_thread_idle_excute`, up to `rt_enter_critical`. -/
def rtThreadIdleExcute (k : Kernel T S) : Kernel T S :=
  match k.lists .defunct with
  | [] => k
  | thread :: _ => k.setLists (remove thread)

/-- `rt_thread_timeout`, up to `rt_schedule`, of a timer that `rt_timer_check` took from its list. -/
def rtThreadTimeout (t : T) (k : Kernel T S) : Kernel T S :=
  let k := k.setThread t fun thread => { thread with timer := false }
  let k := k.setThread t fun thread => { thread with error := .etimeout }
  let k := k.setLists (remove t)
  k.rtScheduleInsertThread t

/-- `rt_tick_increase` up to the timers, and whether its `rt_thread_yield` goes on to `rt_schedule`. -/
def rtTickIncrease (t : T) (k : Kernel T S) : Bool × Kernel T S :=
  let k := k.setThread t fun thread => { thread with remainingTick := thread.remainingTick - 1 }
  if (k.thread t).remainingTick = 0 then (k.setThread t fun thread => { thread with remainingTick := thread.initTick }).rtThreadYield t
  else (false, k)

end Threads

section Semaphores

/-- `rt_ipc_list_suspend`. -/
def rtIpcListSuspend (s : S) (t : T) (k : Kernel T S) : Kernel T S :=
  let k := (k.rtThreadSuspend t).2
  match k.flag s with
  | .fifo => k.setLists (append (.suspended s) t)
  | .prio =>
    -- the loop looks for the first thread that is less urgent
    match (k.lists (.suspended s)).find? fun sthread => (k.thread t).currentPriority < (k.thread sthread).currentPriority with
    | some sthread => k.setLists (insertBefore sthread t)
    | none => k.setLists (append (.suspended s) t)

/-- `rt_ipc_list_resume`; it is called on a list that is not empty. -/
def rtIpcListResume (s : S) (k : Kernel T S) : Kernel T S :=
  match k.lists (.suspended s) with
  | [] => k
  | thread :: _ => (k.rtThreadResume thread).2

inductive Taken where
  | taken | timeout | suspended
  deriving DecidableEq, Repr

/-- `rt_sem_take` by the thread `t`, up to `rt_schedule`. -/
def rtSemTake (t : T) (s : S) (time : Int) (k : Kernel T S) : Taken × Kernel T S :=
  if 0 < k.value s then (.taken, { k with value := Function.update k.value s (k.value s - 1) })
  else if time = 0 then (.timeout, k)
  else
    let k := k.setThread t fun thread => { thread with error := .eok }
    let k := k.rtIpcListSuspend s t
    (.suspended, if 0 < time then k.setThread t fun thread => { thread with timer := true } else k)

/-- `rt_sem_release` up to `rt_schedule`, and `need_schedule`. -/
def rtSemRelease (s : S) (k : Kernel T S) : Bool × Kernel T S :=
  if k.lists (.suspended s) ≠ [] then (true, k.rtIpcListResume s)
  else (false, { k with value := Function.update k.value s (k.value s + 1) })

end Semaphores

end Kernel

end DoorSecurity
