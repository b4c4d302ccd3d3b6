import DoorSecurity.Kernel.Waiting
import DoorSecurity.Threads.Locks

/-!
# The door's threads under the kernel

The three threads of `Threads/Control.lean` as threads of the kernel, beside any others. A
statement is executed by the thread that runs; `rt_sem_take` and `rt_sem_release` are the
kernel's calls, and a thread that has to wait returns from `rt_sem_take` when it runs again.

Seen through its labels, a run of the board is a run of `threads`, where any thread may
move at any time and a semaphore is a number: what the kernel has granted to a thread that did not run
yet still counts there (`board_runs`).
-/

namespace DoorSecurity
set_option autoImplicit false
open Eeprom Lts

/-- The semaphores that the three threads take. -/
def Sem.taken : Sem → Bool
  | .matchThreadLock | .doorOpenThreadLock => true
  | _ => false

/-- The statement is a call of a semaphore. -/
def Label.callsSem : Label → Bool
  | .take _ | .takeFailed _ | .release _ => true
  | _ => false

structure Board (O OS : Type) where
  /-- The kernel with the other threads `O` and the other semaphores `OS`. -/
  running : Running (Thread ⊕ O) (Sem ⊕ OS)
  /-- The semaphore that a thread is in `rt_sem_take` of. -/
  waiting : Thread → Option Sem
  pc : (t : Thread) → t.Pc
  ucArrayId : TagId

variable {O OS : Type}

namespace KernelCall

/-- What the three threads call besides: `rt_thread_mdelay`, and `rt_timer_start`, which resumes the timer thread. -/
def Pause : KernelCall (Thread ⊕ O) (Sem ⊕ OS) → Prop
  | .sleep | .slept | .yield | .enterCritical | .exitCritical | .resume (.inr _) => True
  | _ => False

end KernelCall

namespace KernelEvent

/-- What the other threads and the interrupts do: anything but with the semaphores of the three threads, or to resume one of these. -/
def Foreign : KernelEvent (Thread ⊕ O) (Sem ⊕ OS) → Prop
  | .call (.inl _) _ | .call (.inr _) (.resume (.inl _)) => False
  | .call (.inr _) (.take (.inl s) _) | .call (.inr _) (.release (.inl s)) | .isrRelease (.inl s) => s.taken = false
  | _ => True

end KernelEvent

namespace Board

/-- The thread executes its next statement. -/
structure Turn (b : Board O OS) (t : Thread) : Prop where
  current : b.running.kernel.current = some (.inl t)
  free : b.running.due (.inl t) = false

/-- `Door_Security_Demo` creates the semaphores, with `RT_IPC_FLAG_FIFO`, before it starts the threads. -/
def start (priority : Thread ⊕ O → Fin 32) (tick : Thread ⊕ O → BitVec 32) (value : OS → BitVec 16) (flag : OS → IpcFlag) : Board O OS where
  running := Running.reset priority tick (Sum.elim (fun s => if s = .matchThreadLock then 1 else 0) value) (Sum.elim (fun _ => .fifo) flag)
  waiting _ := none
  pc := threads.start.pc
  ucArrayId := threads.start.shared.ucArrayId

end Board

variable [DecidableEq O] [DecidableEq OS]

/-- A step of the board, with the statement that it completes. -/
inductive BoardStep (idle : O) : Board O OS → Option (Thread × Label) → Board O OS → Prop
  | work {b : Board O OS} {t : Thread} {l : Label} {p : t.Pc} {ucArrayId : TagId} (turn : b.Turn t) (returned : b.waiting t = none)
      (edge : t.control (b.pc t) l p) (plain : l.callsSem = false)
      (acts : ∀ value, l.effect ⟨value, b.ucArrayId⟩ ⟨value, ucArrayId⟩) :
      BoardStep idle b (some (t, l)) { b with pc := Function.update b.pc t p, ucArrayId := ucArrayId }
  | pause {b : Board O OS} {t : Thread} {c : KernelCall (Thread ⊕ O) (Sem ⊕ OS)} {r : Running (Thread ⊕ O) (Sem ⊕ OS)}
      (returned : b.waiting t = none) (pause : c.Pause) (step : KernelStep (.inr idle) b.running (.call (.inl t) c) r) :
      BoardStep idle b none { b with running := r }
  | release {b : Board O OS} {t : Thread} {s : Sem} {p : t.Pc} {r : Running (Thread ⊕ O) (Sem ⊕ OS)}
      (returned : b.waiting t = none) (edge : t.control (b.pc t) (.release s) p)
      (step : KernelStep (.inr idle) b.running (.call (.inl t) (.release (.inl s))) r) :
      BoardStep idle b (some (t, .release s)) { b with running := r, pc := Function.update b.pc t p }
  /-- `rt_sem_take` finds a positive value. -/
  | take {b : Board O OS} {t : Thread} {s : Sem} {p : t.Pc} {r : Running (Thread ⊕ O) (Sem ⊕ OS)}
      (returned : b.waiting t = none) (edge : t.control (b.pc t) (.take s) p) (positive : 0 < b.running.kernel.value (.inl s))
      (step : KernelStep (.inr idle) b.running (.call (.inl t) (.take (.inl s) rtWaitingForever)) r) :
      BoardStep idle b (some (t, .take s)) { b with running := r, pc := Function.update b.pc t p }
  | wait {b : Board O OS} {t : Thread} {s : Sem} {p : t.Pc} {r : Running (Thread ⊕ O) (Sem ⊕ OS)}
      (returned : b.waiting t = none) (edge : t.control (b.pc t) (.take s) p) (zero : b.running.kernel.value (.inl s) = 0)
      (step : KernelStep (.inr idle) b.running (.call (.inl t) (.take (.inl s) rtWaitingForever)) r) :
      BoardStep idle b none { b with running := r, waiting := Function.update b.waiting t (some s) }
  /-- The end of `rt_sem_take`, which returns `thread->error`. -/
  | taken {b : Board O OS} {t : Thread} {s : Sem} {p : t.Pc} (turn : b.Turn t) (waits : b.waiting t = some s)
      (ok : (b.running.kernel.thread (.inl t)).error = .eok) (edge : t.control (b.pc t) (.take s) p) :
      BoardStep idle b (some (t, .take s)) { b with waiting := Function.update b.waiting t none, pc := Function.update b.pc t p }
  | takeFailed {b : Board O OS} {t : Thread} {s : Sem} {p : t.Pc} (turn : b.Turn t) (waits : b.waiting t = some s)
      (failed : (b.running.kernel.thread (.inl t)).error ≠ .eok) (edge : t.control (b.pc t) (.takeFailed s) p) :
      BoardStep idle b (some (t, .takeFailed s)) { b with waiting := Function.update b.waiting t none, pc := Function.update b.pc t p }
  | other {b : Board O OS} {e : KernelEvent (Thread ⊕ O) (Sem ⊕ OS)} {r : Running (Thread ⊕ O) (Sem ⊕ OS)}
      (foreign : e.Foreign) (step : KernelStep (.inr idle) b.running e r) : BoardStep idle b none { b with running := r }

section Edges

/-- The three threads take these two semaphores. -/
theorem Thread.takes {t : Thread} {p p' : t.Pc} {s : Sem} (edge : t.control p (.take s) p') : s.taken = true := by
  cases t with
  | matchThread =>
    have edge : MatchStep p (.take s) p' := edge
    cases edge with
    | take => rfl
    | readId reads | readOk reads | readError reads => cases reads
  | touchThread =>
    have edge : TouchStep p (.take s) p' := edge
    cases edge with
    | take => rfl
    | card walks | cardDone walks =>
      have none : (Label.take s).semOp s = none := walks.semOp
      simp [Label.semOp] at none
  | doorOpenThread =>
    have edge : DoorStep p (.take s) p' := edge
    cases edge
    rfl

end Edges

section Account

/-- The threads in `rt_sem_take` that `s` has been granted to. -/
def granted (k : Kernel (Thread ⊕ O) (Sem ⊕ OS)) (waiting : Thread → Option Sem) (s : Sem) : Finset Thread :=
  Finset.univ.filter fun t => waiting t = some s ∧ k.queues (.inl t) (.inl s) = false

/-- The value of `s`, and what of it has been granted. -/
def account (k : Kernel (Thread ⊕ O) (Sem ⊕ OS)) (waiting : Thread → Option Sem) (s : Sem) : Nat :=
  (k.value (.inl s)).toNat + (granted k waiting s).card

variable {k k' : Kernel (Thread ⊕ O) (Sem ⊕ OS)} {waiting waiting' : Thread → Option Sem} {s : Sem} {t : Thread}

omit [DecidableEq OS] in
theorem mem_granted : t ∈ granted k waiting s ↔ waiting t = some s ∧ Sum.inl t ∉ k.lists (.suspended (.inl s)) := by
  rw [granted, Finset.mem_filter, Kernel.queues, decide_eq_false_iff_not]
  exact and_iff_right (Finset.mem_univ t)

omit [DecidableEq OS] in
/-- The same queue and the same threads that wait for it. -/
theorem account_congr (queue : k'.queue (.inl s) = k.queue (.inl s)) (waits : ∀ t, waiting' t = some s ↔ waiting t = some s) :
    account k' waiting' s = account k waiting s := by
  have value : k'.value (.inl s) = k.value (.inl s) := congrArg Fifo.State.value queue
  have list : k'.lists (.suspended (.inl s)) = k.lists (.suspended (.inl s)) := congrArg Fifo.State.waiters queue
  have same : granted k' waiting' s = granted k waiting s := by
    ext t
    rw [mem_granted, mem_granted, waits, list]
  rw [account, account, value, same]

omit [DecidableEq OS] in
theorem account_took (positive : k.value (.inl s) ≠ 0) (queue : k'.queue (.inl s) = ⟨k.value (.inl s) - 1, k.lists (.suspended (.inl s))⟩) :
    account k' waiting s + 1 = account k waiting s := by
  have value : k'.value (.inl s) = k.value (.inl s) - 1 := congrArg Fifo.State.value queue
  have list : k'.lists (.suspended (.inl s)) = k.lists (.suspended (.inl s)) := congrArg Fifo.State.waiters queue
  have same : granted k' waiting s = granted k waiting s := by
    ext t
    rw [mem_granted, mem_granted, list]
  have down : (k.value (.inl s) - 1).toNat + 1 = (k.value (.inl s)).toNat := by
    have nonzero : (k.value (.inl s)).toNat ≠ 0 := fun zero => positive (BitVec.eq_of_toNat_eq zero)
    bv_omega
  rw [account, account, value, same]
  omega

omit [DecidableEq OS] in
/-- A thread that begins to wait is granted nothing yet. -/
theorem account_waits (free : waiting t = none)
    (queue : k'.queue (.inl s) = ⟨k.value (.inl s), k.lists (.suspended (.inl s)) ++ [.inl t]⟩) :
    account k' (Function.update waiting t (some s)) s = account k waiting s := by
  have value : k'.value (.inl s) = k.value (.inl s) := congrArg Fifo.State.value queue
  have list : k'.lists (.suspended (.inl s)) = k.lists (.suspended (.inl s)) ++ [.inl t] := congrArg Fifo.State.waiters queue
  have same : granted k' (Function.update waiting t (some s)) s = granted k waiting s := by
    ext u
    rw [mem_granted, mem_granted, list]
    rcases eq_or_ne u t with rfl | other
    · simp [free]
    · simp [other]
  rw [account, account, value, same]

omit [DecidableEq OS] in
/-- A release grants the semaphore to the first thread that waits, -/
theorem account_woken (waits : waiting t = some s) (absent : Sum.inl t ∉ k'.lists (.suspended (.inl s)))
    (list : k.lists (.suspended (.inl s)) = .inl t :: k'.lists (.suspended (.inl s))) (value : k'.value (.inl s) = k.value (.inl s)) :
    account k' waiting s = account k waiting s + 1 := by
  have more : granted k' waiting s = insert t (granted k waiting s) := by
    ext u
    rw [Finset.mem_insert, mem_granted, mem_granted, list]
    rcases eq_or_ne u t with rfl | other
    · simp [waits, absent]
    · simp [other]
  have fresh : t ∉ granted k waiting s := by
    rw [mem_granted, list]
    simp
  rw [account, account, value, more, Finset.card_insert_of_notMem fresh, Nat.add_assoc]

omit [DecidableEq OS] in
/-- or counts, as far as the value reaches. -/
theorem account_counted (queue : k'.queue (.inl s) = ⟨k.value (.inl s) + 1, k.lists (.suspended (.inl s))⟩) :
    account k' waiting s ≤ account k waiting s + 1 ∧ (account k waiting s < 65535 → account k' waiting s = account k waiting s + 1) := by
  have value : k'.value (.inl s) = k.value (.inl s) + 1 := congrArg Fifo.State.value queue
  have list : k'.lists (.suspended (.inl s)) = k.lists (.suspended (.inl s)) := congrArg Fifo.State.waiters queue
  have same : granted k' waiting s = granted k waiting s := by
    ext t
    rw [mem_granted, mem_granted, list]
  rw [account, account, value, same]
  constructor <;> bv_omega

omit [DecidableEq OS] in
/-- The thread returns from `rt_sem_take`. -/
theorem account_taken (waits : waiting t = some s) (absent : Sum.inl t ∉ k.lists (.suspended (.inl s))) :
    account k (Function.update waiting t none) s + 1 = account k waiting s := by
  have less : granted k (Function.update waiting t none) s = (granted k waiting s).erase t := by
    ext u
    rw [Finset.mem_erase, mem_granted, mem_granted]
    rcases eq_or_ne u t with rfl | other
    · simp
    · simp [other]
  have inside : t ∈ granted k waiting s := mem_granted.mpr ⟨waits, absent⟩
  rw [account, account, less, Nat.add_assoc, Finset.card_erase_add_one inside]

end Account

section Kept

/-- What holds of the kernel and the threads that wait. -/
structure Kept (idle : O) (r : Running (Thread ⊕ O) (Sem ⊕ OS)) (waiting : Thread → Option Sem) : Prop where
  sound : r.Sound (.inr idle)
  fifo : ∀ s : Sem, r.kernel.flag (.inl s) = .fifo
  waits : ∀ {t s}, waiting t = some s → s.taken = true ∧ r.kernel.Awaits (.inl t) (.inl s)
  /-- A thread that waits does not run in a critical section. -/
  nest : ∀ {t s}, waiting t = some s → r.kernel.current = some (.inl t) → r.kernel.lockNest = 0
  /-- Nobody else waits for the semaphores of the three threads. -/
  queue : ∀ {s : Sem}, s.taken = true → ∀ u ∈ r.kernel.lists (.suspended (.inl s)), ∃ t, u = .inl t ∧ waiting t = some s

variable {idle : O} {r r' : Running (Thread ⊕ O) (Sem ⊕ OS)} {waiting : Thread → Option Sem} {t : Thread} {s : Sem}
  {e : KernelEvent (Thread ⊕ O) (Sem ⊕ OS)} {c : KernelCall (Thread ⊕ O) (Sem ⊕ OS)}

omit [DecidableEq O] [DecidableEq OS] in
/-- A thread that returns from `rt_sem_take` is not in the queue, and finds `RT_EOK`. -/
theorem Kept.returns (kept : Kept idle r waiting) (current : r.kernel.current = some (.inl t)) (free : r.due (.inl t) = false)
    (waits : waiting t = some s) : (r.kernel.thread (.inl t)).error = .eok ∧ ∀ h, Sum.inl t ∉ r.kernel.lists (.suspended h) := by
  have leads := kept.sound.leads current free (kept.nest waits current)
  refine ⟨(kept.waits waits).2.error, fun h => kept.sound.wf.not_mem_suspended ?_ h⟩
  rw [leads.ready]
  decide

/-- A step of the kernel by a thread that does not wait. -/
theorem Kept.step (kept : Kept idle r waiting) (step : KernelStep (.inr idle) r e r') (own : ∀ t c, e = .call (.inl t) c → waiting t = none)
    (queue : ∀ {s : Sem}, s.taken = true → ∀ u ∈ r'.kernel.lists (.suspended (.inl s)), u ∈ r.kernel.lists (.suspended (.inl s))) :
    Kept idle r' waiting where
  sound := step.sound kept.sound
  fifo s := (congrFun step.flag _).trans (kept.fifo s)
  waits := by
    intro t s waits
    refine ⟨(kept.waits waits).1, step.awaits kept.sound (kept.waits waits).2 fun c called => ?_⟩
    rw [own t c called] at waits
    exact Option.some_ne_none s waits.symm
  nest := by
    intro t s waits current
    obtain unlocked | ⟨same, nest⟩ | ⟨u, c, called, still⟩ := step.nest kept.sound
    · exact unlocked
    · rw [nest]
      exact kept.nest waits (same.symm.trans current)
    · obtain rfl : u = .inl t := Option.some.inj (still.symm.trans current)
      rw [own t c called] at waits
      exact absurd waits.symm (Option.some_ne_none s)
  queue taken u inside := kept.queue taken u (queue taken u inside)

/-- The rest of the program does nothing to the semaphores of the three threads. -/
theorem Kept.foreign_onSem (kept : Kept idle r waiting) (foreign : e.Foreign) (step : KernelStep (.inr idle) r e r') (taken : s.taken = true) :
    e.onSem (.inl s) r.kernel = none := by
  have other : ∀ {s' : Sem}, s'.taken = false → (Sum.inl s' : Sem ⊕ OS) ≠ .inl s := by
    rintro s' untaken same
    rw [Sum.inl.inj same, taken] at untaken
    exact absurd untaken (by decide)
  have absent : ∀ o : O, Sum.inr o ∉ r.kernel.lists (.suspended (.inl s)) := by
    intro o inside
    obtain ⟨t, same, -⟩ := kept.queue taken _ inside
    exact absurd same (by simp)
  cases e with
  | startup | start | schedule | tick => rfl
  | call u c =>
    cases u with
    | inl t => exact absurd foreign id
    | inr o =>
      cases c with
      | take s' time =>
        refine KernelEvent.onSem_take_of_ne ?_
        cases s' with
        | inl s' => exact other foreign
        | inr s' => exact Sum.inr_ne_inl
      | release s' =>
        refine KernelEvent.onSem_release_of_ne ?_
        cases s' with
        | inl s' => exact other foreign
        | inr s' => exact Sum.inr_ne_inl
      | resume v =>
        cases v with
        | inl t => exact absurd foreign id
        | inr o' => exact if_neg (absent o')
      | _ => rfl
  | timeout u =>
    refine if_neg fun inside => ?_
    obtain ⟨t, rfl, waits⟩ := kept.queue taken u inside
    cases step with
    | timeout current started switch => exact absurd ((kept.waits waits).2.timer.symm.trans started) Bool.false_ne_true
  | isrRelease s' =>
    refine KernelEvent.onSem_isrRelease_of_ne ?_
    cases s' with
    | inl s' => exact other foreign
    | inr s' => exact Sum.inr_ne_inl

theorem Kept.pause_onSem (kept : Kept idle r waiting) (pause : c.Pause) (taken : s.taken = true) :
    (KernelEvent.call (Sum.inl t) c).onSem (.inl s) r.kernel = none := by
  cases c with
  | sleep | slept | yield | enterCritical | exitCritical => rfl
  | resume v =>
    cases v with
    | inl t => exact absurd pause id
    | inr o =>
      refine if_neg fun inside => ?_
      obtain ⟨t, same, -⟩ := kept.queue taken _ inside
      exact absurd same (by simp)
  | _ => exact absurd pause id

/-- A step that is none of a semaphore's leaves its queue. -/
theorem Kept.same_queue (kept : Kept idle r waiting) (step : KernelStep (.inr idle) r e r') (none : e.onSem (.inl s) r.kernel = none) :
    r'.kernel.queue (.inl s) = r.kernel.queue (.inl s) := by
  have here := (step.onSem kept.sound (kept.fifo s)).spec
  rw [none] at here
  exact here

/-- A step that is none of the semaphores that the three threads take. -/
theorem Kept.untouched (kept : Kept idle r waiting) (step : KernelStep (.inr idle) r e r') (own : ∀ t c, e = .call (.inl t) c → waiting t = none)
    (none : ∀ {s : Sem}, s.taken = true → e.onSem (.inl s) r.kernel = none) :
    Kept idle r' waiting ∧ ∀ {s : Sem}, s.taken = true → account r'.kernel waiting s = account r.kernel waiting s := by
  refine ⟨kept.step step own fun taken u inside => ?_, fun taken => account_congr (kept.same_queue step (none taken)) fun _ => Iff.rfl⟩
  have same : r'.kernel.lists _ = r.kernel.lists _ := congrArg Fifo.State.waiters (kept.same_queue step (none taken))
  rw [← same]
  exact inside

/-- `rt_sem_release` by a thread: one more of `s`, and as many as before of the others. -/
theorem Kept.release (kept : Kept idle r waiting) (step : KernelStep (.inr idle) r (.call (.inl t) (.release (.inl s))) r')
    (returned : waiting t = none) : Kept idle r' waiting ∧
    (∀ {s' : Sem}, s'.taken = true → s' ≠ s → account r'.kernel waiting s' = account r.kernel waiting s') ∧
    (s.taken = true → account r'.kernel waiting s ≤ account r.kernel waiting s + 1 ∧
      (account r.kernel waiting s < 65535 → account r'.kernel waiting s = account r.kernel waiting s + 1)) := by
  have own : ∀ u c, (KernelEvent.call (.inl t) (.release (.inl s)) : KernelEvent (Thread ⊕ O) (Sem ⊕ OS)) = .call (.inl u) c → waiting u = none := by
    rintro u c ⟨⟩
    exact returned
  have others : ∀ {s' : Sem}, s' ≠ s → r'.kernel.queue (.inl s') = r.kernel.queue (.inl s') := by
    intro s' other
    exact kept.same_queue step (KernelEvent.onSem_release_of_ne fun same => other (Sum.inl.inj same).symm)
  have elsewhere : ∀ {s' : Sem}, s' ≠ s → r'.kernel.lists (.suspended (.inl s')) = r.kernel.lists (.suspended (.inl s')) :=
    fun other => congrArg Fifo.State.waiters (others other)
  have here := (step.onSem kept.sound (kept.fifo s)).spec
  rw [KernelEvent.onSem_release] at here
  cases list : r.kernel.lists (.suspended (.inl s)) with
  | nil =>
    rw [list] at here
    obtain ⟨-, queue⟩ := here
    have lists : r'.kernel.lists (.suspended (.inl s)) = r.kernel.lists (.suspended (.inl s)) := congrArg Fifo.State.waiters queue
    refine ⟨kept.step step own fun {s'} _ u inside => ?_, fun _ other => account_congr (others other) fun _ => Iff.rfl, fun _ => account_counted queue⟩
    rcases eq_or_ne s' s with rfl | other
    · rw [← lists]
      exact inside
    · rw [← elsewhere other]
      exact inside
  | cons u rest =>
    rw [list] at here
    obtain ⟨queue, value⟩ := here
    have queue : r.kernel.lists (.suspended (.inl s)) = u :: r'.kernel.lists (.suspended (.inl s)) := queue
    refine ⟨kept.step step own fun {s'} _ v inside => ?_, fun _ other => account_congr (others other) fun _ => Iff.rfl, fun taken => ?_⟩
    · rcases eq_or_ne s' s with rfl | other
      · rw [queue]
        exact List.mem_cons_of_mem _ inside
      · rw [← elsewhere other]
        exact inside
    · obtain ⟨t', rfl, waits⟩ := kept.queue taken u (queue ▸ List.mem_cons_self)
      have nodup := kept.sound.wf.nodup (.suspended (.inl s))
      rw [queue] at nodup
      have more := account_woken waits (List.nodup_cons.mp nodup).1 queue value
      exact ⟨more.le, fun _ => more⟩

/-- `rt_sem_take` that finds a positive value: one less of `s`. -/
theorem Kept.take (kept : Kept idle r waiting) (step : KernelStep (.inr idle) r (.call (.inl t) (.take (.inl s) rtWaitingForever)) r')
    (returned : waiting t = none) (positive : 0 < r.kernel.value (.inl s)) : Kept idle r' waiting ∧
    (∀ {s' : Sem}, s' ≠ s → account r'.kernel waiting s' = account r.kernel waiting s') ∧
    account r'.kernel waiting s + 1 = account r.kernel waiting s := by
  have own : ∀ u c, (KernelEvent.call (.inl t) (.take (.inl s) rtWaitingForever) : KernelEvent (Thread ⊕ O) (Sem ⊕ OS)) = .call (.inl u) c →
      waiting u = none := by
    rintro u c ⟨⟩
    exact returned
  have others : ∀ {s' : Sem}, s' ≠ s → r'.kernel.queue (.inl s') = r.kernel.queue (.inl s') := by
    intro s' other
    exact kept.same_queue step (KernelEvent.onSem_take_of_ne fun same => other (Sum.inl.inj same).symm)
  have outcome : (r.kernel.rtSemTake (.inl t) (.inl s) rtWaitingForever).1 = .taken := by rw [Kernel.rtSemTake, if_pos positive]
  have here := (step.onSem kept.sound (kept.fifo s)).spec
  rw [KernelEvent.onSem_take, outcome] at here
  obtain ⟨nonzero, queue⟩ := here
  refine ⟨kept.step step own fun {s'} _ u inside => ?_, fun other => account_congr (others other) fun _ => Iff.rfl, account_took nonzero queue⟩
  have same : r'.kernel.lists (.suspended (.inl s')) = r.kernel.lists (.suspended (.inl s')) := by
    rcases eq_or_ne s' s with rfl | other
    · exact congrArg Fifo.State.waiters queue
    · exact congrArg Fifo.State.waiters (others other)
  rw [← same]
  exact inside

/-- `rt_sem_take` that has to wait: as many as before. -/
theorem Kept.wait (kept : Kept idle r waiting) (step : KernelStep (.inr idle) r (.call (.inl t) (.take (.inl s) rtWaitingForever)) r')
    (returned : waiting t = none) (zero : r.kernel.value (.inl s) = 0) (taken : s.taken = true) :
    Kept idle r' (Function.update waiting t (some s)) ∧
    ∀ s' : Sem, account r'.kernel (Function.update waiting t (some s)) s' = account r.kernel waiting s' := by
  have others : ∀ {s' : Sem}, s' ≠ s → r'.kernel.queue (.inl s') = r.kernel.queue (.inl s') := by
    intro s' other
    exact kept.same_queue step (KernelEvent.onSem_take_of_ne fun same => other (Sum.inl.inj same).symm)
  have outcome : (r.kernel.rtSemTake (.inl t) (.inl s) rtWaitingForever).1 = .suspended := by
    rw [Kernel.rtSemTake, if_neg (by rw [zero]; decide), if_neg (by decide)]
  have here := (step.onSem kept.sound (kept.fifo s)).spec
  rw [KernelEvent.onSem_take, outcome] at here
  obtain ⟨-, queue⟩ := here
  have apart : ∀ {u s'}, waiting u = some s' → u ≠ t := by
    rintro u s' waits rfl
    exact Option.some_ne_none s' (waits.symm.trans returned)
  have stays : ∀ {u s'}, waiting u = some s' → Function.update waiting t (some s) u = some s' :=
    fun waits => (Function.update_of_ne (apart waits) _ _).trans waits
  have former : ∀ {u s'}, Function.update waiting t (some s) u = some s' → u = t ∧ s' = s ∨ waiting u = some s' := by
    intro u s' waits
    rcases eq_or_ne u t with rfl | other
    · rw [Function.update_self] at waits
      exact .inl ⟨rfl, (Option.some.inj waits).symm⟩
    · exact .inr ((Function.update_of_ne other _ _).symm.trans waits)
  have own := step.take_waits kept.sound zero
  refine ⟨{ sound := step.sound kept.sound, fifo := ?_, waits := ?_, nest := ?_, queue := ?_ }, fun s' => ?_⟩
  · exact fun s' => (congrFun step.flag _).trans (kept.fifo s')
  · intro u s' now
    obtain ⟨rfl, rfl⟩ | before := former now
    · exact ⟨taken, own.1⟩
    · refine ⟨(kept.waits before).1, step.awaits kept.sound (kept.waits before).2 ?_⟩
      rintro c ⟨⟩
      exact apart before rfl
  · exact fun _ _ => own.2
  · intro s' taken' u inside
    have inside : u ∈ (r'.kernel.queue (.inl s')).waiters := inside
    rcases eq_or_ne s' s with rfl | other
    · rw [queue] at inside
      rcases List.mem_append.mp inside with before | now
      · obtain ⟨v, rfl, waits⟩ := kept.queue taken' u before
        exact ⟨v, rfl, stays waits⟩
      · exact ⟨t, List.mem_singleton.mp now, Function.update_self _ _ _⟩
    · rw [others other] at inside
      obtain ⟨v, rfl, waits⟩ := kept.queue taken' u inside
      exact ⟨v, rfl, stays waits⟩
  · rcases eq_or_ne s' s with rfl | other
    · exact account_waits returned queue
    · refine account_congr (others other) fun u => ⟨fun now => ?_, stays⟩
      exact (former now).resolve_left fun same => other same.2

omit [DecidableEq OS] in
/-- The end of `rt_sem_take`. -/
theorem Kept.taken (kept : Kept idle r waiting) (waits : waiting t = some s) (absent : ∀ h, Sum.inl t ∉ r.kernel.lists (.suspended h)) :
    Kept idle r (Function.update waiting t none) ∧
    (∀ {s' : Sem}, s' ≠ s → account r.kernel (Function.update waiting t none) s' = account r.kernel waiting s') ∧
    account r.kernel (Function.update waiting t none) s + 1 = account r.kernel waiting s := by
  have before : ∀ {u s'}, Function.update waiting t none u = some s' → waiting u = some s' := by
    intro u s' now
    rcases eq_or_ne u t with rfl | other
    · rw [Function.update_self] at now
      exact absurd now.symm (Option.some_ne_none s')
    · exact (Function.update_of_ne other _ _).symm.trans now
  refine ⟨⟨kept.sound, kept.fifo, fun now => kept.waits (before now), fun now => kept.nest (before now), ?_⟩, fun other => ?_,
    account_taken waits (absent _)⟩
  · intro s' taken u inside
    obtain ⟨v, rfl, waits⟩ := kept.queue taken u inside
    have other : v ≠ t := by
      rintro rfl
      exact absent _ inside
    exact ⟨v, rfl, (Function.update_of_ne other _ _).trans waits⟩
  · refine account_congr rfl fun u => ⟨before, fun was => ?_⟩
    have apart : u ≠ t := by
      rintro rfl
      exact other (Option.some.inj (was.symm.trans waits))
    exact (Function.update_of_ne apart _ _).trans was

end Kept

section CarriesOut

/-- `s` counts exactly: where its value, which nothing keeps from wrapping, is not released too often. -/
def InRange (s : Sem) (es : List (Thread × Label)) : Prop :=
  s = .doorOpenThreadLock → semCount (Label.semOp s) .release es ≤ 65535

/-- The board after the labels `es`, and `threads`. -/
structure CarriesOut (idle : O) (es : List (Thread × Label)) (b : Board O OS) (ts : threads.State) : Prop where
  kept : Kept idle b.running b.waiting
  run : Runs threads.Step threads.start es ts
  pc : ts.pc = b.pc
  ucArrayId : ts.shared.ucArrayId = b.ucArrayId
  least : ∀ {s : Sem}, s.taken = true → account b.running.kernel b.waiting s ≤ ts.shared.value s
  exact : ∀ {s : Sem}, s.taken = true → InRange s es → account b.running.kernel b.waiting s = ts.shared.value s

variable {idle : O} {b b' : Board O OS} {es : List (Thread × Label)} {ts : threads.State} {t : Thread} {l : Label} {s : Sem}

theorem InRange.tail {e : Thread × Label} (range : InRange s (e :: es)) : InRange s es := by
  intro door
  have more := range door
  rw [semCount, List.countP_cons] at more
  exact (Nat.le_add_right _ _).trans more

/-- A semaphore that is released once more has room. -/
theorem InRange.room (taken : s.taken = true) (range : InRange s ((t, .release s) :: es)) (run : Runs threads.Step threads.start es ts) :
    ts.shared.value s < 65535 := by
  cases s with
  | matchThreadLock =>
    have total := value_add_inside run
    omega
  | doorOpenThreadLock =>
    have total := (countingSem .doorOpenThreadLock).value_add_takes run
    have released := range rfl
    have zero : threads.start.shared.value .doorOpenThreadLock = 0 := rfl
    rw [semCount, List.countP_cons_of_pos rfl] at released
    unfold semCount at total
    omega
  | _ => exact absurd taken (by decide)

omit [DecidableEq OS] in
/-- The statement in `threads`. -/
theorem CarriesOut.move (sim : CarriesOut idle es b ts) {p : t.Pc} {sh : Shared} (edge : t.control (b.pc t) l p) (acts : l.effect ts.shared sh) :
    ∃ ts', Runs threads.Step threads.start ((t, l) :: es) ts' ∧ ts'.pc = Function.update b.pc t p ∧ ts'.shared = sh := by
  have edge : threads.control t (ts.pc t) l p := by
    rw [sim.pc]
    exact edge
  exact ⟨_, sim.run.snoc (.move edge acts), congrArg (Function.update · t p) sim.pc, rfl⟩

omit [DecidableEq OS] in
/-- A step of the kernel that is nothing for the three threads. -/
theorem CarriesOut.silent (sim : CarriesOut idle es b ts) {r : Running (Thread ⊕ O) (Sem ⊕ OS)} (kept : Kept idle r b.waiting)
    (same : ∀ {s : Sem}, s.taken = true → account r.kernel b.waiting s = account b.running.kernel b.waiting s) :
    CarriesOut idle es { b with running := r } ts where
  kept := kept
  run := sim.run
  pc := sim.pc
  ucArrayId := sim.ucArrayId
  least taken := (same taken).trans_le (sim.least taken)
  exact taken range := (same taken).trans (sim.exact taken range)

omit [DecidableEq OS] in
/-- A statement that takes `s`, when it began or when it was over. -/
theorem CarriesOut.took (sim : CarriesOut idle es b ts) {p : t.Pc} (edge : t.control (b.pc t) (.take s) p)
    {r : Running (Thread ⊕ O) (Sem ⊕ OS)} {waiting : Thread → Option Sem} (kept : Kept idle r waiting)
    (others : ∀ {s' : Sem}, s' ≠ s → account r.kernel waiting s' = account b.running.kernel b.waiting s')
    (own : account r.kernel waiting s + 1 = account b.running.kernel b.waiting s) :
    ∃ ts', CarriesOut idle ((t, .take s) :: es) ⟨r, waiting, Function.update b.pc t p, b.ucArrayId⟩ ts' := by
  have bound := sim.least (Thread.takes edge)
  obtain ⟨ts', run, pc, shared⟩ := sim.move edge (l := .take s) ⟨by omega, rfl⟩
  refine ⟨ts', kept, run, pc, by rw [shared]; exact sim.ucArrayId, fun {s'} taken => ?_, fun {s'} taken range => ?_⟩
  · rw [shared]
    rcases eq_or_ne s' s with rfl | other
    · simp only [Function.update_self]
      omega
    · simp only [Function.update_of_ne other]
      exact (others other).trans_le (sim.least taken)
  · rw [shared]
    have equal := sim.exact taken range.tail
    rcases eq_or_ne s' s with rfl | other
    · simp only [Function.update_self]
      omega
    · simp only [Function.update_of_ne other]
      exact (others other).trans equal

/-- **Each step of the board is a statement of `threads`, or none; and `rt_sem_take` does not fail.** -/
theorem BoardStep.simulates {o : Option (Thread × Label)} (step : BoardStep idle b o b') (sim : CarriesOut idle es b ts) :
    (∃ ts', CarriesOut idle (o.toList ++ es) b' ts') ∧ ∀ t s, o ≠ some (t, .takeFailed s) := by
  cases step with
  | @work t l p ucArrayId turn returned edge plain acts =>
    have acts : l.effect ts.shared ⟨ts.shared.value, ucArrayId⟩ := by
      have here := acts ts.shared.value
      rw [← sim.ucArrayId] at here
      exact here
    obtain ⟨ts', run, pc, shared⟩ := sim.move edge acts
    refine ⟨⟨ts', sim.kept, run, pc, by rw [shared], fun taken => ?_, fun taken range => ?_⟩, ?_⟩
    · rw [shared]
      exact sim.least taken
    · rw [shared]
      exact sim.exact taken range.tail
    · rintro u s ⟨⟩
      cases plain
  | @pause t c r returned pause step =>
    have own : ∀ u c', (KernelEvent.call (.inl t) c : KernelEvent (Thread ⊕ O) (Sem ⊕ OS)) = .call (.inl u) c' → b.waiting u = none := by
      rintro u c' ⟨⟩
      exact returned
    obtain ⟨kept, same⟩ := sim.kept.untouched step own fun taken => sim.kept.pause_onSem pause taken
    exact ⟨⟨ts, sim.silent kept same⟩, fun _ _ => by simp⟩
  | @release t s p r returned edge step =>
    obtain ⟨ts', run, pc, shared⟩ := sim.move edge (l := .release s) rfl
    obtain ⟨kept, others, own⟩ := sim.kept.release step returned
    refine ⟨⟨ts', kept, run, pc, by rw [shared]; exact sim.ucArrayId, fun {s'} taken => ?_, fun {s'} taken range => ?_⟩, fun _ _ => by simp⟩
    · rw [shared]
      rcases eq_or_ne s' s with rfl | other
      · have bound := sim.least taken
        have most := (own taken).1
        simp only [Function.update_self]
        omega
      · simp only [Function.update_of_ne other]
        exact (others taken other).trans_le (sim.least taken)
    · rw [shared]
      rcases eq_or_ne s' s with rfl | other
      · have equal := sim.exact taken range.tail
        have room := range.room taken sim.run
        have more := (own taken).2 (equal ▸ room)
        simp only [Function.update_self]
        omega
      · simp only [Function.update_of_ne other]
        exact (others taken other).trans (sim.exact taken range.tail)
  | @take t s p r returned edge positive step =>
    obtain ⟨kept, others, own⟩ := sim.kept.take step returned positive
    exact ⟨sim.took edge kept others own, fun _ _ => by simp⟩
  | @wait t s p r returned edge zero step =>
    obtain ⟨kept, same⟩ := sim.kept.wait step returned zero (Thread.takes edge)
    exact ⟨⟨ts, kept, sim.run, sim.pc, sim.ucArrayId, fun {s'} taken => (same s').trans_le (sim.least taken),
      fun {s'} taken range => (same s').trans (sim.exact taken range)⟩, fun _ _ => by simp⟩
  | @taken t s p turn waits ok edge =>
    have absent := (sim.kept.returns turn.current turn.free waits).2
    obtain ⟨kept, others, own⟩ := sim.kept.taken waits absent
    exact ⟨sim.took edge kept others own, fun _ _ => by simp⟩
  | @takeFailed t s p turn waits failed edge => exact absurd (sim.kept.returns turn.current turn.free waits).1 failed
  | @other e r foreign step =>
    have own : ∀ u c, e = .call (.inl u) c → b.waiting u = none := by
      rintro u c rfl
      exact absurd foreign id
    obtain ⟨kept, same⟩ := sim.kept.untouched step own fun taken => sim.kept.foreign_onSem foreign step taken
    exact ⟨⟨ts, sim.silent kept same⟩, fun _ _ => by simp⟩

end CarriesOut

section Runs

variable {idle : O} {priority : Thread ⊕ O → Fin 32} {tick : Thread ⊕ O → BitVec 32} {value : OS → BitVec 16} {flag : OS → IpcFlag}
  {b : Board O OS} {os : List (Option (Thread × Label))}

omit [DecidableEq O] [DecidableEq OS] in
theorem kept_start : Kept idle (Board.start priority tick value flag).running fun _ => none where
  sound := sound_reset
  fifo _ := rfl
  waits now := absurd now.symm (Option.some_ne_none _)
  nest now := absurd now.symm (Option.some_ne_none _)
  queue _ _ inside := absurd inside List.not_mem_nil

omit [DecidableEq OS] in
theorem simulates_start : CarriesOut idle [] (Board.start priority tick value flag) threads.start where
  kept := kept_start
  run := .nil
  pc := rfl
  ucArrayId := rfl
  least := by
    intro s taken
    cases s <;> first | exact absurd taken (by decide) | exact Nat.le_refl _
  exact := by
    intro s taken range
    cases s <;> first | exact absurd taken (by decide) | rfl

theorem simulates_runs (run : Runs (BoardStep idle) (Board.start priority tick value flag) os b) :
    (∃ ts, CarriesOut idle os.reduceOption b ts) ∧ ∀ t s, some (t, Label.takeFailed s) ∉ os := by
  induction run with
  | nil => exact ⟨⟨_, simulates_start⟩, fun _ _ => List.not_mem_nil⟩
  | @snoc os b b' o before last ih =>
    obtain ⟨⟨ts, sim⟩, never⟩ := ih
    obtain ⟨⟨ts', next⟩, returns⟩ := last.simulates sim
    have labels : (o :: os).reduceOption = o.toList ++ os.reduceOption := by cases o <;> rfl
    refine ⟨⟨ts', labels ▸ next⟩, fun t s failed => ?_⟩
    rcases List.mem_cons.mp failed with now | earlier
    · exact returns t s now.symm
    · exact never t s earlier

/-- **The door's threads under the kernel are `threads`.** In every run of the board, whatever the
other threads and the interrupts do, the statements of the three threads are a run of `threads` to the
same points and the same `ucArray_ID`; no `rt_sem_take` of theirs fails; and what a semaphore of
`threads` is worth is its value in the kernel and the grants under way, as far as 16 bits count. -/
theorem board_runs (run : Runs (BoardStep idle) (Board.start priority tick value flag) os b) :
    (∃ ts, Runs threads.Step threads.start os.reduceOption ts ∧ ts.pc = b.pc ∧ ts.shared.ucArrayId = b.ucArrayId ∧
      ∀ s : Sem, s.taken = true → account b.running.kernel b.waiting s ≤ ts.shared.value s ∧
        (InRange s os.reduceOption → account b.running.kernel b.waiting s = ts.shared.value s)) ∧
      ∀ t s, some (t, Label.takeFailed s) ∉ os := by
  obtain ⟨⟨ts, sim⟩, never⟩ := simulates_runs run
  exact ⟨⟨ts, sim.run, sim.pc, sim.ucArrayId, fun s taken => ⟨sim.least taken, sim.exact taken⟩⟩, never⟩

/-- A step of the board is one of the kernel, or leaves it. -/
theorem BoardStep.kernel {b' : Board O OS} {o : Option (Thread × Label)} (step : BoardStep idle b o b') :
    b'.running = b.running ∨ ∃ e, KernelStep (.inr idle) b.running e b'.running := by
  cases step with
  | work | taken | takeFailed => exact .inl rfl
  | pause _ _ step | release _ _ step | take _ _ _ step | wait _ _ _ step | other _ step => exact .inr ⟨_, step⟩

/-- The statement that a step completes is an edge of its thread. -/
theorem BoardStep.edge {b' : Board O OS} {t : Thread} {l : Label} (step : BoardStep idle b (some (t, l)) b') : ∃ p, t.control (b.pc t) l p := by
  cases step with
  | work _ _ edge _ _ | release _ edge _ | take _ edge _ _ | taken _ _ _ edge | takeFailed _ _ _ edge => exact ⟨_, edge⟩

/-- The threads between their take of `match_thread_lock` and its release. -/
def Board.inside (b : Board O OS) : Finset Thread := Finset.univ.filter fun t => t.inside (b.pc t) = true

end Runs

section Handover

/-- The priorities that `Door_Security_Demo` gives, beside an idle thread. -/
def demoPriority : Thread ⊕ Unit → Fin 32
  | .inl .matchThread => 22
  | .inl .touchThread => 3
  | .inl .doorOpenThread => 23
  | .inr () => 31

def demoStart : Board Unit Empty := Board.start demoPriority (fun _ => 20) Empty.elim Empty.elim

/-- `door_open_thread` waits; `match_thread` reads a card and releases it. -/
def handover : List (Option (Thread × Label)) :=
  [some (.matchThread, .release .doorOpenThreadLock), some (.matchThread, .tagMatch ![1, 2, 3, 4] 1),
    some (.matchThread, .pcdAnticoll (some ![1, 2, 3, 4]) true), some (.matchThread, .pcdRequest (some (4, 0))),
    some (.matchThread, .take .matchThreadLock), none, none, none, none, none, none, none]

theorem handover_run : ∃ b, Runs (BoardStep ()) demoStart handover b ∧
    granted b.running.kernel b.waiting .doorOpenThreadLock = {.doorOpenThread} := by
  have idle : Runs (BoardStep ()) demoStart _ _ := Runs.nil.snoc (.other (e := .startup (.inr ())) trivial (.startup rfl rfl))
  have started := (idle.snoc (.other (e := .startup (.inl .doorOpenThread)) trivial (.startup rfl rfl))).snoc
    (.other (e := .start) trivial (.start rfl rfl rfl))
  have waits := started.snoc (.wait (t := .doorOpenThread) rfl DoorStep.take rfl
    (.call rfl rfl ⟨nofun, fun _ => ⟨rfl, by simp⟩, nofun⟩))
  have idles := waits.snoc (.other (e := .schedule (.inl .doorOpenThread)) trivial (.schedule rfl rfl rfl))
  have ready := idles.snoc (.other (e := .call (.inr ()) (.startup (.inl .matchThread))) trivial
    (.call rfl rfl ⟨fun u h => by cases h; rfl, fun blocks => absurd blocks id, nofun⟩))
  have runs := ready.snoc (.other (e := .schedule (.inr ())) trivial (.schedule rfl rfl rfl))
  have taken := runs.snoc (.take (t := .matchThread) rfl MatchStep.take (by decide)
    (.call rfl rfl ⟨nofun, fun _ => ⟨rfl, by simp⟩, nofun⟩))
  have asked := taken.snoc (.work (t := .matchThread) ⟨rfl, rfl⟩ rfl (MatchStep.readId (.found (4, 0))) rfl
    (show ∀ value, (Label.pcdRequest (some (4, 0))).effect ⟨value, fun _ => 0⟩
      ⟨value, Function.update (Function.update (fun _ => 0) 0 4) 1 0⟩ from fun _ => rfl))
  have read := asked.snoc (.work (t := .matchThread) ⟨rfl, rfl⟩ rfl (MatchStep.readOk (.read ![1, 2, 3, 4])) rfl
    (show ∀ value, (Label.pcdAnticoll (some ![1, 2, 3, 4]) true).effect ⟨value, _⟩ ⟨value, ![1, 2, 3, 4]⟩ from fun _ => rfl))
  have matched := read.snoc (.work (t := .matchThread) ⟨rfl, rfl⟩ rfl (MatchStep.matched _ ![1, 2, 3, 4]) rfl
    (show ∀ value, (Label.tagMatch ![1, 2, 3, 4] 1).effect ⟨value, ![1, 2, 3, 4]⟩ ⟨value, ![1, 2, 3, 4]⟩ from fun _ => ⟨rfl, rfl⟩))
  have released := matched.snoc (.release (t := .matchThread) rfl (MatchStep.releaseDoor _)
    (.call rfl rfl ⟨nofun, fun blocks => absurd blocks id, nofun⟩))
  exact ⟨_, released, by decide⟩

theorem board_runs_handover : ∃ b ts, Runs (BoardStep ()) demoStart handover b ∧ Runs threads.Step threads.start handover.reduceOption ts ∧
    ts.pc = b.pc ∧ account b.running.kernel b.waiting .doorOpenThreadLock = ts.shared.value .doorOpenThreadLock := by
  obtain ⟨b, run, -⟩ := handover_run
  obtain ⟨⟨ts, labels, pc, -, accounts⟩, -⟩ := board_runs run
  exact ⟨b, ts, run, labels, pc, (accounts .doorOpenThreadLock rfl).2 fun _ => by decide⟩

end Handover

end DoorSecurity
