import DoorSecurity.Kernel.Scheduler

/-!
# What the kernel's functions keep

`WellFormed` is what holds of the lists, the ready priorities and the semaphores between
any two critical sections: a thread is in the one list that its state asks for, a priority
has its bit just when its list is not empty, and a semaphore that threads wait for is 0.
-/

namespace DoorSecurity.Kernel
set_option autoImplicit false
open Rings

variable {T S : Type}

/-- The lists that a thread in its state may be in. -/
def Belongs (k : Kernel T S) (t : T) : ListHead S → Prop
  | .priority p => (k.thread t).stat = .ready ∧ (k.thread t).currentPriority = p
  | .suspended _ => (k.thread t).stat = .suspend
  | .defunct => (k.thread t).stat = .close

structure WellFormed (k : Kernel T S) : Prop extends Separate k.lists where
  belongs : ∀ {t h}, t ∈ k.lists h → k.Belongs t h
  ready : ∀ {t}, (k.thread t).stat = .ready → t ∈ k.lists (.priority (k.thread t).currentPriority)
  mask : ∀ {t}, (k.thread t).stat = .ready ∨ (k.thread t).stat = .suspend →
    (k.thread t).numberMask = 1#32 <<< (k.thread t).currentPriority.val
  group : ∀ p : Fin 32, k.group.getLsbD p = true ↔ k.lists (.priority p) ≠ []
  timer : ∀ {t}, (k.thread t).timer = true → (k.thread t).stat = .suspend
  value : ∀ {s}, k.lists (.suspended s) ≠ [] → k.value s = 0
  order : ∀ {s}, k.flag s = .prio →
    (k.lists (.suspended s)).Pairwise fun t u => (k.thread t).currentPriority ≤ (k.thread u).currentPriority

section Bits

/-- The bit of a priority's mask. -/
theorem getLsbD_mask (p q : Fin 32) : (1#32 <<< q.val).getLsbD p.val = decide (p = q) := by
  have same : 1#32 <<< q.val = BitVec.twoPow 32 q.val := (BitVec.twoPow_eq 32 q.val).symm
  rw [same, BitVec.getLsbD_twoPow]
  have place : decide (q.val = p.val) = decide (p = q) := by rw [decide_eq_decide, Fin.ext_iff, eq_comm]
  rw [place, decide_eq_true (show q.val < 32 from q.isLt), Bool.true_and]

theorem getLsbD_set (group : BitVec 32) (p q : Fin 32) : (group ||| 1#32 <<< q.val).getLsbD p = true ↔ group.getLsbD p = true ∨ p = q := by
  rw [BitVec.getLsbD_or, getLsbD_mask, Bool.or_eq_true, decide_eq_true_eq]

theorem getLsbD_clear (group : BitVec 32) (p q : Fin 32) :
    (group &&& ~~~(1#32 <<< q.val)).getLsbD p = true ↔ group.getLsbD p = true ∧ p ≠ q := by
  rw [BitVec.getLsbD_and, BitVec.getLsbD_not, getLsbD_mask, decide_eq_true p.isLt, Bool.true_and, Bool.and_eq_true, Bool.not_eq_true',
    decide_eq_false_iff_not]

end Bits

variable {k : Kernel T S} {t : T} {s : S}

/-- The ready lists do not hold a suspended thread. -/
theorem WellFormed.not_mem_priority (wf : k.WellFormed) (suspended : (k.thread t).stat ≠ .ready) (p : Fin 32) :
    t ∉ k.lists (.priority p) := fun inside => suspended (wf.belongs inside).1

section Threads

variable [DecidableEq T]

@[simp] theorem setThread_self (k : Kernel T S) (t : T) (f : RtThread → RtThread) : (k.setThread t f).thread t = f (k.thread t) :=
  Function.update_self t _ k.thread

theorem setThread_of_ne (k : Kernel T S) {t u : T} (other : u ≠ t) (f : RtThread → RtThread) : (k.setThread t f).thread u = k.thread u :=
  Function.update_of_ne other _ k.thread

omit [DecidableEq T] in
@[simp] theorem setLists_thread (k : Kernel T S) (f : (ListHead S → List T) → ListHead S → List T) : (k.setLists f).thread = k.thread := rfl

/-- A thread whose state, priority and mask stay. -/
theorem WellFormed.setThread (wf : k.WellFormed) (f : RtThread → RtThread) (stat : (f (k.thread t)).stat = (k.thread t).stat)
    (priority : (f (k.thread t)).currentPriority = (k.thread t).currentPriority)
    (mask : (f (k.thread t)).numberMask = (k.thread t).numberMask) (timer : (f (k.thread t)).timer = true → (k.thread t).stat = .suspend) :
    (k.setThread t f).WellFormed := by
  have same : ∀ u, ((k.setThread t f).thread u).stat = (k.thread u).stat ∧
      ((k.setThread t f).thread u).currentPriority = (k.thread u).currentPriority ∧
      ((k.setThread t f).thread u).numberMask = (k.thread u).numberMask ∧
      (((k.setThread t f).thread u).timer = true → (k.thread u).stat = .suspend) := by
    intro u
    rcases eq_or_ne u t with rfl | other
    · rw [setThread_self]
      exact ⟨stat, priority, mask, timer⟩
    · rw [setThread_of_ne k other]
      exact ⟨rfl, rfl, rfl, wf.timer⟩
  exact {
    nodup := wf.nodup
    once := wf.once
    belongs := by
      intro u h inside
      have old := wf.belongs inside
      cases h with
      | priority p => exact ⟨(same u).1.trans old.1, (same u).2.1.trans old.2⟩
      | suspended s | defunct => exact (same u).1.trans old
    ready := by
      intro u ready
      rw [(same u).2.1]
      exact wf.ready ((same u).1.symm.trans ready)
    mask := by
      intro u present
      rw [(same u).2.1, (same u).2.2.1]
      exact wf.mask ((same u).1 ▸ present)
    group := wf.group
    timer := by
      intro u started
      exact (same u).1.trans ((same u).2.2.2 started)
    value := wf.value
    order := by
      intro s prio
      exact (wf.order prio).imp fun {u v} below => by rw [(same u).2.1, (same v).2.1]; exact below }

/-- `rt_list_remove` of a suspended thread. -/
theorem WellFormed.unlink (wf : k.WellFormed) (suspended : (k.thread t).stat ≠ .ready) : (k.setLists (remove t)).WellFormed where
  toSeparate := wf.toSeparate.remove t
  belongs inside := wf.belongs ((wf.toSeparate.mem_remove _).mp inside).2
  ready := by
    intro u ready
    refine (wf.toSeparate.mem_remove u).mpr ⟨?_, wf.ready ready⟩
    rintro rfl
    exact suspended ready
  mask := wf.mask
  group p := by
    have same : remove t k.lists (.priority p) = k.lists (.priority p) := List.erase_of_not_mem (wf.not_mem_priority suspended p)
    show _ ↔ remove t k.lists (.priority p) ≠ []
    rw [same]
    exact wf.group p
  timer := wf.timer
  value waited := wf.value fun none => waited (by show (k.lists _).erase t = []; rw [none]; rfl)
  order prio := (wf.order prio).sublist List.erase_sublist

omit [DecidableEq T] in
/-- `rt_list_insert_before` at the head of a semaphore that is 0, for a suspended thread. -/
theorem WellFormed.wait (wf : k.WellFormed) (suspended : (k.thread t).stat = .suspend) {ls : ListHead S → List T} (separate : Separate ls)
    (same : ∀ h, h ≠ .suspended s → ls h = k.lists h) (mem : ∀ u, u ∈ ls (.suspended s) ↔ u ∈ k.lists (.suspended s) ∨ u = t)
    (zero : k.value s = 0) (order : k.flag s = .prio →
      (ls (.suspended s)).Pairwise fun t u => (k.thread t).currentPriority ≤ (k.thread u).currentPriority) :
    (k.setLists fun _ => ls).WellFormed := by
  have priority : ∀ p, ls (.priority p) = k.lists (.priority p) := fun p => same _ (by simp)
  exact {
    toSeparate := separate
    belongs := by
      intro u h inside
      rcases eq_or_ne h (.suspended s) with rfl | other
      · rcases (mem u).mp inside with old | rfl
        · exact wf.belongs old
        · exact suspended
      · exact wf.belongs (same h other ▸ inside)
    ready := by
      intro u ready
      show u ∈ ls _
      rw [priority]
      exact wf.ready ready
    mask := wf.mask
    group := fun p => (wf.group p).trans (by rw [← priority p]; rfl)
    timer := wf.timer
    value := by
      intro s' waited
      rcases eq_or_ne s' s with rfl | other
      · exact zero
      · exact wf.value (same (.suspended s') (by simpa using other) ▸ waited)
    order := by
      intro s' prio
      rcases eq_or_ne s' s with rfl | other
      · exact order prio
      · show (ls _).Pairwise _
        rw [same (.suspended s') (by simpa using other)]
        exact wf.order prio }

variable [DecidableEq S]

omit [DecidableEq T] in
/-- `rt_list_insert_after` at the head of the defunct threads, for a closed thread that is in no list. -/
theorem WellFormed.bury (wf : k.WellFormed) (closed : (k.thread t).stat = .close) (detached : Detached k.lists t) :
    (k.setLists (prepend .defunct t)).WellFormed := by
  have others : ∀ h, h ≠ .defunct → prepend .defunct t k.lists h = k.lists h := fun h other => prepend_of_ne other t k.lists
  exact {
    toSeparate := wf.toSeparate.prepend detached .defunct
    belongs := by
      intro u h inside
      rcases (mem_prepend u).mp inside with old | ⟨rfl, rfl⟩
      · exact wf.belongs old
      · exact closed
    ready := by
      intro u still
      have inside : u ∈ prepend .defunct t k.lists (.priority (k.thread u).currentPriority) := (mem_prepend u).mpr (.inl (wf.ready still))
      exact inside
    mask := wf.mask
    group := by
      intro p
      show _ ↔ prepend .defunct t k.lists (.priority p) ≠ []
      rw [others _ (by simp)]
      exact wf.group p
    timer := wf.timer
    value := fun {s} waited => wf.value (others (.suspended s) (by simp) ▸ waited)
    order := by
      intro s prio
      show (prepend .defunct t k.lists (.suspended s)).Pairwise _
      rw [others _ (by simp)]
      exact wf.order prio }

section Insert

@[simp] theorem rtScheduleInsertThread_lists (t : T) (k : Kernel T S) :
    (k.rtScheduleInsertThread t).lists = append (.priority (k.thread t).currentPriority) t k.lists := by
  simp [rtScheduleInsertThread, setLists, setThread]

@[simp] theorem rtScheduleInsertThread_thread (t : T) (k : Kernel T S) :
    (k.rtScheduleInsertThread t).thread = (k.setThread t fun thread => { thread with stat := .ready }).thread := rfl

@[simp] theorem rtScheduleInsertThread_group (t : T) (k : Kernel T S) :
    (k.rtScheduleInsertThread t).group = k.group ||| (k.thread t).numberMask := by
  simp [rtScheduleInsertThread, setLists, setThread]

/-- `rt_schedule_insert_thread` of a suspended thread that is in no list. -/
theorem WellFormed.insertThread (wf : k.WellFormed) (suspended : (k.thread t).stat = .suspend) (detached : Detached k.lists t)
    (stopped : (k.thread t).timer = false) : (k.rtScheduleInsertThread t).WellFormed := by
  have separate := wf.toSeparate.append detached (.priority (k.thread t).currentPriority)
  have others : ∀ {u}, u ≠ t → (k.rtScheduleInsertThread t).thread u = k.thread u := by
    intro u other
    rw [rtScheduleInsertThread_thread, setThread_of_ne k other]
  have own : (k.rtScheduleInsertThread t).thread t = { k.thread t with stat := .ready } := by
    rw [rtScheduleInsertThread_thread, setThread_self]
  have waiting : ∀ s, (k.rtScheduleInsertThread t).lists (.suspended s) = k.lists (.suspended s) := by
    intro s
    rw [rtScheduleInsertThread_lists]
    exact append_of_ne (by simp) _ _
  have member : ∀ {u s}, u ∈ k.lists (.suspended s) → u ≠ t := by
    rintro u s inside rfl
    exact detached _ inside
  exact {
    toSeparate := by rw [rtScheduleInsertThread_lists]; exact separate
    belongs := by
      intro u h inside
      rw [rtScheduleInsertThread_lists, mem_append] at inside
      rcases inside with old | ⟨rfl, rfl⟩
      · have other : u ≠ t := by
          rintro rfl
          exact detached h old
        have was := wf.belongs old
        cases h <;> simpa only [Belongs, others other] using was
      · exact ⟨by rw [own], by rw [own]⟩
    ready := by
      intro u ready
      rw [rtScheduleInsertThread_lists, mem_append]
      rcases eq_or_ne u t with rfl | other
      · exact .inr ⟨by rw [own], rfl⟩
      · rw [others other] at ready ⊢
        exact .inl (wf.ready ready)
    mask := by
      intro u present
      rcases eq_or_ne u t with rfl | other
      · rw [own]
        exact wf.mask (.inr suspended)
      · rw [others other] at present ⊢
        exact wf.mask present
    group := by
      intro p
      rw [rtScheduleInsertThread_group, rtScheduleInsertThread_lists, wf.mask (.inr suspended), getLsbD_set, wf.group p]
      rcases eq_or_ne p (k.thread t).currentPriority with rfl | other
      · simp
      · simp [append_of_ne (show ListHead.priority p ≠ .priority _ by simpa using other), other]
    timer := by
      intro u started
      rcases eq_or_ne u t with rfl | other
      · rw [own] at started
        exact absurd (stopped.symm.trans started) (by decide)
      · rw [others other] at started ⊢
        exact wf.timer started
    value := by
      intro s waited
      rw [waiting s] at waited
      exact wf.value waited
    order := by
      intro s prio
      rw [waiting s]
      refine (wf.order prio).imp_of_mem fun {u v} first second below => ?_
      rw [others (member first), others (member second)]
      exact below }

end Insert

section Remove

omit [DecidableEq S] in
theorem rtScheduleRemoveThread_eq (t : T) (k : Kernel T S) : k.rtScheduleRemoveThread t = { k with
    lists := remove t k.lists
    group := if remove t k.lists (.priority (k.thread t).currentPriority) = [] then k.group &&& ~~~(k.thread t).numberMask else k.group } := by
  unfold rtScheduleRemoveThread setLists
  dsimp only
  split <;> rfl

omit [DecidableEq S] in
@[simp] theorem rtScheduleRemoveThread_lists (t : T) (k : Kernel T S) : (k.rtScheduleRemoveThread t).lists = remove t k.lists := by
  rw [rtScheduleRemoveThread_eq]

omit [DecidableEq S] in
@[simp] theorem rtScheduleRemoveThread_thread (t : T) (k : Kernel T S) : (k.rtScheduleRemoveThread t).thread = k.thread := by
  rw [rtScheduleRemoveThread_eq]

omit [DecidableEq S] in
/-- The ready priorities after a ready thread left its list. -/
theorem WellFormed.removed_group (wf : k.WellFormed) (ready : (k.thread t).stat = .ready) (p : Fin 32) :
    (k.rtScheduleRemoveThread t).group.getLsbD p = true ↔ (k.rtScheduleRemoveThread t).lists (.priority p) ≠ [] := by
  have shorter : remove t k.lists (.priority p) ≠ [] → k.lists (.priority p) ≠ [] := by
    intro some none
    exact some (by show (k.lists _).erase t = []; rw [none]; rfl)
  have untouched : p ≠ (k.thread t).currentPriority → remove t k.lists (.priority p) = k.lists (.priority p) := by
    intro other
    exact List.erase_of_not_mem fun inside => other (wf.belongs inside).2.symm
  rw [rtScheduleRemoveThread_eq]
  dsimp only
  split
  · rename_i empty
    rw [wf.mask (.inl ready), getLsbD_clear, wf.group p]
    refine ⟨fun old => untouched old.2 ▸ old.1, fun some => ⟨shorter some, ?_⟩⟩
    rintro rfl
    exact some empty
  · rename_i some
    rw [wf.group p]
    refine ⟨fun old => ?_, shorter⟩
    rcases eq_or_ne p (k.thread t).currentPriority with rfl | other
    · exact some
    · exact untouched other ▸ old

omit [DecidableEq S] in
/-- A ready thread is suspended or ends. -/
theorem WellFormed.leave (wf : k.WellFormed) (ready : (k.thread t).stat = .ready) {f : RtThread → RtThread}
    (gone : (f (k.thread t)).stat ≠ .ready) (priority : (f (k.thread t)).currentPriority = (k.thread t).currentPriority)
    (mask : (f (k.thread t)).numberMask = (k.thread t).numberMask) (stopped : (f (k.thread t)).timer = false) :
    ((k.rtScheduleRemoveThread t).setThread t f).WellFormed := by
  have others : ∀ {u}, u ≠ t → ((k.rtScheduleRemoveThread t).setThread t f).thread u = k.thread u := by
    intro u other
    rw [setThread_of_ne _ other, rtScheduleRemoveThread_thread]
  have own : ((k.rtScheduleRemoveThread t).setThread t f).thread t = f (k.thread t) := by
    rw [setThread_self, rtScheduleRemoveThread_thread]
  have lists : ((k.rtScheduleRemoveThread t).setThread t f).lists = remove t k.lists := rtScheduleRemoveThread_lists t k
  have waiting : ∀ s, remove t k.lists (.suspended s) = k.lists (.suspended s) := by
    intro s
    refine List.erase_of_not_mem fun inside => ?_
    have suspended := wf.belongs inside
    exact absurd (ready.symm.trans suspended) (by decide)
  have same : (k.rtScheduleRemoveThread t).value = k.value ∧ (k.rtScheduleRemoveThread t).flag = k.flag := by
    rw [rtScheduleRemoveThread_eq]
    exact ⟨rfl, rfl⟩
  exact {
    toSeparate := by rw [lists]; exact wf.toSeparate.remove t
    belongs := by
      intro u h inside
      rw [lists, wf.toSeparate.mem_remove] at inside
      have was := wf.belongs inside.2
      cases h <;> simpa only [Belongs, others inside.1] using was
    ready := by
      intro u still
      rcases eq_or_ne u t with rfl | other
      · rw [own] at still
        exact absurd still gone
      · rw [others other] at still ⊢
        rw [lists, wf.toSeparate.mem_remove]
        exact ⟨other, wf.ready still⟩
    mask := by
      intro u present
      rcases eq_or_ne u t with rfl | other
      · rw [own, priority, mask]
        exact wf.mask (.inl ready)
      · rw [others other] at present ⊢
        exact wf.mask present
    group := wf.removed_group ready
    timer := by
      intro u started
      rcases eq_or_ne u t with rfl | other
      · rw [own] at started
        exact absurd (stopped.symm.trans started) (by decide)
      · rw [others other] at started ⊢
        exact wf.timer started
    value := by
      intro s waited
      rw [lists, waiting s] at waited
      exact (congrFun same.1 s).trans (wf.value waited)
    order := by
      intro s prio
      rw [lists, waiting s]
      refine (wf.order ((congrFun same.2 s).symm.trans prio)).imp_of_mem fun {u v} first second below => ?_
      have member : ∀ {w}, w ∈ k.lists (.suspended s) → w ≠ t := by
        rintro w inside rfl
        have suspended := wf.belongs inside
        exact absurd (ready.symm.trans suspended) (by decide)
      rw [others (member first), others (member second)]
      exact below }

end Remove

section Threads

omit [DecidableEq S] in
/-- What `rt_thread_suspend` makes of a ready thread. -/
theorem rtThreadSuspend_of_ready (ready : (k.thread t).stat = .ready) : k.rtThreadSuspend t = (.eok, { k with
    lists := remove t k.lists
    group := (k.rtScheduleRemoveThread t).group
    thread := Function.update k.thread t { k.thread t with stat := .suspend, timer := false } }) := by
  rw [Kernel.rtThreadSuspend, if_neg (not_not.mpr ready)]
  dsimp only
  rw [rtScheduleRemoveThread_eq, rtScheduleRemoveThread_eq]
  simp [Kernel.setThread]

/-- What `rt_thread_resume` makes of a suspended thread. -/
theorem rtThreadResume_of_suspended (suspended : (k.thread t).stat = .suspend) : k.rtThreadResume t = (.eok, { k with
    lists := append (.priority (k.thread t).currentPriority) t (remove t k.lists)
    group := k.group ||| (k.thread t).numberMask
    thread := Function.update k.thread t { k.thread t with stat := .ready, timer := false } }) := by
  rw [Kernel.rtThreadResume, if_neg (not_not.mpr suspended)]
  simp [rtScheduleInsertThread, Kernel.setThread, setLists]

omit [DecidableEq S] in
theorem WellFormed.rtThreadSuspend (wf : k.WellFormed) (ready : (k.thread t).stat = .ready) : (k.rtThreadSuspend t).2.WellFormed := by
  have left := wf.leave ready (f := fun thread => { thread with stat := .suspend, timer := false }) (by simp) rfl rfl rfl
  rw [rtThreadSuspend_of_ready ready]
  rw [Kernel.setThread, rtScheduleRemoveThread_eq] at left
  rw [rtScheduleRemoveThread_eq]
  exact left

theorem WellFormed.rtThreadResume (wf : k.WellFormed) (t : T) : (k.rtThreadResume t).2.WellFormed := by
  unfold Kernel.rtThreadResume
  split
  · exact wf
  · rename_i suspended
    have suspended := not_not.mp suspended
    have unlinked := wf.unlink (t := t) (by rw [suspended]; decide)
    have stopped := unlinked.setThread (t := t) (fun thread => { thread with timer := false }) rfl rfl rfl (by simp)
    exact stopped.insertThread (by simpa using suspended) (wf.toSeparate.detached_remove t) (by simp)

/-- A thread that starts. -/
theorem WellFormed.rtThreadStartup (wf : k.WellFormed) (init : (k.thread t).stat = .init) : (k.rtThreadStartup t).WellFormed := by
  have member : ∀ {u h}, u ∈ k.lists h → u ≠ t := by
    rintro u h inside rfl
    have was := wf.belongs inside
    cases h with
    | priority p => exact absurd (init.symm.trans was.1) (by decide)
    | suspended s | defunct => exact absurd (init.symm.trans was) (by decide)
  refine WellFormed.rtThreadResume ?_ t
  generalize prepared : (fun thread : RtThread =>
    { thread with currentPriority := thread.initPriority, numberMask := 1#32 <<< thread.initPriority.val, stat := .suspend }) = f
  have others : ∀ {u}, u ≠ t → (k.setThread t f).thread u = k.thread u := fun other => setThread_of_ne k other f
  have own : (k.setThread t f).thread t = f (k.thread t) := setThread_self k t f
  exact {
    toSeparate := wf.toSeparate
    belongs := by
      intro u h inside
      have was := wf.belongs inside
      cases h <;> simpa only [Belongs, others (member inside)] using was
    ready := by
      intro u still
      rcases eq_or_ne u t with rfl | other
      · rw [own, ← prepared] at still
        exact absurd still (by simp)
      · rw [others other] at still ⊢
        exact wf.ready still
    mask := by
      intro u present
      rcases eq_or_ne u t with rfl | other
      · rw [own, ← prepared]
      · rw [others other] at present ⊢
        exact wf.mask present
    group := wf.group
    timer := by
      intro u started
      rcases eq_or_ne u t with rfl | other
      · rw [own, ← prepared]
      · rw [others other] at started ⊢
        exact wf.timer started
    value := wf.value
    order := by
      intro s prio
      refine (wf.order prio).imp_of_mem fun {u v} first second below => ?_
      rw [others (member first), others (member second)]
      exact below }

/-- A ready thread goes to the end of its list. -/
theorem WellFormed.rtThreadYield (wf : k.WellFormed) (t : T) : (k.rtThreadYield t).2.WellFormed := by
  unfold Kernel.rtThreadYield
  split
  · rename_i several
    have ready := several.1
    have separate := (wf.toSeparate.remove t).append (wf.toSeparate.detached_remove t) (.priority (k.thread t).currentPriority)
    have mem : ∀ {u h}, u ∈ append (.priority (k.thread t).currentPriority) t (remove t k.lists) h ↔ u ∈ k.lists h := by
      intro u h
      rw [mem_append, wf.toSeparate.mem_remove]
      refine ⟨?_, fun inside => ?_⟩
      · rintro (⟨-, inside⟩ | ⟨rfl, rfl⟩)
        · exact inside
        · exact wf.ready ready
      · rcases eq_or_ne u t with rfl | other
        · exact .inr ⟨wf.toSeparate.once inside (wf.ready ready), rfl⟩
        · exact .inl ⟨other, inside⟩
    have waiting : ∀ s, append (.priority (k.thread t).currentPriority) t (remove t k.lists) (.suspended s) = k.lists (.suspended s) := by
      intro s
      refine (append_of_ne (by simp) _ _).trans (List.erase_of_not_mem fun inside => ?_)
      have suspended := wf.belongs inside
      exact absurd (ready.symm.trans suspended) (by decide)
    exact {
      toSeparate := separate
      belongs := fun inside => wf.belongs (mem.mp inside)
      ready := fun still => mem.mpr (wf.ready still)
      mask := wf.mask
      group := fun p => by
        refine (wf.group p).trans ?_
        simp only [ne_eq, List.eq_nil_iff_forall_not_mem]
        exact not_congr (forall_congr' fun u => not_congr mem.symm)
      timer := wf.timer
      value := fun {s} waited => wf.value (waiting s ▸ waited)
      order := fun {s} prio => by
        have sorted := wf.order prio
        rw [← waiting s] at sorted
        exact sorted }
  · exact wf

omit [DecidableEq S] in
theorem WellFormed.rtThreadSleep (wf : k.WellFormed) (ready : (k.thread t).stat = .ready) : (k.rtThreadSleep t).WellFormed := by
  have suspended : ((k.rtThreadSuspend t).2.thread t).stat = .suspend := by
    rw [rtThreadSuspend_of_ready ready]
    simp
  exact (wf.rtThreadSuspend ready).setThread _ rfl rfl rfl fun _ => suspended

omit [DecidableEq S] in
theorem WellFormed.rtThreadSlept (wf : k.WellFormed) (t : T) : (k.rtThreadSlept t).WellFormed := by
  unfold Kernel.rtThreadSlept
  split
  · exact wf.setThread _ rfl rfl rfl wf.timer
  · exact wf

theorem WellFormed.rtThreadExit (wf : k.WellFormed) (ready : (k.thread t).stat = .ready) (detach : Bool) :
    (k.rtThreadExit t detach).WellFormed := by
  have ended := wf.leave ready (f := fun thread => { thread with stat := .close, timer := false }) (by simp) rfl rfl rfl
  unfold Kernel.rtThreadExit
  dsimp only
  split
  · exact ended
  · refine ended.bury (by rw [setThread_self]) ?_
    show Detached (k.rtScheduleRemoveThread t).lists t
    rw [rtScheduleRemoveThread_lists]
    exact wf.toSeparate.detached_remove t

omit [DecidableEq S] in
/-- A round takes a closed thread out of its list, or does nothing. -/
theorem WellFormed.idleExcute_cases (wf : k.WellFormed) :
    k.rtThreadIdleExcute = k ∨ ∃ t, (k.thread t).stat = .close ∧ k.rtThreadIdleExcute = k.setLists (remove t) := by
  unfold Kernel.rtThreadIdleExcute
  split
  · exact .inl rfl
  · rename_i thread rest list
    have first : thread ∈ k.lists .defunct := by
      rw [list]
      exact List.mem_cons_self
    exact .inr ⟨thread, wf.belongs first, rfl⟩

omit [DecidableEq S] in
theorem WellFormed.rtThreadIdleExcute (wf : k.WellFormed) : k.rtThreadIdleExcute.WellFormed := by
  obtain same | ⟨t, closed, same⟩ := wf.idleExcute_cases <;> rw [same]
  · exact wf
  · exact wf.unlink (by rw [closed]; decide)

theorem WellFormed.rtThreadTimeout (wf : k.WellFormed) (suspended : (k.thread t).stat = .suspend) : (k.rtThreadTimeout t).WellFormed := by
  have stopped := wf.setThread (t := t) (fun thread => { thread with timer := false }) rfl rfl rfl (by simp)
  have failed := stopped.setThread (t := t) (fun thread => { thread with error := .etimeout }) rfl rfl rfl (by simp)
  have still : ((((k.setThread t fun thread => { thread with timer := false }).setThread t
      fun thread => { thread with error := .etimeout })).thread t).stat = .suspend := by simpa using suspended
  exact (failed.unlink (by rw [still]; decide)).insertThread (by simpa using suspended) (failed.toSeparate.detached_remove t) (by simp)

theorem WellFormed.rtTickIncrease (wf : k.WellFormed) (t : T) : (k.rtTickIncrease t).2.WellFormed := by
  have counted := wf.setThread (t := t) (fun thread => { thread with remainingTick := thread.remainingTick - 1 }) rfl rfl rfl wf.timer
  unfold Kernel.rtTickIncrease
  dsimp only
  split
  · exact (counted.setThread _ rfl rfl rfl counted.timer).rtThreadYield t
  · exact counted

end Threads

section Semaphores

/-- Where `rt_ipc_list_suspend` puts a thread. -/
def queued (s : S) (t : T) (k : Kernel T S) : ListHead S → List T :=
  match k.flag s with
  | .fifo => append (.suspended s) t k.lists
  | .prio =>
    match (k.lists (.suspended s)).find? fun sthread => (k.thread t).currentPriority < (k.thread sthread).currentPriority with
    | some sthread => insertBefore sthread t k.lists
    | none => append (.suspended s) t k.lists

theorem rtIpcListSuspend_eq (s : S) (t : T) (k : Kernel T S) :
    k.rtIpcListSuspend s t = (k.rtThreadSuspend t).2.setLists fun _ => (k.rtThreadSuspend t).2.queued s t := by
  cases flag : (k.rtThreadSuspend t).2.flag s with
  | fifo => simp only [rtIpcListSuspend, queued, flag, setLists]
  | prio =>
    simp only [rtIpcListSuspend, queued, flag, setLists]
    generalize List.find? _ _ = found
    cases found <;> rfl

/-- The end of the list, or the place before the first thread that is less urgent. -/
theorem queued_cases (s : S) (t : T) (k : Kernel T S) :
    (k.queued s t = append (.suspended s) t k.lists ∧
      (k.flag s = .prio → ∀ u ∈ k.lists (.suspended s), (k.thread u).currentPriority ≤ (k.thread t).currentPriority)) ∨
    ∃ sthread l1 l2, k.queued s t = insertBefore sthread t k.lists ∧ k.lists (.suspended s) = l1 ++ sthread :: l2 ∧
      (k.thread t).currentPriority < (k.thread sthread).currentPriority ∧
      ∀ u ∈ l1, (k.thread u).currentPriority ≤ (k.thread t).currentPriority := by
  cases flag : k.flag s with
  | fifo => exact .inl ⟨by rw [queued, flag], fun prio => absurd prio (by decide)⟩
  | prio =>
    cases found : (k.lists (.suspended s)).find? fun sthread => (k.thread t).currentPriority < (k.thread sthread).currentPriority with
    | none =>
      refine .inl ⟨by rw [queued, flag]; dsimp only; rw [found], fun _ u inside => ?_⟩
      simpa using List.find?_eq_none.mp found u inside
    | some sthread =>
      obtain ⟨less, l1, l2, split, before⟩ := List.find?_eq_some_iff_append.mp found
      refine .inr ⟨sthread, l1, l2, by rw [queued, flag]; dsimp only; rw [found], split, by simpa using less, fun u early => ?_⟩
      simpa using before u early

/-- A thread that waits is put in one place of the semaphore's list. -/
theorem queued_spec (separate : Separate k.lists) (detached : Detached k.lists t) (s : S) : Separate (k.queued s t) ∧
    (∀ h, h ≠ .suspended s → k.queued s t h = k.lists h) ∧
    ∀ u, u ∈ k.queued s t (.suspended s) ↔ u ∈ k.lists (.suspended s) ∨ u = t := by
  obtain ⟨last, -⟩ | ⟨sthread, l1, l2, place, split, -, -⟩ := queued_cases s t k
  · rw [last]
    exact ⟨separate.append detached _, fun h other => append_of_ne other _ _, fun u => by simp⟩
  · have inside : sthread ∈ k.lists (.suspended s) := by simp [split]
    rw [place]
    refine ⟨separate.insertBefore inside detached, fun h other => ?_, fun u => by simp [mem_insertBefore separate inside]⟩
    exact putBefore_of_notMem fun there => other (separate.once there inside)

/-- The list of a `RT_IPC_FLAG_PRIO` semaphore stays in order. -/
theorem queued_order (separate : Separate k.lists) (prio : k.flag s = .prio)
    (order : (k.lists (.suspended s)).Pairwise fun t u => (k.thread t).currentPriority ≤ (k.thread u).currentPriority) :
    (k.queued s t (.suspended s)).Pairwise fun t u => (k.thread t).currentPriority ≤ (k.thread u).currentPriority := by
  obtain ⟨last, below⟩ | ⟨sthread, l1, l2, place, split, less, before⟩ := queued_cases s t k
  · rw [last, append_self, List.pairwise_append]
    refine ⟨order, List.pairwise_singleton _ _, fun u inside v last => ?_⟩
    rw [List.mem_singleton.mp last]
    exact below prio u inside
  · have nodup := separate.nodup (.suspended s)
    rw [split] at nodup order
    have first : sthread ∉ l1 := fun there => (List.nodup_append.mp nodup).2.2 sthread there sthread List.mem_cons_self rfl
    rw [place, insertBefore, split, putBefore_split first, List.pairwise_append]
    obtain ⟨order1, order2, across⟩ := List.pairwise_append.mp order
    refine ⟨order1, List.pairwise_cons.mpr ⟨fun u inside => ?_, order2⟩, fun u early v late => ?_⟩
    · rcases List.mem_cons.mp inside with rfl | later
      · exact le_of_lt less
      · exact le_trans (le_of_lt less) ((List.pairwise_cons.mp order2).1 u later)
    · rcases List.mem_cons.mp late with rfl | later
      · exact before u early
      · exact across u early v later

theorem WellFormed.rtIpcListSuspend (wf : k.WellFormed) (ready : (k.thread t).stat = .ready) (zero : k.value s = 0) :
    (k.rtIpcListSuspend s t).WellFormed := by
  have suspended := wf.rtThreadSuspend ready
  have left : ((k.rtThreadSuspend t).2.thread t).stat = .suspend ∧ (k.rtThreadSuspend t).2.lists = remove t k.lists ∧
      (k.rtThreadSuspend t).2.value s = 0 := by
    rw [rtThreadSuspend_of_ready ready]
    exact ⟨by simp, rfl, zero⟩
  have detached : Detached (k.rtThreadSuspend t).2.lists t := left.2.1 ▸ wf.toSeparate.detached_remove t
  obtain ⟨separate, same, mem⟩ := queued_spec suspended.toSeparate detached s
  rw [rtIpcListSuspend_eq]
  exact suspended.wait left.1 separate same mem left.2.2 fun prio => queued_order suspended.toSeparate prio (suspended.order prio)

omit [DecidableEq T] in
/-- A semaphore that no thread waits for takes any value. -/
theorem WellFormed.setValue (wf : k.WellFormed) (none : k.lists (.suspended s) = []) (v : BitVec 16) :
    ({ k with value := Function.update k.value s v } : Kernel T S).WellFormed where
  toSeparate := wf.toSeparate
  belongs := wf.belongs
  ready := wf.ready
  mask := wf.mask
  group := wf.group
  timer := wf.timer
  value := by
    intro s' waited
    have other : s' ≠ s := by
      rintro rfl
      exact waited none
    exact (Function.update_of_ne other _ _).trans (wf.value waited)
  order := wf.order

/-- The thread that waits, after `rt_ipc_list_suspend`. -/
theorem rtIpcListSuspend_self (ready : (k.thread t).stat = .ready) (s : S) :
    (k.rtIpcListSuspend s t).thread t = { k.thread t with stat := .suspend, timer := false } := by
  rw [rtIpcListSuspend_eq, setLists_thread, rtThreadSuspend_of_ready ready]
  exact Function.update_self _ _ _

theorem WellFormed.rtSemTake (wf : k.WellFormed) (s : S) {time : Int} (ready : k.value s = 0 → time ≠ 0 → (k.thread t).stat = .ready) :
    (k.rtSemTake t s time).2.WellFormed := by
  unfold Kernel.rtSemTake
  split
  · rename_i available
    apply wf.setValue
    by_contra waited
    rw [wf.value waited] at available
    exact absurd available (by decide)
  · rename_i unavailable
    split
    · exact wf
    · rename_i waits
      have zero : k.value s = 0 := by
        apply BitVec.eq_of_toNat_eq
        have none : ¬ 0 < (k.value s).toNat := unavailable
        exact Nat.eq_zero_of_not_pos none
      have reset := wf.setThread (t := t) (fun thread => { thread with error := .eok }) rfl rfl rfl wf.timer
      have still : (((k.setThread t fun thread => { thread with error := .eok })).thread t).stat = .ready := by
        simpa using ready zero waits
      have waiting := reset.rtIpcListSuspend still zero
      dsimp only
      split
      · refine waiting.setThread _ rfl rfl rfl fun _ => ?_
        rw [rtIpcListSuspend_self still]
      · exact waiting

theorem WellFormed.rtSemRelease (wf : k.WellFormed) (s : S) : (k.rtSemRelease s).2.WellFormed := by
  unfold Kernel.rtSemRelease
  split
  · unfold Kernel.rtIpcListResume
    dsimp only
    split
    · exact wf
    · exact wf.rtThreadResume _
  · rename_i none
    exact wf.setValue (not_not.mp none) _

end Semaphores

end Threads

end DoorSecurity.Kernel
