import DoorSecurity.Threads.Control

/-!
# The lock on the reader and the tag list

`match_thread_lock` separates `match_thread` from the menus of `touch_thread`, and
`door_open_thread_lock` counts the cards that the door still has to open for.
Whether a thread is inside is read off its point in the graph, so that a path
that came back to the top of its loop without a release would be seen.
-/

namespace DoorSecurity
set_option autoImplicit false
open Eeprom Lts

/-- What a label does to `sem`. -/
def Label.semOp (sem : Sem) : Label → Option SemOp
  | .take s => if s = sem then some .take else none
  | .release s => if s = sem then some .release else none
  | _ => none

/-- The points of each thread between its take of `match_thread_lock` and its release. -/
def Thread.inside : (t : Thread) → t.Pc → Bool
  | .matchThread, p => match p with
    | MatchPc.take | MatchPc.delay => false
    | _ => true
  | .touchThread, p => match p with
    | TouchPc.scan | TouchPc.beep _ | TouchPc.take _ | TouchPc.untouch | TouchPc.delay => false
    | _ => true
  | .doorOpenThread, _ => false

/-- A step of `Read_ID`. -/
def Label.readsCard : Label → Bool
  | .pcdRequest _ | .pcdAnticoll .. => true
  | _ => false

/-- The label uses the reader, `ucArray_ID` or the tag list. -/
def Label.usesReader : Label → Bool
  | .tagMatch .. | .registTag _ | .deleteRegisteredTag _ => true
  | l => l.readsCard

theorem countingSem (sem : Sem) : CountingSem threads (Label.semOp sem) fun sh => sh.value sem where
  take := by
    intro l sh sh' acts is
    cases l with
    | take s =>
      obtain ⟨positive, rfl⟩ := acts
      by_cases same : s = sem
      · subst same
        simp only [Function.update_self]
        omega
      · simp [Label.semOp, same] at is
    | release s => by_cases same : s = sem <;> simp [Label.semOp, same] at is
    | _ => simp [Label.semOp] at is
  release := by
    intro l sh sh' acts is
    cases l with
    | release s =>
      cases acts
      by_cases same : s = sem
      · subst same
        simp only [Function.update_self]
      · simp [Label.semOp, same] at is
    | take s => by_cases same : s = sem <;> simp [Label.semOp, same] at is
    | _ => simp [Label.semOp] at is
  other := by
    intro l sh sh' acts is
    cases l with
    | take s =>
      obtain ⟨-, rfl⟩ := acts
      by_cases same : s = sem
      · simp [Label.semOp, same] at is
      · exact Function.update_of_ne (Ne.symm same) _ _
    | release s =>
      cases acts
      by_cases same : s = sem
      · simp [Label.semOp, same] at is
      · exact Function.update_of_ne (Ne.symm same) _ _
    | pcdRequest tagType =>
      cases tagType with
      | none => cases acts; rfl
      | some bytes => cases acts; rfl
    | pcdAnticoll serial ok =>
      cases serial with
      | none => cases acts; rfl
      | some serial => cases acts; rfl
    | tagMatch | registTag | deleteRegisteredTag =>
      obtain ⟨-, rfl⟩ := acts
      rfl
    | _ => cases acts; rfl

theorem ReadStep.semOp {sem : Sem} {p : ReadPc} {l : Label} {q : ReadPc ⊕ Option TagId} (edge : ReadStep p l q) : l.semOp sem = none := by
  cases edge <;> rfl

theorem CardStep.semOp {sem : Sem} {k : Session} {p : CardPc} {l : Label} {q : Option CardPc} (edge : CardStep k p l q) :
    l.semOp sem = none := by
  cases edge with
  | readId edge | readOk edge | readError edge => exact edge.semOp
  | _ => rfl

/-- Every path of every thread takes and releases `match_thread_lock` in turn. -/
theorem brackets_matchThreadLock : Brackets threads (Label.semOp .matchThreadLock) Thread.inside := by
  intro t p l p' edge
  cases t with
  | matchThread =>
    have edge : MatchStep p l p' := edge
    cases edge with
    | readId reads | readOk reads | readError reads =>
      rw [reads.semOp]
      rfl
    | take | release => exact ⟨rfl, rfl⟩
    | _ => exact rfl
  | touchThread =>
    have edge : TouchStep p l p' := edge
    cases edge with
    | card walks | cardDone walks =>
      rw [walks.semOp]
      rfl
    | @verified menu => cases menu <;> exact rfl
    | @wakeCountdown menu => cases menu <;> exact rfl
    | take | release => exact ⟨rfl, rfl⟩
    | _ => exact rfl
  | doorOpenThread =>
    have edge : DoorStep p l p' := edge
    cases edge <;> exact rfl

theorem threads.start_outside (t : Thread) : Thread.inside t (threads.start.pc t) = false := by
  cases t <;> rfl

section

variable {es : List (Thread × Label)} {s : threads.State}

/-- The value and the threads inside are 1 together. -/
theorem value_add_inside (run : Runs threads.Step threads.start es s) :
    s.shared.value .matchThreadLock + insideCount Thread.inside s = 1 := by
  have total := (countingSem .matchThreadLock).value_add_inside brackets_matchThreadLock run
  have none : insideCount Thread.inside threads.start = 0 := by
    unfold insideCount
    rw [Finset.card_eq_zero, Finset.filter_eq_empty_iff]
    intro t _
    rw [threads.start_outside]
    decide
  rw [none] at total
  exact total

/-- The reader, `ucArray_ID` and the tag list are used from inside only. -/
theorem Thread.inside_of_usesReader {t : Thread} {p p' : t.Pc} {l : Label} (edge : t.control p l p') (uses : l.usesReader = true) :
    t.inside p = true := by
  cases t with
  | matchThread =>
    have edge : MatchStep p l p' := edge
    cases edge <;> first | rfl | contradiction
  | touchThread =>
    have edge : TouchStep p l p' := edge
    cases edge <;> first | rfl | contradiction
  | doorOpenThread =>
    have edge : DoorStep p l p' := edge
    cases edge <;> contradiction

/-- Nothing but the reader stores at `ucArray_ID`. -/
theorem Label.effect_ucArrayId {l : Label} {sh sh' : Shared} (acts : l.effect sh sh') (unread : l.readsCard = false) :
    sh'.ucArrayId = sh.ucArrayId := by
  cases l with
  | take | tagMatch | registTag | deleteRegisteredTag =>
    obtain ⟨-, rfl⟩ := acts
    rfl
  | pcdRequest | pcdAnticoll => contradiction
  | _ => cases acts; rfl

theorem Label.usesReader_of_readsCard {l : Label} (reads : l.readsCard = true) : l.usesReader = true := by
  cases l <;> first | rfl | contradiction

/-- **Mutual exclusion.** A thread that uses the reader is inside, and no other thread is. -/
theorem uses_alone (run : Runs threads.Step threads.start es s) {t : Thread} {l : Label} {s' : threads.State}
    (step : threads.Step s (t, l) s') (uses : l.usesReader = true) :
    t.inside (s.pc t) = true ∧ ∀ u, u ≠ t → u.inside (s.pc u) = false := by
  have own := Thread.inside_of_usesReader step.spec.1 uses
  refine ⟨own, fun u other => ?_⟩
  by_contra second
  have total := value_add_inside run
  exact other (inside_unique (by omega) (by simpa using second) own)

/-- `match_thread` enters the match with the ID that `Read_ID` has just stored. -/
theorem MatchStep.ucArrayId_of_read {p : MatchPc} {l : Label} {tagId : TagId} {sh sh' : Shared} (edge : MatchStep p l (.tagMatch tagId))
    (acts : l.effect sh sh') : sh'.ucArrayId = tagId := by
  cases edge with
  | readOk reads =>
    cases reads with
    | read serial =>
      cases acts
      rfl

/-- **The ID stays.** From `Read_ID` to `tag_match` nothing else stores at `ucArray_ID`. -/
theorem ucArrayId_at_tagMatch (run : Runs threads.Step threads.start es s) :
    ∀ tagId, s.pc .matchThread = MatchPc.tagMatch tagId → s.shared.ucArrayId = tagId := by
  induction run with
  | nil => rintro tagId ⟨⟩
  | @snoc es s s' e before last ih =>
    intro tagId here
    obtain ⟨t, l⟩ := e
    obtain ⟨edge, acts, others⟩ := last.spec
    by_cases own : t = .matchThread
    · subst own
      rw [here] at edge
      exact MatchStep.ucArrayId_of_read edge acts
    · have stays := others .matchThread (Ne.symm own)
      have there : s.pc .matchThread = MatchPc.tagMatch tagId := stays.symm.trans here
      cases reads : l.readsCard with
      | false => rw [Label.effect_ucArrayId acts reads, ih tagId there]
      | true =>
        have free := (uses_alone before last (Label.usesReader_of_readsCard reads)).2 .matchThread (Ne.symm own)
        rw [there] at free
        contradiction

/-- `tag_match` in `match_thread` returned 1. -/
def isMatch : Thread × Label → Bool
  | (.matchThread, .tagMatch _ r) => r == 1
  | _ => false

/-- `door_open_thread` took `door_open_thread_lock`. -/
def isDoorCycle (e : Thread × Label) : Bool := e = (.doorOpenThread, .take .doorOpenThreadLock)

/-- A match whose release is still to come. -/
def MatchPc.owesDoor : MatchPc → Nat
  | .releaseDoor _ => 1
  | _ => 0

/-- Only `match_thread` releases the door, once a match. -/
theorem releases_add_owesDoor (run : Runs threads.Step threads.start es s) :
    semCount (Label.semOp .doorOpenThreadLock) .release es + MatchPc.owesDoor (s.pc .matchThread) = es.countP isMatch := by
  unfold semCount
  induction run with
  | nil => rfl
  | @snoc es s s' e before last ih =>
    obtain ⟨t, l⟩ := e
    obtain ⟨edge, -, others⟩ := last.spec
    rw [List.countP_cons, List.countP_cons]
    cases t with
    | matchThread =>
      have edge : MatchStep (s.pc .matchThread) l (s'.pc .matchThread) := edge
      generalize s.pc .matchThread = p at edge ih
      generalize s'.pc .matchThread = p' at edge
      cases edge with
      | readId reads | readOk reads | readError reads => cases reads <;> exact ih
      | matched | releaseDoor =>
        simp only [MatchPc.owesDoor, isMatch, Label.semOp] at ih ⊢
        simp
        omega
      | unmatched tagId read no =>
        simp only [MatchPc.owesDoor, isMatch, Label.semOp] at ih ⊢
        simp [no]
        omega
      | _ => exact ih
    | touchThread =>
      rw [others .matchThread (by decide)]
      have edge : TouchStep (s.pc .touchThread) l (s'.pc .touchThread) := edge
      generalize s.pc .touchThread = p at edge
      generalize s'.pc .touchThread = p' at edge
      cases edge with
      | card walks | cardDone walks =>
        rw [walks.semOp]
        exact ih
      | @wakeCountdown menu => cases menu <;> exact ih
      | _ => exact ih
    | doorOpenThread =>
      rw [others .matchThread (by decide)]
      have edge : DoorStep (s.pc .doorOpenThread) l (s'.pc .doorOpenThread) := edge
      generalize s.pc .doorOpenThread = p at edge
      generalize s'.pc .doorOpenThread = p' at edge
      cases edge <;> exact ih

/-- No door cycle without a match of its own. -/
theorem doorCycles_le_matches (run : Runs threads.Step threads.start es s) : es.countP isDoorCycle ≤ es.countP isMatch := by
  have taken := (countingSem .doorOpenThreadLock).value_add_takes run
  have released := releases_add_owesDoor run
  have first : threads.start.shared.value .doorOpenThreadLock = 0 := rfl
  have cycles : es.countP isDoorCycle ≤ semCount (Label.semOp .doorOpenThreadLock) .take es := by
    apply List.countP_mono_left
    intro e _ cycle
    rw [of_decide_eq_true cycle]
    rfl
  omega

/-- **The locks of the three threads**, in every interleaving. -/
theorem reader_lock (run : Runs threads.Step threads.start es s) :
    s.shared.value .matchThreadLock + insideCount Thread.inside s = 1 ∧
      (∀ t : Thread, pairing (semOps (Label.semOp .matchThreadLock) t es) = some (t.inside (s.pc t))) ∧
      (∀ (t : Thread) (l : Label) (s' : threads.State), threads.Step s (t, l) s' → l.usesReader = true →
        t.inside (s.pc t) = true ∧ ∀ u : Thread, u ≠ t → u.inside (s.pc u) = false) ∧
      (∀ tagId, s.pc .matchThread = MatchPc.tagMatch tagId → s.shared.ucArrayId = tagId) ∧
      es.countP isDoorCycle ≤ es.countP isMatch :=
  ⟨value_add_inside run, pairing_inside brackets_matchThreadLock threads.start_outside run, fun _ _ _ => uses_alone run,
    ucArrayId_at_tagMatch run, doorCycles_le_matches run⟩

end

section

variable {s : threads.State} {l : Label} {sh : Shared}

theorem match_moves {p : MatchPc} (edge : MatchStep (s.pc .matchThread) l p) (acts : l.effect s.shared sh) :
    threads.Step s (.matchThread, l) ⟨Function.update s.pc .matchThread p, sh⟩ := .move edge acts

theorem touch_moves {p : TouchPc} (edge : TouchStep (s.pc .touchThread) l p) (acts : l.effect s.shared sh) :
    threads.Step s (.touchThread, l) ⟨Function.update s.pc .touchThread p, sh⟩ := .move edge acts

theorem door_moves {p : DoorPc} (edge : DoorStep (s.pc .doorOpenThread) l p) (acts : l.effect s.shared sh) :
    threads.Step s (.doorOpenThread, l) ⟨Function.update s.pc .doorOpenThread p, sh⟩ := .move edge acts

end

/-- A card is read and matches, the door begins to open, and a touch waits for the lock. -/
def opened : List (Thread × Label) :=
  [(.touchThread, .tau), (.touchThread, .tau), (.doorOpenThread, .take .doorOpenThreadLock),
    (.matchThread, .release .doorOpenThreadLock), (.matchThread, .tagMatch ![1, 2, 3, 4] 1),
    (.matchThread, .pcdAnticoll (some ![1, 2, 3, 4]) true), (.matchThread, .pcdRequest (some (4, 0))),
    (.matchThread, .take .matchThreadLock)]

theorem opened_run : ∃ s, Runs threads.Step threads.start opened s := by
  have idle : Runs threads.Step threads.start [] threads.start := .nil
  have taken := idle.snoc (match_moves .take ⟨by decide, rfl⟩)
  have asked := taken.snoc (match_moves (.readId (.found (4, 0))) rfl)
  have read := asked.snoc (match_moves (.readOk (.read ![1, 2, 3, 4])) rfl)
  have matched := read.snoc (match_moves (.matched _ ![1, 2, 3, 4]) ⟨rfl, rfl⟩)
  have released := matched.snoc (match_moves (.releaseDoor _) rfl)
  have begun := released.snoc (door_moves .take ⟨by decide, rfl⟩)
  exact ⟨_, (begun.snoc (touch_moves (.pressed .register) rfl)).snoc (touch_moves .beep rfl)⟩

theorem reader_lock_opened :
    ∃ s, Runs threads.Step threads.start opened s ∧ s.shared.value .matchThreadLock + insideCount Thread.inside s = 1 ∧
      opened.countP isDoorCycle ≤ opened.countP isMatch := by
  obtain ⟨s, run⟩ := opened_run
  exact ⟨s, run, (reader_lock run).1, (reader_lock run).2.2.2.2⟩

end DoorSecurity
