import DoorSecurity.Bus.Interleave
import DoorSecurity.Tags.AccessList

/-!
# `DEL_ALL_TAG` beside the other threads

The threads that use the list exclude each other with `match_thread_lock`; the
shell command does not take it. Its transactions can then fall between the count
read and the count write of a registration or a deletion, which puts a stale
count back over the wiped slots, or between the byte reads of `tag_match`, which
sees IDs half zeroed. Outside these races the wipe and the other operation leave
what one after the other leaves; in a race of a registration on a list with room they never do.
-/

namespace DoorSecurity
set_option autoImplicit false
open Bus Eeprom

/-- The cell that holds byte 0. -/
def CountCell (x : BusAddr) : Prop := x.select = 0xA0 ∧ x.word % 256 = 0

/-- An access of one party, a read or a write, to such a cell. -/
def AccessTo (second write : Bool) (cell : BusAddr → Prop) (e : Access BusAddr) : Prop :=
  e.second = second ∧ e.write = write ∧ cell e.addr

/-- `DEL_ALL_TAG` after its count read. -/
def wipe (cnt : Nat) : Code UInt8 := do
  Prog.forLoop 1 cnt () fun j _ => writeTagBytes j 0
  at24cxxWriteOneByte modCntTagAdd (countByte 0)
  return 1

/-- `regist_tag` after its count read. -/
def registAt (tagId : TagId) (cnt : Nat) : Code UInt8 := do
  at24cxxWriteOneByte modCntTagAdd (countByte cnt)
  writeTagBytes cnt tagId
  return 1

/-- `delete_registered_tag` after the count read of a filled list. -/
def deleteAt (tagId : TagId) (cnt : Nat) : Code UInt8 := do
  let (k, z) ← deleteSearch (idString tagId) cnt
  if k = cnt then return 0 else do
    deleteCompact cnt z
    at24cxxWriteOneByte modCntTagAdd (countByte k)
    return 1

theorem registTag_eq (tagId : TagId) :
    registTag tagId = .read (busAddr 0) fun b => registAt tagId (if countOf b + 1 > 56 then 0 else countOf b + 1) := rfl

theorem deleteRegisteredTag_eq (tagId : TagId) :
    deleteRegisteredTag tagId = .read (busAddr 0) fun b => if countOf b = 0 then .ret 0 else deleteAt tagId (countOf b) := rfl

theorem tagMatch_eq (tagId : TagId) :
    tagMatch tagId = .read (busAddr 0) fun b => if countOf b = 0 then .ret 0 else tagMatchFrom (idString tagId) 1 (countOf b) := rfl

theorem delAllTag_eq : delAllTag = .read (busAddr 0) fun b => if countOf b = 0 then .ret 0 else wipe (countOf b) := rfl

/-- A program that zeroes slot bytes and then the count. -/
def Clears : Code UInt8 → Prop
  | .ret _ => False
  | .read _ _ => False
  | .write x v k => (x = busAddr 0 ∧ v = 0x80 ∧ k = .ret 1) ∨ ((∃ a, 0 < a ∧ a < 256 ∧ x = busAddr a) ∧ v = 0 ∧ Clears k)

theorem not_countCell {a : Nat} (positive : 0 < a) (ha : a < 256) : ¬ CountCell (busAddr a) := by
  rw [busAddr_of_lt ha]
  rintro ⟨-, zero⟩
  simp only at zero
  omega

theorem read_countCell (m : Eeprom) : at24c02.read m (busAddr 0) = m.get 0 := at24c02_read (by decide) m

theorem clears_forLoop {body : Nat → Unit → Code Unit} {n : Nat} :
    ∀ {lo : Nat} {r : Code UInt8}, (∀ i r, lo ≤ i → i < lo + n → Clears r → Clears (body i () >>= fun _ => r)) → Clears r →
      Clears (Prog.forLoop lo n () body >>= fun _ => r) := by
  induction n with
  | zero => intro lo r _ rest; exact rest
  | succ n ih =>
    intro lo r round rest
    rw [Prog.forLoop_succ, Prog.bind_assoc]
    exact round lo _ (Nat.le_refl _) (by omega) (ih (fun i r lower upper => round i r (by omega) (by omega)) rest)

theorem clears_wipe {n : Nat} (small : n ≤ 63) : Clears (wipe n) := by
  refine clears_forLoop (fun j r first last rest => clears_forLoop (fun i r _ upper rest => ?_) rest) (.inl ⟨rfl, by decide, rfl⟩)
  rw [uint16_slot first (by omega) (by omega)]
  exact .inr ⟨⟨4 * j - 3 + i, by omega, by omega, rfl⟩, rfl, rest⟩

variable {m s s' t : Eeprom} {p : Code UInt8} {q q' : Code UInt8} {log before : List (Access BusAddr)} {a b : UInt8}

theorem get_zero_write {x : BusAddr} {v : UInt8} (other : ¬ CountCell x) : (at24c02.write s x v).get 0 = s.get 0 := by
  unfold at24c02
  simp only
  split
  · rename_i select
    rw [get_set, if_neg]
    intro same
    exact other ⟨select, same.symm⟩
  · rfl

theorem get_zero_move {α : Type} {p p' : Code α} {w : Bool} {x : BusAddr} (move : at24c02.Move p s w x p' s') (quiet : w = true → ¬ CountCell x) :
    s'.get 0 = s.get 0 := by
  cases move with
  | read x k s => rfl
  | write x v k s => exact get_zero_write (quiet rfl)

/-- Byte 0 stays while nobody writes it. -/
theorem get_zero_of_quiet (run : at24c02.Interleaved p q s log a b t) (quiet : ∀ e ∈ log, e.write = true → ¬ CountCell e.addr) :
    t.get 0 = s.get 0 := by
  induction run with
  | done => rfl
  | first move rest ih =>
    rw [ih fun e mem => quiet e (by simp [mem]), get_zero_move move (quiet ⟨false, _, _⟩ (by simp))]
  | second move rest ih =>
    rw [ih fun e mem => quiet e (by simp [mem]), get_zero_move move (quiet ⟨true, _, _⟩ (by simp))]

/-- With the wipe over, byte 0 stays while the other party does not write it. -/
theorem get_zero_of_over (run : at24c02.Interleaved p q s log a b t) {r : UInt8} (ended : q = .ret r)
    (quiet : ¬ InOrder [AccessTo false true CountCell] log) : t.get 0 = s.get 0 := by
  subst ended
  refine get_zero_of_quiet run fun e mem write count => quiet (inOrder_singleton.mpr ⟨e, mem, ?_, write, count⟩)
  cases second : e.second with
  | false => rfl
  | true => exact False.elim (run.all_second (φ := fun _ _ => False) trivial e mem second)

/-- A wipe that is clearing ends with its count, unless the other party writes the count
after it. -/
theorem get_zero_of_clears (run : at24c02.Interleaved p q s log a b t) (clears : Clears q)
    (last : ¬ InOrder [AccessTo true true CountCell, AccessTo false true CountCell] log) : t.get 0 = 0x80 := by
  induction run with
  | done => exact False.elim clears
  | first move rest ih => exact ih clears fun found => last (found.cons _)
  | second move rest ih =>
    cases move with
    | read x k s => exact False.elim clears
    | write x v k s =>
      rcases clears with ⟨rfl, rfl, rfl⟩ | ⟨-, -, clears⟩
      · rw [get_zero_of_over rest rfl fun found => last (.hit ⟨rfl, rfl, by decide, by decide⟩ found)]
        exact get_set_self _ _ _
      · exact ih clears fun found => last (found.cons _)

/-- A wipe from its start empties the list beside any program that neither writes the count
after the wipe's count nor, having written it, again after the wipe has read it. -/
theorem count_of_wipe (run : at24c02.Interleaved p q s log a b t) (idle : q = delAllTag)
    (last : ¬ InOrder [AccessTo true true CountCell, AccessTo false true CountCell] log)
    (read : (s.count ≠ 0 ∧ ¬ InOrder [AccessTo false true CountCell, AccessTo true false CountCell, AccessTo false true CountCell] log) ∨
      ¬ InOrder [AccessTo true false CountCell, AccessTo false true CountCell] log) : t.count = 0 := by
  induction run with
  | done => exact nomatch idle.trans delAllTag_eq
  | @first p p' q s s' t w x log a b move rest ih =>
    have last' := fun found : InOrder _ log => last (found.cons _)
    by_cases write : w = true ∧ CountCell x
    · refine ih idle last' (.inr fun found => ?_)
      rcases read with ⟨-, twice⟩ | once
      · exact twice (.hit ⟨rfl, write.1, write.2⟩ found)
      · exact once (found.cons _)
    · apply ih idle last'
      have kept : s'.count = s.count := by
        unfold Eeprom.count
        rw [get_zero_move move fun isWrite count => write ⟨isWrite, count⟩]
      rw [kept]
      exact read.imp (fun h => ⟨h.1, fun found => h.2 (found.cons _)⟩) (fun h found => h (found.cons _))
  | @second p q q' s s' t w x log a b move rest ih =>
    subst idle
    rw [delAllTag_eq] at move
    cases move
    rw [read_countCell] at rest
    change at24c02.Interleaved p (if s.count = 0 then .ret 0 else wipe s.count) s log a b t at rest
    by_cases empty : s.count = 0
    · rw [if_pos empty] at rest
      rcases read with ⟨filled, -⟩ | once
      · exact absurd empty filled
      · unfold Eeprom.count at *
        rw [get_zero_of_over rest rfl fun found => once (.hit ⟨rfl, rfl, by decide, by decide⟩ found)]
        exact empty
    · rw [if_neg empty] at rest
      have bound := s.count_lt
      unfold Eeprom.count
      rw [get_zero_of_clears rest (clears_wipe (by omega)) fun found => last (found.cons _)]
      rfl

/-- Slot bytes are as they were, or zeroed by a write in the log. -/
def Partly (m : Eeprom) (before : List (Access BusAddr)) (s : Eeprom) : Prop :=
  ∀ a, 0 < a → a < 256 → s.get a = m.get a ∨ (s.get a = 0 ∧ (⟨true, true, busAddr a⟩ : Access BusAddr) ∈ before)

theorem Partly.append (partly : Partly m before s) (more : List (Access BusAddr)) : Partly m (before ++ more) s :=
  fun a positive ha => (partly a positive ha).imp_right fun zeroed => ⟨zeroed.1, List.mem_append_left _ zeroed.2⟩

/-- How far a wipe of `m` has come, beside a party that has written nothing. -/
inductive Wiping (m : Eeprom) (before : List (Access BusAddr)) : Code UInt8 → Eeprom → Prop
  | idle (unwritten : ∀ e ∈ before, ¬ AccessTo true true CountCell e) : Wiping m before delAllTag m
  | clearing {q : Code UInt8} {s : Eeprom} (unwritten : ∀ e ∈ before, ¬ AccessTo true true CountCell e) (filled : m.count ≠ 0) (clears : Clears q)
      (byte0 : s.get 0 = m.get 0) (partly : Partly m before s) : Wiping m before q s
  | finished (r : UInt8) {s : Eeprom} (empty : s.count = 0) (partly : Partly m before s) : Wiping m before (.ret r) s

theorem Wiping.partly (wiping : Wiping m before q s) : Partly m before s := by
  cases wiping with
  | idle => exact fun _ _ _ => .inl rfl
  | clearing _ _ _ _ partly => exact partly
  | finished _ _ partly => exact partly

theorem unwritten_append (unwritten : ∀ e ∈ before, ¬ AccessTo true true CountCell e) {e : Access BusAddr} (other : ¬ AccessTo true true CountCell e) :
    ∀ e' ∈ before ++ [e], ¬ AccessTo true true CountCell e' := by
  intro e' mem
  rcases List.mem_append.mp mem with old | new
  · exact unwritten e' old
  · rwa [List.mem_singleton.mp new]

/-- A read of the other party changes nothing. -/
theorem Wiping.read (wiping : Wiping m before q s) (x : BusAddr) : Wiping m (before ++ [⟨false, false, x⟩]) q s := by
  have other : ¬ AccessTo true true CountCell (⟨false, false, x⟩ : Access BusAddr) := by rintro ⟨⟨⟩, -⟩
  cases wiping with
  | idle unwritten => exact .idle (unwritten_append unwritten other)
  | clearing unwritten filled clears byte0 partly => exact .clearing (unwritten_append unwritten other) filled clears byte0 (partly.append _)
  | finished r empty partly => exact .finished r empty (partly.append _)

/-- **The wipe's step lemma.** -/
theorem Wiping.move {w : Bool} {x : BusAddr} (wiping : Wiping m before q s) (move : at24c02.Move q s w x q' s') :
    Wiping m (before ++ [⟨true, w, x⟩]) q' s' := by
  cases wiping with
  | idle unwritten =>
    rw [delAllTag_eq] at move
    cases move
    rw [read_countCell]
    change Wiping m _ (if m.count = 0 then .ret 0 else wipe m.count) m
    have bound := m.count_lt
    split
    · rename_i empty
      exact .finished 0 empty fun _ _ _ => .inl rfl
    · rename_i filled
      exact .clearing (unwritten_append unwritten (by rintro ⟨-, ⟨⟩, -⟩)) filled (clears_wipe (by omega)) rfl fun _ _ _ => .inl rfl
  | clearing unwritten filled clears byte0 partly =>
    cases move with
    | read x k s => exact False.elim clears
    | write x v k s =>
      rcases clears with ⟨rfl, rfl, rfl⟩ | ⟨⟨a, positive, ha, rfl⟩, rfl, clears⟩
      · refine .finished 1 ?_ fun a positive ha => ?_
        · rw [at24c02_write (by decide), count_set_zero]
          rfl
        · rw [at24c02_write (by decide), get_set_ne _ _ (by decide) ha (by omega)]
          exact partly.append _ a positive ha
      · rw [at24c02_write ha]
        refine .clearing (unwritten_append unwritten fun count => not_countCell positive ha count.2.2) filled clears ?_ fun a' positive' ha' => ?_
        · rw [get_set_ne _ _ ha (by decide) (by omega), byte0]
        · by_cases here : a' = a
          · subst here
            exact .inr ⟨get_set_self _ _ _, by simp⟩
          · rw [get_set_ne _ _ ha ha' here]
            exact partly.append _ a' positive' ha'
  | finished r empty partly => cases move

theorem Wiping.of_alone {more : List (Access BusAddr)} (wiping : Wiping m before q s) (alone : at24c02.Alone q s more q' s') :
    Wiping m (before ++ more) q' s' := by
  induction alone generalizing before with
  | stop => rwa [List.append_nil]
  | step move rest ih =>
    have later := ih (wiping.move move)
    rwa [List.append_assoc] at later

/-- Up to the other party's first transaction, its count read. -/
theorem wiping_at_count_read {k : UInt8 → Code UInt8} (run : at24c02.Interleaved p delAllTag m log a b t) (entry : p = .read (busAddr 0) k) :
    ∃ before q s after, Wiping m before q s ∧ log = before ++ ⟨false, false, busAddr 0⟩ :: after ∧
      (∀ e ∈ before, e.second = true) ∧ at24c02.Interleaved (k (s.get 0)) q s after a b t := by
  obtain ⟨before, q, s, after, alone, rfl, rest⟩ := run.before_read entry
  rw [read_countCell] at rest
  have idle : Wiping m [] delAllTag m := .idle (by simp)
  exact ⟨before, q, s, after, idle.of_alone alone, rfl, alone.second, rest⟩

/-- The wipe alone empties any store. -/
theorem count_delAllTag (m : Eeprom) : (at24c02.exec delAllTag m).2.count = 0 := by
  by_cases empty : m.count = 0
  · rw [exec_delAllTag_empty m empty]
    exact empty
  · rw [exec_delAllTag m empty, count_set_zero]
    rfl

theorem tags_of_count_zero (empty : m.count = 0) : m.tags = [] := by rw [tags, empty, slots_zero]

theorem tags_registTag_empty (empty : m.count = 0) (id : TagId) : (at24c02.exec (registTag id) m).2.tags = [id] := by
  have count : ((m.set 0 (countByte (m.count + 1))).setSlot (m.count + 1) id).count = 1 := by
    rw [setSlot, count_putBytes (by omega) (by omega) id (Nat.le_refl _), count_set_zero, empty]
    rfl
  rw [exec_registTag m id (by omega), tags, count, empty, slots_succ, slots_zero, slot_setSlot_self (by omega)]
  rfl

/-- The races of the count byte: the wipe's count between the other party's count read and a
count it writes, or the wipe's count read between two counts of the other party. -/
def CountRace (log : List (Access BusAddr)) : Prop :=
  InOrder [AccessTo false false CountCell, AccessTo true true CountCell, AccessTo false true CountCell] log ∨
    InOrder [AccessTo false true CountCell, AccessTo true false CountCell, AccessTo false true CountCell] log

theorem not_race_after {before after : List (Access BusAddr)} (apart : ¬ CountRace (before ++ ⟨false, false, busAddr 0⟩ :: after)) :
    ¬ InOrder [AccessTo true true CountCell, AccessTo false true CountCell] after ∧
      ¬ InOrder [AccessTo false true CountCell, AccessTo true false CountCell, AccessTo false true CountCell] after := by
  constructor
  · intro found
    have counted : AccessTo false false CountCell (⟨false, false, busAddr 0⟩ : Access BusAddr) := ⟨rfl, rfl, by decide, by decide⟩
    exact apart (.inl (InOrder.append_left (InOrder.hit counted found) before))
  · exact fun found => apart (.inr (InOrder.append_left (found.cons _) before))

theorem delete_beside_wipe (id : TagId) (run : at24c02.Interleaved (deleteRegisteredTag id) delAllTag m log a b t) (apart : ¬ CountRace log) :
    t.count = 0 := by
  obtain ⟨before, q, s, after, wiping, rfl, -, rest⟩ := wiping_at_count_read run (deleteRegisteredTag_eq id)
  obtain ⟨last, twice⟩ := not_race_after apart
  change at24c02.Interleaved (if s.count = 0 then .ret 0 else deleteAt id s.count) q s after a b t at rest
  cases wiping with
  | clearing _ _ clears =>
    unfold Eeprom.count
    rw [get_zero_of_clears rest clears last]
    rfl
  | idle =>
    by_cases empty : m.count = 0
    · refine count_of_wipe rest rfl last (.inr fun found => ?_)
      rw [if_pos empty] at rest
      obtain ⟨e, mem, mine, -⟩ := found.tail.exists_mem
      exact rest.all (φ := fun _ _ => False) trivial e mem mine
    · exact count_of_wipe rest rfl last (.inl ⟨empty, twice⟩)
  | finished r empty _ =>
    rw [if_pos empty] at rest
    obtain ⟨-, rfl⟩ := Prod.mk.inj (rest.first_alone rfl)
    exact empty

theorem exec_registAt_empty (empty : m.count = 0) (id : TagId) : at24c02.exec (registAt id 1) m = at24c02.exec (registTag id) m := by
  rw [registTag_eq, Device.exec_read, read_countCell, countOf_byte0, empty]
  rfl

/-- A registration that has read a count of zero, beside a wipe that has not begun: the wipe's
count read comes before or after the new count. -/
theorem regist_empty_beside_wipe (id : TagId) (run : at24c02.Interleaved (registAt id 1) delAllTag m log a b t) (empty : m.count = 0)
    (last : ¬ InOrder [AccessTo true true CountCell, AccessTo false true CountCell] log)
    (twice : ¬ InOrder [AccessTo false true CountCell, AccessTo true false CountCell, AccessTo false true CountCell] log) :
    t.tags = [] ∨ t.tags = [id] := by
  have whole := run
  simp only [registAt, at24cxxWriteOneByte, Prog.put_bind, modCntTagAdd] at run
  cases run with
  | first move rest =>
    cases move
    rw [at24c02_write (by decide)] at rest
    left
    apply tags_of_count_zero
    refine count_of_wipe rest rfl (fun found => last (found.cons _)) (.inl ⟨?_, fun found => twice (found.cons _)⟩)
    rw [count_set_zero]
    decide
  | second move rest =>
    rw [delAllTag_eq] at move
    cases move
    rw [read_countCell] at rest
    change at24c02.Interleaved (registAt id 1) (if m.count = 0 then .ret 0 else wipe m.count) m _ a b t at rest
    rw [if_pos empty] at rest
    right
    rw [← tags_registTag_empty empty id, ← exec_registAt_empty empty id, rest.first_alone rfl]

theorem regist_beside_wipe (id : TagId) (run : at24c02.Interleaved (registTag id) delAllTag m log a b t) (apart : ¬ CountRace log) :
    t.tags = [] ∨ t.tags = [id] := by
  obtain ⟨before, q, s, after, wiping, rfl, -, rest⟩ := wiping_at_count_read run (registTag_eq id)
  obtain ⟨last, twice⟩ := not_race_after apart
  have first : s.count = 0 → (if countOf (s.get 0) + 1 > 56 then 0 else countOf (s.get 0) + 1) = 1 := by
    intro empty
    rw [countOf_byte0, empty]
    rfl
  cases wiping with
  | clearing _ _ clears =>
    left
    apply tags_of_count_zero
    unfold Eeprom.count
    rw [get_zero_of_clears rest clears last]
    rfl
  | finished r empty _ =>
    right
    simp only [first empty] at rest
    rw [← tags_registTag_empty empty id, ← exec_registAt_empty empty id, rest.first_alone rfl]
  | idle =>
    by_cases empty : m.count = 0
    · simp only [first empty] at rest
      exact regist_empty_beside_wipe id rest empty last twice
    · left
      exact tags_of_count_zero (count_of_wipe rest rfl last (.inl ⟨empty, twice⟩))

/-- The transactions of a match after its count read: reads of slot bytes. -/
def SlotRead (write : Bool) (x : BusAddr) : Prop := write = false ∧ ∃ a, 0 < a ∧ a < 256 ∧ x = busAddr a

/-- What a slot read can answer beside a wipe: the byte of `m`, and zero where `loose`. -/
def SeenByte (m : Eeprom) (loose : Prop) (x : BusAddr) (v : UInt8) : Prop :=
  ∀ a, 0 < a → a < 256 → x = busAddr a → v = m.get a ∨ (loose ∧ v = 0)

theorem readStoredTagId_bind {α : Type} {j : Nat} (first : 1 ≤ j) (last : j ≤ 63) (f : List Char → Code α) :
    (readStoredTagId j >>= f) = .read (busAddr (4 * j - 3)) fun b0 => .read (busAddr (4 * j - 3 + 1)) fun b1 =>
      .read (busAddr (4 * j - 3 + 2)) fun b2 => .read (busAddr (4 * j - 3 + 3)) fun b3 => f (idString ![b0, b1, b2, b3]) := by
  rw [readStoredTagId_eq first (by omega)]
  rfl

theorem all_tagMatchFrom (target : List Char) (k : Nat) : ∀ j, 1 ≤ j → j + k ≤ 64 → (tagMatchFrom target j k).All SlotRead := by
  induction k with
  | zero => intro j _ _; trivial
  | succ k ih =>
    intro j first last
    rw [tagMatchFrom, readStoredTagId_bind first (by omega)]
    refine ⟨⟨rfl, _, by omega, by omega, rfl⟩, fun _ => ⟨⟨rfl, _, by omega, by omega, rfl⟩, fun _ => ⟨⟨rfl, _, by omega, by omega, rfl⟩,
      fun _ => ⟨⟨rfl, _, by omega, by omega, rfl⟩, fun _ => ?_⟩⟩⟩⟩
    beta_reduce
    split
    · trivial
    · exact ih (j + 1) (by omega) (by omega)

/-- A match that only ever reads bytes of the list, or zeros that are not in the ID, answers
for the list. -/
theorem answers_tagMatchFrom (m : Eeprom) (id : TagId) {loose : Prop} (proper : loose → ∀ i, id i ≠ 0) (k : Nat) : ∀ j, 1 ≤ j → j + k ≤ 64 →
    (∀ q, j ≤ q → q < j + k → m.slot q ∈ m.tags) →
    (tagMatchFrom (idString id) j k).Answers (SeenByte m loose) fun r => r = 1 → id ∈ m.tags := by
  induction k with
  | zero => rintro j _ _ _ ⟨⟩
  | succ k ih =>
    intro j first last listed
    rw [tagMatchFrom, readStoredTagId_bind first (by omega)]
    intro b0 seen0 b1 seen1 b2 seen2 b3 seen3
    show Prog.Answers _ _ (if idString ![b0, b1, b2, b3] = idString id then pure 1 else tagMatchFrom (idString id) (j + 1) k)
    by_cases here : (![b0, b1, b2, b3] : TagId) = id
    · rw [if_pos (by rw [here])]
      intro _
      have byte : ∀ v i, v = m.get (4 * j - 3 + i) ∨ (loose ∧ v = 0) → (∃ c : Fin 4, id c = v) → v = m.get (4 * j - 3 + i) := by
        rintro v i (read | ⟨isLoose, zero⟩) ⟨c, hc⟩
        · exact read
        · exact absurd (hc.trans zero) (proper isLoose c)
      have slot : m.slot j = id := by
        rw [← here]
        funext i
        fin_cases i
        · exact (byte b0 0 (seen0 _ (by omega) (by omega) rfl) ⟨0, by rw [← here]; rfl⟩).symm
        · exact (byte b1 1 (seen1 _ (by omega) (by omega) rfl) ⟨1, by rw [← here]; rfl⟩).symm
        · exact (byte b2 2 (seen2 _ (by omega) (by omega) rfl) ⟨2, by rw [← here]; rfl⟩).symm
        · exact (byte b3 3 (seen3 _ (by omega) (by omega) rfl) ⟨3, by rw [← here]; rfl⟩).symm
      exact slot ▸ listed j (Nat.le_refl _) (by omega)
    · rw [if_neg fun same => here (idString_inj.mp same)]
      exact ih (j + 1) (by omega) (by omega) fun q lower upper => listed q (by omega) (by omega)

/-- Slot reads beside a wipe answer bytes of the list, or zeros where the wipe has been. -/
theorem answers_beside_wipe {loose : Prop} {post : UInt8 → Prop} (run : at24c02.Interleaved p q s log a b t) :
    ∀ {before : List (Access BusAddr)}, Wiping m before q s → p.All SlotRead →
      (loose ∨ ∀ a, 0 < a → a < 256 →
        ¬ InOrder [AccessTo true true (· = busAddr a), AccessTo false false (· = busAddr a)] (before ++ log)) →
      p.Answers (SeenByte m loose) post → post a := by
  induction run with
  | done => exact fun _ _ _ answers => answers
  | @first p p' q s s' t w x log a b move rest ih =>
    intro before wiping reads uncleared answers
    have joined : before ++ ⟨false, w, x⟩ :: log = (before ++ [⟨false, w, x⟩]) ++ log := by simp
    cases move with
    | write x v k s => exact absurd reads.1.1 (by decide)
    | read x k s =>
      refine ih (wiping.read x) (reads.2 _) (by rwa [← joined]) (answers _ ?_)
      rintro a positive ha rfl
      rw [at24c02_read ha]
      rcases wiping.partly a positive ha with same | ⟨zero, cleared⟩
      · exact .inl same
      · rcases uncleared with isLoose | ordered
        · exact .inr ⟨isLoose, zero⟩
        · have here : InOrder [AccessTo false false (· = busAddr a)] ((⟨false, false, busAddr a⟩ : Access BusAddr) :: log) :=
            .hit ⟨rfl, rfl, rfl⟩ (inOrder_nil _)
          exact absurd (InOrder.of_mem cleared ⟨rfl, rfl, rfl⟩ here) (ordered a positive ha)
  | @second p q q' s s' t w x log a b move rest ih =>
    intro before wiping reads uncleared answers
    have joined : before ++ ⟨true, w, x⟩ :: log = (before ++ [⟨true, w, x⟩]) ++ log := by simp
    exact ih (wiping.move move) reads (by rwa [← joined]) answers

/-- The other operation beside the wipe. -/
inductive WipeRival where
  | regist (tagId : TagId)
  | delete (tagId : TagId)
  | tagMatch (tagId : TagId)

def WipeRival.code : WipeRival → Code UInt8
  | .regist tagId => registTag tagId
  | .delete tagId => deleteRegisteredTag tagId
  | .tagMatch tagId => DoorSecurity.tagMatch tagId

/-- The interleaving keeps clear of the races: for a match, an ID without a zero byte, an ID of
the list, or no slot byte read after the wipe has zeroed it. -/
def WipeRival.Apart (m : Eeprom) (log : List (Access BusAddr)) : WipeRival → Prop
  | .regist _ | .delete _ => ¬ CountRace log
  | .tagMatch tagId => (∀ i, tagId i ≠ 0) ∨ tagId ∈ m.tags ∨ ∀ a, 0 < a → a < 256 →
      ¬ InOrder [AccessTo true true (· = busAddr a), AccessTo false false (· = busAddr a)] log

/-- The list is the one that the two operations leave one after the other. -/
def SomeOrder (m : Eeprom) (code : Code UInt8) (t : Eeprom) : Prop :=
  t.tags = (at24c02.exec delAllTag (at24c02.exec code m).2).2.tags ∨ t.tags = (at24c02.exec code (at24c02.exec delAllTag m).2).2.tags

theorem someOrder_of_empty {code : Code UInt8} (empty : t.count = 0) : SomeOrder m code t :=
  .inl (by rw [tags_of_count_zero empty, tags_of_count_zero (count_delAllTag _)])

/-- A match writes nothing, so the wipe beside it wins. -/
theorem tagMatch_beside_wipe (id : TagId) (run : at24c02.Interleaved (tagMatch id) delAllTag m log a b t) : t.count = 0 := by
  have reads : (tagMatch id).All fun w _ => w = false := by
    rw [tagMatch_eq]
    refine ⟨rfl, fun v => ?_⟩
    show Prog.All _ (if countOf v = 0 then .ret 0 else tagMatchFrom (idString id) 1 (countOf v))
    have small := countOf_lt v
    split
    · trivial
    · have slots := all_tagMatchFrom (idString id) (countOf v) 1 (Nat.le_refl _) (by omega)
      exact slots.mono fun w x read => read.1
  have silent : ∀ φ : Access BusAddr → Prop, ¬ InOrder [φ, AccessTo false true CountCell] log := by
    intro φ found
    obtain ⟨e, mem, mine, write, -⟩ := found.tail.exists_mem
    have read := run.all reads e mem mine
    rw [write] at read
    contradiction
  exact count_of_wipe run rfl (silent _) (.inr (silent _))

/-- A match that returns 1 read the count before the wipe wrote it, and accepted an ID of the
list. -/
theorem accepted_beside_wipe (id : TagId) (run : at24c02.Interleaved (tagMatch id) delAllTag m log a b t)
    (apart : (WipeRival.tagMatch id).Apart m log) (accepted : a = 1) :
    id ∈ m.tags ∧ ¬ InOrder [AccessTo true true CountCell, AccessTo false false CountCell] log := by
  obtain ⟨before, q, s, after, wiping, rfl, second, rest⟩ := wiping_at_count_read run (tagMatch_eq id)
  change at24c02.Interleaved (if s.count = 0 then .ret 0 else tagMatchFrom (idString id) 1 s.count) q s after a b t at rest
  have bound := s.count_lt
  by_cases empty : s.count = 0
  · rw [if_pos empty] at rest
    rw [rest.first_result rfl] at accepted
    exact absurd accepted (by decide)
  · rw [if_neg empty] at rest
    have reads := all_tagMatchFrom (idString id) s.count 1 (Nat.le_refl _) (by omega)
    -- the list was still in force at the count read
    have inForce : s.count = m.count ∧ ∀ e ∈ before, ¬ AccessTo true true CountCell e := by
      cases wiping with
      | idle unwritten => exact ⟨rfl, unwritten⟩
      | clearing unwritten _ _ byte0 _ => exact ⟨by unfold Eeprom.count; rw [byte0], unwritten⟩
      | finished r zero _ => exact absurd zero empty
    constructor
    · rcases apart with proper | listed | ordered
      · have answers := answers_tagMatchFrom m id (fun _ : True => proper) s.count 1 (Nat.le_refl _) (by omega)
          fun q lower upper => mem_slots.mpr ⟨q, lower, by omega, rfl⟩
        exact answers_beside_wipe rest (wiping.read (busAddr 0)) reads (.inl trivial) answers accepted
      · exact listed
      · have answers := answers_tagMatchFrom m id False.elim s.count 1 (Nat.le_refl _) (by omega)
          fun q lower upper => mem_slots.mpr ⟨q, lower, by omega, rfl⟩
        refine answers_beside_wipe rest (wiping.read (busAddr 0)) reads (.inr fun a positive ha => ?_) answers accepted
        rw [List.append_assoc]
        exact ordered a positive ha
    · intro found
      rcases InOrder.of_append inForce.2 found with ⟨⟨mine, -⟩, -⟩ | later
      · contradiction
      · obtain ⟨e, mem, mine, -, count⟩ := later.tail.exists_mem
        obtain ⟨-, a, positive, ha, here⟩ := rest.all reads e mem mine
        rw [here] at count
        exact not_countCell positive ha count

theorem someOrder_regist (id : TagId) (run : at24c02.Interleaved (registTag id) delAllTag m log a b t) (apart : ¬ CountRace log) :
    SomeOrder m (registTag id) t := by
  rcases regist_beside_wipe id run apart with empty | single
  · exact .inl (by rw [empty, tags_of_count_zero (count_delAllTag _)])
  · exact .inr (by rw [single]; exact (tags_registTag_empty (count_delAllTag m) id).symm)

section Stale

variable {v : UInt8} {p' : Code UInt8}

/-- No count is written. -/
def CountFree : Bool → BusAddr → Prop := fun write x => write = true → ¬ CountCell x

theorem not_written_of_countFree (run : at24c02.Interleaved p q s log a b t) (quiet : p.All CountFree) : ¬ InOrder [AccessTo false true CountCell] log := by
  intro found
  obtain ⟨e, mem, mine, write, count⟩ := found.exists_mem
  exact run.all quiet e mem mine write count

/-- A count that comes after the wipe's end stays. -/
theorem get_zero_of_last (run : at24c02.Interleaved p q s log a b t) {r : UInt8} (entry : p = .write (busAddr 0) v p') (quiet : p'.All CountFree)
    (ended : q = .ret r) : t.get 0 = v := by
  subst entry ended
  cases run with
  | first move rest =>
    cases move
    rw [get_zero_of_over rest rfl (not_written_of_countFree rest quiet), at24c02_write (by decide)]
    exact get_set_self _ _ _
  | second move rest => cases move

/-- **A count that the other party writes after the wipe's** is the one that stays, and the wipe had found tags. -/
theorem get_zero_of_stale (run : at24c02.Interleaved p q s log a b t) (entry : p = .write (busAddr 0) v p') (quiet : p'.All CountFree)
    (wipes : q = delAllTag ∨ Clears q) (late : InOrder [AccessTo true true CountCell, AccessTo false true CountCell] log) :
    t.get 0 = v ∧ (q = delAllTag → s.count ≠ 0) := by
  induction run with
  | done => cases entry
  | first move rest =>
    subst entry
    cases move
    rcases late with ⟨⟨⟨⟩, -⟩, -⟩ | late
    exact absurd late.tail (not_written_of_countFree rest quiet)
  | @second p q q' s s' t w x log a b move rest ih =>
    rcases wipes with rfl | clears
    · rw [delAllTag_eq] at move
      cases move
      rw [read_countCell] at rest ih
      rcases late with ⟨⟨-, ⟨⟩, -⟩, -⟩ | late
      change at24c02.Interleaved p (if s.count = 0 then .ret 0 else wipe s.count) s log a b t at rest
      by_cases empty : s.count = 0
      · rw [if_pos empty] at rest
        obtain ⟨e, mem, theirs, -⟩ := late.exists_mem
        exact False.elim (rest.all_second (φ := fun _ _ => False) trivial e mem theirs)
      · have bound := s.count_lt
        have clears : Clears (if s.count = 0 then .ret 0 else wipe s.count) := by
          rw [if_neg empty]
          exact clears_wipe (by omega)
        exact ⟨(ih entry (.inr clears) late).1, fun _ => empty⟩
    · refine ⟨?_, fun idle => ?_⟩
      · cases move with
        | read x k s => exact False.elim clears
        | write x w k s =>
          rcases clears with ⟨rfl, rfl, rfl⟩ | ⟨⟨a, positive, ha, rfl⟩, rfl, clears⟩
          · exact get_zero_of_last rest entry quiet rfl
          · rcases late with ⟨⟨-, -, count⟩, -⟩ | late
            · exact absurd count (not_countCell positive ha)
            · exact (ih entry (.inr clears) late).1
      · subst idle
        exact False.elim clears

/-- A party that writes one count only. -/
theorem not_twice (run : at24c02.Interleaved p q s log a b t) (entry : p = .write (busAddr 0) v p') (quiet : p'.All CountFree) :
    ¬ InOrder [AccessTo false true CountCell, AccessTo true false CountCell, AccessTo false true CountCell] log := by
  induction run with
  | done => cases entry
  | first move rest =>
    subst entry
    cases move
    have none := not_written_of_countFree rest quiet
    rintro (⟨-, later⟩ | later)
    · exact none later.tail
    · exact none later.tail.tail
  | second move rest ih =>
    rintro (⟨⟨⟨⟩, -⟩, -⟩ | later)
    exact ih entry later

theorem quiet_slot {c : Nat} (first : 1 ≤ c) (last : c ≤ 63) (id : TagId) :
    Prog.All CountFree (writeTagBytes c id >>= fun _ => (.ret 1 : Code UInt8)) := by
  have slot : ∀ i : Nat, i < 4 → ¬ CountCell (busAddr (uint16 (tagStoredBaseAdd c + i))) := by
    intro i inside
    rw [uint16_slot first (by omega) inside]
    exact not_countCell (by omega) (by omega)
  exact ⟨fun _ => slot 0 (by decide), fun _ => slot 1 (by decide), fun _ => slot 2 (by decide), fun _ => slot 3 (by decide), trivial⟩

/-- In a race with a registration on a list with room, the wipe has found tags and the stale count stays. -/
theorem stale_of_race (id : TagId) (room : m.count < 56) (run : at24c02.Interleaved (registTag id) delAllTag m log a b t) (race : CountRace log) :
    m.count ≠ 0 ∧ t.get 0 = countByte (m.count + 1) := by
  obtain ⟨before, q, s, after, wiping, rfl, theirs, rest⟩ := wiping_at_count_read run (registTag_eq id)
  have absent (write : Bool) (e : Access BusAddr) (mem : e ∈ before) : ¬ AccessTo false write CountCell e :=
    fun mine => Bool.false_ne_true (mine.1.symm.trans (theirs e mem))
  have fewer : s.count ≤ m.count := by
    cases wiping with
    | idle => exact Nat.le_refl _
    | clearing _ _ _ byte0 => exact le_of_eq (congrArg countOf byte0)
    | finished r empty => exact empty.le.trans (Nat.zero_le _)
  have start : registAt id (if countOf (s.get 0) + 1 > 56 then 0 else countOf (s.get 0) + 1) =
      .write (busAddr 0) (countByte (s.count + 1)) (writeTagBytes (s.count + 1) id >>= fun _ => .ret 1) := by
    rw [countOf_byte0, if_neg (by omega)]
    rfl
  have quiet := quiet_slot (c := s.count + 1) (by omega) (by omega) id
  have late : InOrder [AccessTo true true CountCell, AccessTo false true CountCell] after := by
    rcases race with found | found
    · rcases InOrder.of_append (absent false) found with ⟨-, late⟩ | later
      · exact late
      · exact later.tail
    · rcases InOrder.of_append (absent true) found with ⟨⟨-, ⟨⟩, -⟩, -⟩ | later
      exact absurd later (not_twice rest start quiet)
  cases wiping with
  | idle =>
    obtain ⟨stays, filled⟩ := get_zero_of_stale rest start quiet (.inl rfl) late
    exact ⟨filled rfl, stays⟩
  | clearing _ filled clears byte0 =>
    have same : s.count = m.count := congrArg countOf byte0
    rw [← same]
    exact ⟨same ▸ filled, (get_zero_of_stale rest start quiet (.inr clears) late).1⟩
  | finished r =>
    obtain ⟨e, mem, theirs, -⟩ := late.exists_mem
    exact False.elim (rest.all_second (φ := fun _ _ => False) trivial e mem theirs)

/-- **The condition is exact for a registration on a list with room**: in each of its races the stale
count brings wiped slots back. -/
theorem regist_someOrder_iff (id : TagId) (room : m.count < 56) (run : at24c02.Interleaved (registTag id) delAllTag m log a b t) :
    SomeOrder m (registTag id) t ↔ ¬ CountRace log := by
  refine ⟨fun sequential race => ?_, someOrder_regist id run⟩
  obtain ⟨filled, stale⟩ := stale_of_race id room run race
  have length : t.tags.length = m.count + 1 := by
    rw [Eeprom.tags, slots_length, Eeprom.count, stale, countOf_countByte (by omega)]
  rcases sequential with empty | single
  · rw [empty, tags_of_count_zero (count_delAllTag _)] at length
    exact absurd length (by simp)
  · rw [single, tags_registTag_empty (count_delAllTag m) id, List.length_singleton] at length
    omega

end Stale

/-- **The wipe beside another operation**, in every interleaving that keeps clear of the
races: the list is that of one after the other, and `tag_match` returns 1 only for an ID
that was registered when the call read the count. -/
theorem wipe_beside_rival {l : AccessList TagId} (holds : Holds l m) (rival : WipeRival)
    (run : at24c02.Interleaved rival.code delAllTag m log a b t) (apart : rival.Apart m log) :
    SomeOrder m rival.code t ∧ ∀ id, rival = .tagMatch id → a = 1 →
      id ∈ l.keys ∧ ¬ InOrder [AccessTo true true CountCell, AccessTo false false CountCell] log := by
  cases rival with
  | regist id => exact ⟨someOrder_regist id run apart, fun _ other => nomatch other⟩
  | delete id => exact ⟨someOrder_of_empty (delete_beside_wipe id run apart), fun _ other => nomatch other⟩
  | tagMatch id =>
    refine ⟨someOrder_of_empty (tagMatch_beside_wipe id run), ?_⟩
    rintro _ ⟨⟩ accepted
    obtain ⟨listed, inForce⟩ := accepted_beside_wipe id run apart accepted
    exact ⟨holds.mem.mp listed, inForce⟩

theorem wipe_beside_rival_oneCard :
    ∃ log a b t, at24c02.Interleaved (tagMatch ![9, 9, 9, 9]) delAllTag oneCard log a b t ∧ SomeOrder oneCard (tagMatch ![9, 9, 9, 9]) t := by
  have run := Device.interleaved_of_schedule (d := at24c02) (p := tagMatch ![9, 9, 9, 9]) (q := delAllTag) (s := oneCard)
    [false, true, false, true, true, false, true, true, false, true, false] rfl
  exact ⟨_, _, _, _, run, (wipe_beside_rival oneCard_holds (.tagMatch ![9, 9, 9, 9]) run (.inl (by decide))).1⟩

/-- A registration that has read the count 1 and goes on after a whole wipe: two tags come
back, one of them 00000000. -/
theorem stale_count_restores_slots :
    ∃ log a b t, at24c02.Interleaved (registTag ![5, 6, 7, 8]) delAllTag oneCard log a b t ∧
      t.tags = [0, ![5, 6, 7, 8]] ∧ ¬ SomeOrder oneCard (registTag ![5, 6, 7, 8]) t := by
  have run := Device.interleaved_of_schedule (d := at24c02) (p := registTag ![5, 6, 7, 8]) (q := delAllTag) (s := oneCard)
    (false :: List.replicate 6 true ++ List.replicate 5 false) rfl
  refine ⟨_, _, _, _, run, by decide, ?_⟩
  unfold SomeOrder
  decide

end DoorSecurity
