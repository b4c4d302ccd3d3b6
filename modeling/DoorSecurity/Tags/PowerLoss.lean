import DoorSecurity.Bus.Log
import DoorSecurity.Tags.AccessList

/-!
# Power loss during a list operation

Nothing makes the list operations atomic: `regist_tag` counts its slot before
filling it, and a deletion rewrites the slots byte by byte under the old count.
A power failure between two byte writes leaves one of the images listed by the
`cut_` lemmas; after the reboot `tag_match` accepts what the counted slots then
hold, which is a registered ID or what the cut left in the slots it had reached.
-/

namespace DoorSecurity
set_option autoImplicit false
open Bus Eeprom

variable {m t : Eeprom}

theorem cut_readOneByte_bind {α : Type} {a : Nat} (h : a < 256) {f : UInt8 → Code α} :
    at24c02.Cut (at24cxxReadOneByte a >>= f) m t ↔ at24c02.Cut (f (m.get a)) m t := by
  rw [at24cxxReadOneByte, Prog.get_bind, at24c02.cut_read, at24c02_read h]

theorem cut_writeOneByte_bind {α : Type} {a : Nat} (h : a < 256) {v : UInt8} {f : Unit → Code α} :
    at24c02.Cut (at24cxxWriteOneByte a v >>= f) m t ↔ t = m ∨ at24c02.Cut (f ()) (m.set a v) t := by
  rw [at24cxxWriteOneByte, Prog.put_bind, at24c02.cut_write, at24c02_write h]

theorem cut_readStoredTagId {j : Nat} (cut : at24c02.Cut (readStoredTagId j) m t) : t = m := by
  simpa only [readStoredTagId, at24cxxReadOneByte, Prog.get_bind, at24c02.cut_read, Prog.pure_eq, at24c02.cut_ret] using cut

/-- One byte is written or not. -/
theorem cut_writeOneByte {a : Nat} {v : UInt8} (cut : at24c02.Cut (at24cxxWriteOneByte a v) m t) :
    t = m ∨ t = (at24c02.exec (at24cxxWriteOneByte a v) m).2 := by
  rcases at24c02.cut_write.mp cut with start | done
  · exact .inl start
  · exact .inr (at24c02.cut_ret.mp done)

/-- A loop over the four bytes of a slot, one write a round, stops after some of them. -/
theorem cut_putBytes {j : Nat} {id : TagId} {body : Nat → Unit → Code Unit}
    (round : ∀ i, 0 ≤ i → i < 0 + 4 → at24c02.exec (body i ()) (m.putBytes j id i) = ((), m.putBytes j id (i + 1)))
    (byte : ∀ i (s t : Eeprom), at24c02.Cut (body i ()) s t → t = s ∨ t = (at24c02.exec (body i ()) s).2)
    (cut : at24c02.Cut (Prog.forLoop 0 4 () body) m t) : ∃ c, c ≤ 4 ∧ t = m.putBytes j id c := by
  rcases at24c02.cut_forLoop (fun _ => ()) (m.putBytes j id) rfl round cut with ⟨i, lower, upper, inside⟩ | finished
  · rcases byte i _ _ inside with before | after
    · exact ⟨i, by omega, before⟩
    · rw [round i lower upper] at after
      exact ⟨i + 1, by omega, after⟩
  · exact ⟨4, Nat.le_refl _, finished⟩

theorem cut_writeTagBytes {j : Nat} (first : 1 ≤ j) (last : j ≤ 63) (id : TagId) (cut : at24c02.Cut (writeTagBytes j id) m t) :
    ∃ c, c ≤ 4 ∧ t = m.putBytes j id c :=
  cut_putBytes (fun _ _ upper => exec_writeTagByte m first last upper id) (fun _ _ _ inside => cut_writeOneByte inside) cut

theorem cut_copyTag {j : Nat} (first : 1 ≤ j) (last : j ≤ 62)
    (cut : at24c02.Cut (Prog.forLoop 0 4 () fun y _ => copyTagByte (j + 1) j y) m t) :
    ∃ c, c ≤ 4 ∧ t = m.putBytes j (m.slot (j + 1)) c :=
  cut_putBytes (fun _ _ upper => exec_copyTagByte m first last upper)
    (fun _ _ _ inside => cut_writeOneByte (at24c02.cut_read.mp inside)) cut

/-- `regist_tag` cut: untouched, or counted with some bytes of its slot written. -/
theorem cut_registTag (id : TagId) (room : m.count < 56) (cut : at24c02.Cut (registTag id) m t) :
    t = m ∨ ∃ c, c ≤ 4 ∧ t = (m.set 0 (countByte (m.count + 1))).putBytes (m.count + 1) id c := by
  unfold registTag modCntTagAdd at cut
  rw [cut_readOneByte_bind (by omega)] at cut
  simp only [countOf_byte0, if_neg (show ¬ m.count + 1 > 56 by omega)] at cut
  rw [cut_writeOneByte_bind (by omega)] at cut
  rcases cut with before | counted
  · exact .inl before
  · right
    rcases at24c02.cut_bind counted with inside | finished
    · exact cut_writeTagBytes (by omega) (by omega) id inside
    · refine ⟨4, Nat.le_refl _, ?_⟩
      rw [at24c02.cut_ret.mp finished, exec_writeTagBytes _ (by omega) (by omega) id]
      rfl

/-- `DEL_ALL_TAG` cut: the slots before one zeroed, that one in part, or all done. -/
theorem cut_delAllTag (cut : at24c02.Cut delAllTag m t) :
    (∃ j c, 1 ≤ j ∧ j ≤ m.count ∧ c ≤ 4 ∧ t = (m.clearSlots (j - 1)).putBytes j 0 c) ∨
      t = m.clearSlots m.count ∨ t = (m.clearSlots m.count).set 0 0x80 := by
  have bound := m.count_lt
  unfold delAllTag modCntTagAdd at cut
  rw [cut_readOneByte_bind (by omega), countOf_byte0] at cut
  by_cases none : m.count = 0
  · rw [if_pos none] at cut
    right; left
    rw [none]
    exact at24c02.cut_ret.mp cut
  · rw [if_neg none] at cut
    have rounds := fun j (first : 1 ≤ j) (last : j < 1 + m.count) => exec_delAllRound m first (show j ≤ 63 by omega)
    have zeroed : at24c02.exec (Prog.forLoop 1 m.count () fun j _ => writeTagBytes j 0) m = ((), m.clearSlots m.count) :=
      at24c02.exec_forLoop (fun _ => ()) (fun j => m.clearSlots (j - 1)) rfl (by rw [Nat.add_sub_cancel_left]) rounds
    rcases at24c02.cut_bind_of zeroed cut with inside | finished
    · rcases at24c02.cut_forLoop (fun _ => ()) (fun j => m.clearSlots (j - 1)) rfl rounds inside with ⟨j, first, last, slot⟩ | zeroedAll
      · obtain ⟨c, hc, image⟩ := cut_writeTagBytes first (by omega) 0 slot
        exact .inl ⟨j, c, first, by omega, hc, image⟩
      · right; left
        rw [zeroedAll, Nat.add_sub_cancel_left]
    · right
      rw [cut_writeOneByte_bind (by omega)] at finished
      exact finished.imp_right fun done => at24c02.cut_ret.mp done

/-- The search loop cut: in the zeroing of a match, or over. -/
theorem cut_deleteSearch (id : TagId) {n : Nat} (small : n ≤ 63) (cut : at24c02.Cut (deleteSearch (idString id) n) m t) :
    (∃ j c, 1 ≤ j ∧ j ≤ n ∧ m.slot j = id ∧ c ≤ 4 ∧ t = (m.clearMatches id (j - 1)).putBytes j 0 c) ∨
      ∃ j, j ≤ n ∧ t = m.clearMatches id j := by
  rcases at24c02.cut_forLoop (searchAcc m id n) (fun j => m.clearMatches id (j - 1)) rfl
    (fun j first last => exec_deleteSearchRound m id first (by omega)) cut with ⟨j, first, last, inside⟩ | finished
  · have unread : (m.clearMatches id (j - 1)).slot j = m.slot j := by
      rw [slot_clearMatches id (by omega) (by omega) (by omega), if_neg (by omega)]
    unfold deleteSearchRound at inside
    rcases at24c02.cut_bind_of (exec_readStoredTagId _ first (by omega)) inside with reading | compared
    · exact .inr ⟨j - 1, by omega, cut_readStoredTagId reading⟩
    · rw [unread] at compared
      by_cases here : m.slot j = id
      · rw [if_pos (idString_inj.mpr here)] at compared
        rcases at24c02.cut_bind_of (exec_writeTagBytes _ first (by omega) 0) compared with slot | after
        · obtain ⟨c, hc, image⟩ := cut_writeTagBytes first (by omega) 0 slot
          exact .inl ⟨j, c, first, by omega, here, hc, image⟩
        · exact .inl ⟨j, 4, first, by omega, here, Nat.le_refl _, at24c02.cut_ret.mp after⟩
      · rw [if_neg (fun e => here (idString_inj.mp e))] at compared
        exact .inr ⟨j - 1, by omega, at24c02.cut_ret.mp compared⟩
  · exact .inr ⟨n, Nat.le_refl _, by rw [finished, Nat.add_sub_cancel_left]⟩

/-- The compaction loop cut: some slots moved down, the next one in part. -/
theorem cut_deleteCompact {cnt z : Nat} (hz : 1 ≤ z) (le : z ≤ cnt) (small : cnt ≤ 62) (cut : at24c02.Cut (deleteCompact cnt z) m t) :
    ∃ x c, z + x ≤ cnt ∧ c ≤ 4 ∧ t = (m.shiftDown z x).putBytes (z + x) ((m.shiftDown z x).slot (z + x + 1)) c := by
  rcases at24c02.cut_forLoop (fun _ => ()) (m.shiftDown z) rfl
    (fun x _ last => exec_copyTag (m.shiftDown z x) (by omega) (by omega)) cut with ⟨x, _, last, inside⟩ | finished
  · obtain ⟨c, hc, image⟩ := cut_copyTag (by omega) (by omega) inside
    exact ⟨x, c, by omega, hc, image⟩
  · exact ⟨cnt - z, 4, by omega, Nat.le_refl _, by rw [finished, Nat.zero_add]; rfl⟩

/-- `delete_registered_tag` of a present ID cut: in the search, in the compaction, or done. -/
theorem cut_deleteRegisteredTag (id : TagId) (small : m.count ≤ 62) (present : id ∈ m.tags)
    (cut : at24c02.Cut (deleteRegisteredTag id) m t) :
    (∃ j c, 1 ≤ j ∧ j ≤ m.count ∧ m.slot j = id ∧ c ≤ 4 ∧ t = (m.clearMatches id (j - 1)).putBytes j 0 c) ∨
    (∃ j, j ≤ m.count ∧ t = m.clearMatches id j) ∨
    (∃ x c, m.lastMatch id m.count + x ≤ m.count ∧ c ≤ 4 ∧
      t = ((m.clearMatches id m.count).shiftDown (m.lastMatch id m.count) x).putBytes (m.lastMatch id m.count + x)
        (((m.clearMatches id m.count).shiftDown (m.lastMatch id m.count) x).slot (m.lastMatch id m.count + x + 1)) c) ∨
    t = (at24c02.exec (deleteRegisteredTag id) m).2 := by
  have hit := List.count_pos_iff.mpr present
  have most : m.tags.count id ≤ m.count := (List.count_le_length).trans_eq (m.slots_length m.count)
  obtain ⟨lower, upper, -, -⟩ := lastMatch_spec present
  rw [exec_deleteRegisteredTag m id small present]
  unfold deleteRegisteredTag modCntTagAdd at cut
  rw [cut_readOneByte_bind (by omega)] at cut
  simp only [countOf_byte0, if_neg (show m.count ≠ 0 by omega)] at cut
  rcases at24c02.cut_bind_of (exec_deleteSearch m id (by omega)) cut with search | found
  · rcases cut_deleteSearch id (by omega) search with inside | finished
    · exact .inl inside
    · exact .inr (.inl finished)
  · right; right
    simp only [show m.slots m.count = m.tags from rfl, if_neg (show m.count - m.tags.count id ≠ m.count by omega)] at found
    rcases at24c02.cut_bind_of (exec_deleteCompact _ lower upper small) found with moving | moved
    · exact .inl (cut_deleteCompact lower upper small moving)
    · rw [cut_writeOneByte_bind (by omega)] at moved
      rcases moved with uncounted | counted
      · refine .inl ⟨m.count - m.lastMatch id m.count, 4, by omega, Nat.le_refl _, ?_⟩
        rw [uncounted]
        rfl
      · exact .inr (at24c02.cut_ret.mp counted)

/-- An absent ID: there is nothing to cut. -/
theorem cut_deleteRegisteredTag_absent (id : TagId) (absent : id ∉ m.tags) (cut : at24c02.Cut (deleteRegisteredTag id) m t) : t = m := by
  have bound := m.count_lt
  have none : (m.slots m.count).count id = 0 := List.count_eq_zero.mpr absent
  unfold deleteRegisteredTag modCntTagAdd at cut
  rw [cut_readOneByte_bind (by omega)] at cut
  simp only [countOf_byte0] at cut
  by_cases empty : m.count = 0
  · rw [if_pos empty] at cut
    exact at24c02.cut_ret.mp cut
  · rw [if_neg empty] at cut
    rcases at24c02.cut_bind_of (exec_deleteSearch m id (by omega)) cut with search | found
    · rcases cut_deleteSearch id (by omega) search with ⟨j, _, first, last, here, -⟩ | ⟨j, last, image⟩
      · exact absurd (mem_slots.mpr ⟨j, first, last, here⟩) absent
      · rw [image]
        apply clearMatches_of_absent
        intro listed
        obtain ⟨q, first, le, hit⟩ := mem_slots.mp listed
        exact absent (mem_slots.mpr ⟨q, first, by omega, hit⟩)
    · simp only [none, Nat.sub_zero, if_true, clearMatches_of_absent absent] at found
      exact at24c02.cut_ret.mp found

/-- The operations that change the list. -/
inductive ListOp where
  | regist (tagId : TagId)
  | delete (tagId : TagId)
  | delAll

def ListOp.code : ListOp → Code UInt8
  | .regist tagId => registTag tagId
  | .delete tagId => deleteRegisteredTag tagId
  | .delAll => delAllTag

/-- The contents that a cut of the operation can leave in a slot it was writing: the first
bytes of what it writes there, the last ones of what was there. -/
def ListOp.Torn (m : Eeprom) : ListOp → TagId → Prop
  | .regist tagId, u => ∃ c, c ≤ 4 ∧ u = splice c tagId (m.slot (m.count + 1))
  | .delete tagId, u =>
    tagId ∈ m.tags ∧ ((∃ c, c ≤ 4 ∧ u = splice c 0 tagId) ∨
      ∃ q c, m.lastMatch tagId m.count ≤ q ∧ q ≤ m.count ∧ c ≤ 4 ∧
        u = splice c (m.slot (q + 1)) (if q = m.lastMatch tagId m.count then 0 else m.slot q))
  | .delAll, u => ∃ tagId ∈ m.tags, ∃ c, c ≤ 4 ∧ u = splice c 0 tagId

/-- After a cut: a marked count, and counted slots that hold an old ID or torn content. -/
def Recoverable (op : ListOp) (m t : Eeprom) : Prop :=
  ∃ k, k < 64 ∧ t.get 0 = countByte k ∧ ∀ q, 1 ≤ q → q ≤ k → t.slot q ∈ m.tags ∨ op.Torn m (t.slot q)

theorem Recoverable.of_tags {l : AccessList TagId} {op : ListOp} (holds : Holds l t) (listed : ∀ id ∈ l.keys, id ∈ m.tags) :
    Recoverable op m t := by
  have bound := holds.bound
  refine ⟨l.keys.length, by omega, holds.byte0, fun q first last => .inl (listed _ ?_)⟩
  rw [← holds.tags]
  exact mem_slots.mpr ⟨q, first, by rw [holds.count]; exact last, rfl⟩

variable {l : AccessList TagId}

theorem Holds.byte0_count (holds : Holds l m) : m.get 0 = countByte m.count := by
  rw [holds.byte0, holds.count]

theorem recoverable_regist (holds : Holds l m) (room : m.count < 56) (id : TagId) (cut : at24c02.Cut (registTag id) m t) :
    Recoverable (.regist id) m t := by
  rcases cut_registTag id room cut with rfl | ⟨c, hc, rfl⟩
  · exact .of_tags holds fun id listed => holds.mem.mpr listed
  · refine ⟨m.count + 1, by omega, ?_, fun q first last => ?_⟩
    · rw [get_putBytes_outside (by omega) id (by omega) hc (by omega), get_set_self]
    · rcases Nat.lt_or_ge m.count q with new | old
      · obtain rfl : q = m.count + 1 := by omega
        right
        rw [slot_putBytes_self (by omega) id hc, slot_set_zero first (by omega)]
        exact ⟨c, hc, rfl⟩
      · left
        rw [slot_putBytes_ne (by omega) (by omega) (by omega) first (by omega) id hc, slot_set_zero first (by omega)]
        exact mem_slots.mpr ⟨q, first, old, rfl⟩

theorem recoverable_delAll (holds : Holds l m) (cut : at24c02.Cut delAllTag m t) : Recoverable .delAll m t := by
  have bound := m.count_lt
  have byte0 := holds.byte0_count
  have listed : ∀ q, 1 ≤ q → q ≤ m.count → m.slot q ∈ m.tags := fun q first last => mem_slots.mpr ⟨q, first, last, rfl⟩
  have zeroed : ∀ q, 1 ≤ q → q ≤ m.count → ListOp.delAll.Torn m 0 := fun q first last =>
    ⟨m.slot q, listed q first last, 4, Nat.le_refl _, (splice_four _ _).symm⟩
  rcases cut_delAllTag cut with ⟨j, c, first, last, hc, rfl⟩ | rfl | rfl
  · refine ⟨m.count, bound, ?_, fun q firstq lastq => ?_⟩
    · rw [get_putBytes_outside (by omega) 0 (by omega) hc (by omega), get_clearSlots_outside (by omega) (by omega) (.inl rfl), byte0]
    · by_cases here : q = j
      · subst here
        right
        rw [slot_putBytes_self (by omega) 0 hc, slot_clearSlots (by omega) first (by omega), if_neg (by omega)]
        exact ⟨m.slot q, listed q first last, c, hc, rfl⟩
      · rw [slot_putBytes_ne (by omega) (by omega) first firstq here 0 hc, slot_clearSlots (by omega) firstq (by omega)]
        split
        · exact .inr (zeroed q firstq lastq)
        · exact .inl (listed q firstq lastq)
  · refine ⟨m.count, bound, ?_, fun q firstq lastq => .inr ?_⟩
    · rw [get_clearSlots_outside (by omega) (by omega) (.inl rfl), byte0]
    · rw [slot_clearSlots (by omega) firstq (by omega), if_pos lastq]
      exact zeroed q firstq lastq
  · exact ⟨0, by omega, get_set_self _ _ _, fun q firstq lastq => by omega⟩

section Delete

variable {id : TagId}

/-- The IDs are distinct, so one slot holds this one. -/
theorem eq_lastMatch (holds : Holds l m) (present : id ∈ m.tags) {q : Nat} (first : 1 ≤ q) (last : q ≤ m.count) (same : m.slot q = id) :
    q = m.lastMatch id m.count := by
  obtain ⟨lower, upper, hit, -⟩ := lastMatch_spec present
  exact slot_inj holds.nodup first last lower upper (same.trans hit.symm)

/-- Cut in the zeroing of the match. -/
theorem recoverable_clearing (holds : Holds l m) (small : m.count ≤ 62) (present : id ∈ m.tags) {j c : Nat} (first : 1 ≤ j)
    (last : j ≤ m.count) (here : m.slot j = id) (hc : c ≤ 4) :
    Recoverable (.delete id) m ((m.clearMatches id (j - 1)).putBytes j 0 c) := by
  refine ⟨m.count, by omega, ?_, fun q firstq lastq => ?_⟩
  · rw [get_putBytes_outside (by omega) 0 (by omega) hc (by omega), get_clearMatches_outside id (by omega) (by omega) (.inl rfl),
      holds.byte0_count]
  · by_cases same : q = j
    · subst same
      refine .inr ⟨present, .inl ?_⟩
      rw [slot_putBytes_self (by omega) 0 hc, slot_clearMatches id (by omega) first (by omega), if_neg (by omega), here]
      exact ⟨c, hc, rfl⟩
    · left
      rw [slot_putBytes_ne (by omega) (by omega) first firstq same 0 hc, slot_clearMatches id (by omega) firstq (by omega), if_neg]
      · exact mem_slots.mpr ⟨q, firstq, lastq, rfl⟩
      · rintro ⟨-, other⟩
        have hq := eq_lastMatch holds present firstq lastq other
        have hj := eq_lastMatch holds present first last here
        omega

/-- Cut in the search, before or after the match. -/
theorem recoverable_cleared (holds : Holds l m) (small : m.count ≤ 62) (present : id ∈ m.tags) {j : Nat} (last : j ≤ m.count) :
    Recoverable (.delete id) m (m.clearMatches id j) := by
  refine ⟨m.count, by omega, ?_, fun q firstq lastq => ?_⟩
  · rw [get_clearMatches_outside id (by omega) (by omega) (.inl rfl), holds.byte0_count]
  · rw [slot_clearMatches id (by omega) firstq (by omega)]
    split
    · exact .inr ⟨present, .inl ⟨4, Nat.le_refl _, (splice_four _ _).symm⟩⟩
    · exact .inl (mem_slots.mpr ⟨q, firstq, lastq, rfl⟩)

/-- Cut in the compaction: slots before the cut have moved, those after it are as they were. -/
theorem recoverable_shifting (holds : Holds l m) (small : m.count ≤ 62) (present : id ∈ m.tags) {x c : Nat}
    (hx : m.lastMatch id m.count + x ≤ m.count) (hc : c ≤ 4) :
    Recoverable (.delete id) m
      (((m.clearMatches id m.count).shiftDown (m.lastMatch id m.count) x).putBytes (m.lastMatch id m.count + x)
        (((m.clearMatches id m.count).shiftDown (m.lastMatch id m.count) x).slot (m.lastMatch id m.count + x + 1)) c) := by
  obtain ⟨lower, upper, hit, -⟩ := lastMatch_spec present
  have only := fun q => eq_lastMatch (q := q) holds present
  set z := m.lastMatch id m.count with hz
  have unmatched : ∀ q, q ≠ z → 1 ≤ q → q ≤ 63 → (m.clearMatches id m.count).slot q = m.slot q := by
    intro q ne first hq
    rw [slot_clearMatches id (by omega) first hq, if_neg]
    rintro ⟨le, other⟩
    exact ne (only q first le other)
  refine ⟨m.count, by omega, ?_, fun q firstq lastq => ?_⟩
  · rw [get_putBytes_outside (by omega) _ (by omega) hc (by omega), get_shiftDown_outside lower (by omega) (by omega) (.inl (by omega)),
      get_clearMatches_outside id (by omega) (by omega) (.inl rfl), holds.byte0_count]
  · by_cases same : q = z + x
    · subst same
      refine .inr ⟨present, .inr ⟨z + x, c, by omega, hx, hc, ?_⟩⟩
      rw [slot_putBytes_self (by omega) _ hc, slot_shiftDown lower (by omega) (by omega) (by omega), if_neg (by omega),
        slot_shiftDown lower (by omega) (by omega) (by omega), if_neg (by omega), unmatched _ (by omega) (by omega) (by omega)]
      congr 1
      by_cases start : x = 0
      · subst start
        rw [slot_clearMatches id (by omega) firstq (by omega), if_pos ⟨lastq, hit⟩, if_pos (Nat.add_zero z)]
      · rw [unmatched _ (by omega) firstq (by omega), if_neg (by omega)]
    · left
      rw [slot_putBytes_ne (by omega) (by omega) (by omega) firstq same _ hc, slot_shiftDown lower (by omega) firstq (by omega)]
      split
      · rw [unmatched _ (by omega) (by omega) (by omega)]
        exact mem_slots.mpr ⟨q + 1, by omega, by omega, rfl⟩
      · rw [unmatched q (by omega) firstq (by omega)]
        exact mem_slots.mpr ⟨q, firstq, lastq, rfl⟩

theorem recoverable_delete (holds : Holds l m) (small : m.count ≤ 62) (id : TagId) (cut : at24c02.Cut (deleteRegisteredTag id) m t) :
    Recoverable (.delete id) m t := by
  by_cases present : id ∈ m.tags
  · rcases cut_deleteRegisteredTag id small present cut with
      ⟨j, c, first, last, here, hc, rfl⟩ | ⟨j, last, rfl⟩ | ⟨x, c, hx, hc, rfl⟩ | rfl
    · exact recoverable_clearing holds small present first last here hc
    · exact recoverable_cleared holds small present last
    · exact recoverable_shifting holds small present hx hc
    · refine .of_tags (holds.delete id) fun u listed => holds.mem.mpr ?_
      exact (AccessList.mem_delete.mp listed).2
  · rw [cut_deleteRegisteredTag_absent id present cut]
    exact .of_tags holds fun u listed => holds.mem.mpr listed

end Delete

/-- **What power loss can let in.** After any prefix of an operation's byte writes and a
reboot, every accepted ID was registered before or is content that the cut left in a slot
the operation was writing (for a registration, the new ID when all four bytes are there). -/
theorem accepted_after_power_loss (holds : Holds l m) (small : l.keys.length ≤ 55) (op : ListOp) (k : Nat) (u : TagId) :
    let t := (at24c02.exec at24cxxInit (at24c02.replay ((at24c02.writes op.code m).take k) m)).2
    (at24c02.exec (tagMatch u) t).1 = 1 → u ∈ l.keys ∨ op.Torn m u := by
  intro t accepted
  have count := holds.count
  have cut : at24c02.Cut op.code m (at24c02.replay ((at24c02.writes op.code m).take k) m) := ⟨k, rfl⟩
  have recoverable : Recoverable op m (at24c02.replay ((at24c02.writes op.code m).take k) m) := by
    cases op with
    | regist id => exact recoverable_regist holds (by omega) id cut
    | delete id => exact recoverable_delete holds (by omega) id cut
    | delAll => exact recoverable_delAll holds cut
  obtain ⟨n, hn, byte0, slots⟩ := recoverable
  have kept : t = at24c02.replay ((at24c02.writes op.code m).take k) m := by
    show (at24c02.exec at24cxxInit _).2 = _
    rw [exec_at24cxxInit, if_pos (by rw [byte0, countByte_marked hn])]
  rw [tagMatch_accepts, kept, Eeprom.tags, Eeprom.count, byte0, countOf_countByte hn] at accepted
  obtain ⟨q, first, last, rfl⟩ := mem_slots.mp accepted
  rw [← holds.mem]
  exact slots q first last

/-- A registration cut after four of its five writes. -/
theorem accepted_after_power_loss_regist :
    (![1, 2, 3, 0xFF] : TagId) ∈ (AccessList.empty : AccessList TagId).keys ∨
      (ListOp.regist ![1, 2, 3, 4]).Torn (Eeprom.blank.set 0 0x80) ![1, 2, 3, 0xFF] :=
  accepted_after_power_loss (Holds.empty_of (get_set_self _ _ _)) (by decide) (.regist ![1, 2, 3, 4]) 4 ![1, 2, 3, 0xFF] (by decide)

/-- Power lost after `regist_tag` has counted its slot: the blank slot's content is accepted. -/
theorem unwritten_slot_accepted :
    let m := Eeprom.blank.set 0 0x80
    Holds .empty m ∧
      (at24c02.exec (tagMatch fun _ => 0xFF)
        (at24c02.exec at24cxxInit (at24c02.replay ((at24c02.writes (registTag ![1, 2, 3, 4]) m).take 1) m)).2).1 = 1 ∧
      (fun _ => 0xFF : TagId) ∉ (AccessList.empty : AccessList TagId).keys ∧ (fun _ => 0xFF : TagId) ≠ ![1, 2, 3, 4] :=
  ⟨Holds.empty_of (get_set_self _ _ _), by decide, by decide, by decide⟩

end DoorSecurity
