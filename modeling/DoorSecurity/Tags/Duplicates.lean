import DoorSecurity.Tags.AccessList

/-!
# Deleting a repeated ID

The search loop of `delete_registered_tag` zeroes every slot that holds the ID and
counts them all off, but the compaction loop closes one gap only, at the last of
them. The earlier gaps stay in the list as zero IDs and as many IDs drop off its
end, so a repeated ID is removed properly exactly when nothing but it and zero IDs
follow its first occurrence.
-/

namespace DoorSecurity
set_option autoImplicit false
open Bus Eeprom

section Gaps

variable {α : Type} [DecidableEq α]

/-- Every `a` replaced by `zero`, in place. -/
def blankOut (a zero : α) (l : List α) : List α := l.map fun u => if u = a then zero else u

/-- Only `a` and `zero` stand from the first `a` on. -/
def NothingAfter (a zero : α) (l : List α) : Prop := ∀ u ∈ l.dropWhile (· ≠ a), u = a ∨ u = zero

theorem blankOut_cons_self (a zero : α) (l : List α) : blankOut a zero (a :: l) = zero :: blankOut a zero l := by
  simp [blankOut]

theorem blankOut_cons_ne {a u : α} (ne : u ≠ a) (zero : α) (l : List α) : blankOut a zero (u :: l) = u :: blankOut a zero l := by
  simp [blankOut, ne]

/-- Behind a gap the list is one place late: if it still shows the filtered list, that is all zeros. -/
theorem zeros_of_late {a zero : α} (l : List α) :
    ∀ gaps, (List.replicate (gaps + 1) zero ++ blankOut a zero l).take (l.filter (· ≠ a)).length = l.filter (· ≠ a) →
      ∀ u ∈ l.filter (· ≠ a), u = zero := by
  induction l with
  | nil => intro gaps _ u mem; simp at mem
  | cons v l ih =>
    intro gaps late
    by_cases here : v = a
    · subst here
      rw [blankOut_cons_self, List.append_cons, ← List.replicate_succ'] at late
      simpa using ih (gaps + 1) (by simpa using late)
    · rw [blankOut_cons_ne here, List.filter_cons_of_pos (by simpa using here), List.length_cons, List.replicate_succ,
        List.cons_append, List.take_succ_cons] at late
      obtain ⟨rfl, rest⟩ := List.cons.inj late
      rw [List.append_cons, ← List.replicate_succ'] at rest
      rw [List.filter_cons_of_pos (by simpa using here)]
      exact List.forall_mem_cons.mpr ⟨rfl, ih gaps rest⟩

theorem blankOut_eq_replicate {a zero : α} {l : List α} (only : ∀ u ∈ l, u = a ∨ u = zero) :
    blankOut a zero l = List.replicate l.length zero := by
  apply List.eq_replicate_iff.mpr
  refine ⟨List.length_map _, fun u mem => ?_⟩
  obtain ⟨v, inside, rfl⟩ := List.mem_map.mp mem
  split
  · rfl
  · rename_i ne; exact (only v inside).resolve_left ne

/-- **The front of a blanked list is the filtered list** exactly when no `a` is in it or nothing
else follows the first one. -/
theorem take_blankOut_iff (a zero : α) (l : List α) :
    (blankOut a zero l).take (l.filter (· ≠ a)).length = l.filter (· ≠ a) ↔ a ∉ l ∨ NothingAfter a zero l := by
  induction l with
  | nil => simp [blankOut]
  | cons v l ih =>
    by_cases here : v = a
    · subst here
      rw [blankOut_cons_self, List.filter_cons_of_neg (by simp)]
      constructor
      · intro front
        right
        intro u mem
        rw [List.dropWhile_cons_of_neg (by simp)] at mem
        by_cases same : u = v
        · exact .inl same
        · have kept : u ∈ l.filter (· ≠ v) := by simpa [same] using mem
          exact .inr (zeros_of_late l 0 front u kept)
      · rintro (absent | only)
        · simp at absent
        · rw [NothingAfter, List.dropWhile_cons_of_neg (by simp)] at only
          have zeros : l.filter (· ≠ v) = List.replicate (l.filter (· ≠ v)).length zero := by
            apply List.eq_replicate_iff.mpr
            refine ⟨rfl, fun u mem => ?_⟩
            obtain ⟨inside, ne⟩ := List.mem_filter.mp mem
            exact (only u (List.mem_cons_of_mem v inside)).resolve_left (by simpa using ne)
          have short := List.length_filter_le (· ≠ v) l
          rw [blankOut_eq_replicate fun u mem => only u (List.mem_cons_of_mem v mem), ← List.replicate_succ,
            List.take_replicate, Nat.min_eq_left (by omega)]
          exact zeros.symm
    · rw [blankOut_cons_ne here, List.filter_cons_of_pos (by simpa using here), List.length_cons, List.take_succ_cons,
        NothingAfter, List.dropWhile_cons_of_pos (by simpa using here), List.mem_cons, not_or]
      simp only [List.cons.injEq, true_and, ih, NothingAfter, Ne.symm here, not_false_eq_true]

theorem count_add_filter_length (a : α) (l : List α) : l.count a + (l.filter (· ≠ a)).length = l.length := by
  rw [List.length_eq_countP_add_countP (· == a) (l := l), List.count, List.countP_eq_length_filter (l := l) (p := fun u => ¬ (u == a) = true)]
  simp

/-- The last `a` of a list is beside the point: its removal changes neither the filtered list nor,
with another `a` before it, what follows the first one. -/
theorem nothingAfter_split {a : α} {front back : List α} (last : a ∉ back) (zero : α) :
    (a ∉ front ++ back ∨ NothingAfter a zero (front ++ back)) ↔
      ((front ++ a :: back).count a = 1 ∨ NothingAfter a zero (front ++ a :: back)) := by
  have alone : (front ++ a :: back).count a = front.count a + 1 := by
    rw [List.count_append, List.count_cons_self, List.count_eq_zero.mpr last]
  by_cases inFront : a ∈ front
  · have many := List.count_pos_iff.mpr inFront
    have reached : (front.dropWhile (· ≠ a)).isEmpty = false := by
      rw [List.isEmpty_eq_false_iff, ne_eq, List.dropWhile_eq_nil_iff]
      exact fun passed => absurd rfl (of_decide_eq_true (passed a inFront))
    have once : ¬ front.count a + 1 = 1 := by omega
    rw [alone]
    simp only [NothingAfter, List.dropWhile_append, reached, List.mem_append, inFront, once, true_or, not_true, false_or]
    simp only [Bool.false_eq_true, if_false, List.mem_append, List.mem_cons]
    constructor
    · rintro only u (mem | rfl | mem)
      · exact only u (.inl mem)
      · exact .inl rfl
      · exact only u (.inr mem)
    · rintro only u (mem | mem)
      · exact only u (.inl mem)
      · exact only u (.inr (.inr mem))
  · have single : front.count a = 0 := List.count_eq_zero.mpr inFront
    apply iff_of_true
    · left
      rw [List.mem_append, not_or]
      exact ⟨inFront, last⟩
    · left
      rw [alone, single]

end Gaps

/-- What a deletion of every occurrence leaves. -/
def DeletesAll (m : Eeprom) (tagId : TagId) : Prop :=
  (at24c02.exec (deleteRegisteredTag tagId) m).1 = 1 ∧
    (at24c02.exec (deleteRegisteredTag tagId) m).2.get 0 = countByte (m.count - m.tags.count tagId) ∧
    (at24c02.exec (deleteRegisteredTag tagId) m).2.tags = m.tags.filter (· ≠ tagId)

variable {m : Eeprom} {tagId : TagId}

theorem slots_take {k n : Nat} (le : k ≤ n) : (m.slots n).take k = m.slots k := by
  apply List.ext_getElem
  · simp [le]
  · intro i _ _
    simp

theorem slots_clearMatches {n : Nat} (small : n ≤ 63) : (m.clearMatches tagId n).slots n = blankOut tagId 0 (m.slots n) := by
  apply List.ext_getElem
  · simp [blankOut]
  · intro i inside _
    rw [slots_length] at inside
    rw [slots_getElem, slot_clearMatches tagId small (by omega) (by omega)]
    simp only [blankOut, List.getElem_map, slots_getElem, show i + 1 ≤ n from inside, true_and]

/-- The list around the last occurrence. -/
theorem tags_split (present : tagId ∈ m.tags) :
    ∃ front back, m.tags = front ++ tagId :: back ∧ tagId ∉ back ∧
      m.tags.eraseIdx (m.lastMatch tagId m.count - 1) = front ++ back := by
  obtain ⟨lower, upper, hit, later⟩ := lastMatch_spec present
  set z := m.lastMatch tagId m.count
  have inside : z - 1 < m.tags.length := by
    rw [Eeprom.tags, slots_length]
    omega
  refine ⟨m.tags.take (z - 1), m.tags.drop z, ?_, ?_, ?_⟩
  · conv_lhs => rw [← List.take_append_drop (z - 1) m.tags, List.drop_eq_getElem_cons inside]
    simp only [Eeprom.tags, slots_getElem, Nat.sub_add_cancel lower, hit]
  · intro mem
    obtain ⟨i, hi, same⟩ := List.mem_iff_getElem.mp mem
    rw [List.length_drop, Eeprom.tags, slots_length] at hi
    rw [List.getElem_drop] at same
    simp only [Eeprom.tags, slots_getElem] at same
    exact later (z + i + 1) (by omega) (by omega) same
  · rw [List.eraseIdx_eq_take_drop_succ, Nat.sub_add_cancel lower]

/-- The list that a deletion leaves: the gaps are blanked, the last one is closed, and the count
cuts off as many entries as were blanked. -/
theorem tags_deleteRegisteredTag (small : m.count ≤ 62) (present : tagId ∈ m.tags) :
    (at24c02.exec (deleteRegisteredTag tagId) m).2.tags =
      (blankOut tagId 0 (m.tags.eraseIdx (m.lastMatch tagId m.count - 1))).take (m.count - m.tags.count tagId) := by
  obtain ⟨lower, upper, -, -⟩ := lastMatch_spec present
  have hit := List.count_pos_iff.mpr present
  rw [exec_deleteRegisteredTag m tagId small present]
  set t := (m.clearMatches tagId m.count).shiftDown (m.lastMatch tagId m.count) (m.count - m.lastMatch tagId m.count + 1)
  set k := m.count - m.tags.count tagId
  have kept : (t.set 0 (countByte k)).tags = t.slots k := by
    rw [Eeprom.tags, count_set_zero, countOf_countByte (by omega)]
    apply slots_congr
    intro j first last
    exact slot_set_zero first (by omega) _
  have shifted : t.slots (m.count - 1) = (blankOut tagId 0 m.tags).eraseIdx (m.lastMatch tagId m.count - 1) := by
    rw [slots_shiftDown small lower upper fun _ _ _ _ => rfl, slots_clearMatches (by omega)]
    rfl
  rw [kept, ← slots_take (show k ≤ m.count - 1 by omega), shifted, blankOut, List.eraseIdx_map]
  rfl

/-- **A deletion removes every occurrence exactly when** the ID occurs once or nothing but it and
zero IDs follow its first occurrence. -/
theorem deletesAll_iff (m : Eeprom) (tagId : TagId) (few : m.count ≤ 55) (present : tagId ∈ m.tags) :
    DeletesAll m tagId ↔ m.tags.count tagId = 1 ∨ ∀ u ∈ m.tags.dropWhile (· ≠ tagId), u = tagId ∨ u = 0 := by
  obtain ⟨front, back, split, last, erased⟩ := tags_split present
  have counted : m.count - m.tags.count tagId = ((front ++ back).filter (· ≠ tagId)).length := by
    have total := count_add_filter_length tagId m.tags
    rw [Eeprom.tags, slots_length, ← Eeprom.tags] at total
    rw [← total, Nat.add_sub_cancel_left, split, List.filter_append, List.filter_cons_of_neg (by simp), List.filter_append]
  have filtered : m.tags.filter (· ≠ tagId) = (front ++ back).filter (· ≠ tagId) := by
    rw [split, List.filter_append, List.filter_cons_of_neg (by simp), List.filter_append]
  have listed : DeletesAll m tagId ↔ (at24c02.exec (deleteRegisteredTag tagId) m).2.tags = m.tags.filter (· ≠ tagId) := by
    unfold DeletesAll
    rw [exec_deleteRegisteredTag m tagId (by omega) present]
    simp only [get_set_self, true_and]
  rw [listed, tags_deleteRegisteredTag (by omega) present, erased, counted, filtered, take_blankOut_iff,
    nothingAfter_split last, ← split]
  rfl

/-- A part that holds three IDs. -/
def threeCards (a b c : TagId) : Eeprom := (((Eeprom.blank.set 0 0x83).setSlot 1 a).setSlot 2 b).setSlot 3 c

set_option maxRecDepth 4096 in
/-- The first of three cards registered twice: its deletion leaves a zero ID and drops the other card. -/
theorem delete_twice_drops_last :
    let m := threeCards ![1, 2, 3, 4] ![1, 2, 3, 4] ![5, 6, 7, 8]
    m.get 0 = 0x83 ∧ m.tags = [![1, 2, 3, 4], ![1, 2, 3, 4], ![5, 6, 7, 8]] ∧
      (at24c02.exec (deleteRegisteredTag ![1, 2, 3, 4]) m).2.tags = [0] ∧ ¬ DeletesAll m ![1, 2, 3, 4] := by
  intro m
  have left : (at24c02.exec (deleteRegisteredTag ![1, 2, 3, 4]) m).2.tags = [0] := by
    rw [tags_deleteRegisteredTag (by decide) (by decide)]
    decide
  refine ⟨by decide, by decide, left, fun all => ?_⟩
  have same := left.symm.trans all.2.2
  exact absurd same (by decide)

set_option maxRecDepth 4096 in
theorem deletesAll_iff_trailing : DeletesAll (threeCards ![5, 6, 7, 8] ![1, 2, 3, 4] ![1, 2, 3, 4]) ![1, 2, 3, 4] := by
  have tags : (threeCards ![5, 6, 7, 8] ![1, 2, 3, 4] ![1, 2, 3, 4]).tags = [![5, 6, 7, 8], ![1, 2, 3, 4], ![1, 2, 3, 4]] := by decide
  apply (deletesAll_iff (threeCards ![5, 6, 7, 8] ![1, 2, 3, 4] ![1, 2, 3, 4]) ![1, 2, 3, 4] (by decide) (by decide)).mpr
  right
  rw [tags]
  simp

end DoorSecurity
