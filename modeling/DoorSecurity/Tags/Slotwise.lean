import DoorSecurity.Tags.Functions

/-!
# The list functions, slot by slot

Each function of `Tags/Functions.lean` on a part that acknowledges every
transaction, as an update of whole slots and of the count byte. No validity of
the store is assumed beyond the count staying inside the device, so repeated
IDs and stale slots are covered.
-/

namespace DoorSecurity
set_option autoImplicit false
open Bus

namespace Eeprom

variable (m : Eeprom)

/-- The `n` slots from `j` on. -/
def slotsFrom (j n : Nat) : List TagId := (List.range' j n).map m.slot

/-- The first `n` slots. -/
def slots (n : Nat) : List TagId := m.slotsFrom 1 n

/-- The tag list: as many slots as byte 0 counts. -/
def tags : List TagId := m.slots m.count

@[simp] theorem slots_length (n : Nat) : (m.slots n).length = n := by simp [slots, slotsFrom]

@[simp] theorem slots_getElem (n i : Nat) (h : i < (m.slots n).length) : (m.slots n)[i] = m.slot (i + 1) := by
  simp [slots, slotsFrom, Nat.add_comm]

@[simp] theorem slots_zero : m.slots 0 = [] := rfl

theorem slotsFrom_cons (j n : Nat) : m.slotsFrom j (n + 1) = m.slot j :: m.slotsFrom (j + 1) n := by
  simp [slotsFrom, List.range'_succ]

theorem slots_succ (n : Nat) : m.slots (n + 1) = m.slots n ++ [m.slot (n + 1)] := by
  simp [slots, slotsFrom, List.range'_1_concat, Nat.add_comm]

variable {m}

theorem mem_slots {n : Nat} {id : TagId} : id ∈ m.slots n ↔ ∃ j, 1 ≤ j ∧ j ≤ n ∧ m.slot j = id := by
  simp only [slots, slotsFrom, List.mem_map, List.mem_range'_1]
  constructor
  · rintro ⟨j, ⟨first, last⟩, hit⟩; exact ⟨j, first, by omega, hit⟩
  · rintro ⟨j, first, last, hit⟩; exact ⟨j, ⟨first, by omega⟩, hit⟩

theorem slots_congr {m' : Eeprom} {n : Nat} (same : ∀ j, 1 ≤ j → j ≤ n → m.slot j = m'.slot j) : m.slots n = m'.slots n := by
  apply List.map_congr_left
  intro j hj
  have range := List.mem_range'_1.mp hj
  exact same j range.1 (by omega)

variable (m)

/-- The slots among the first `n` that hold `id`, zeroed. -/
def clearMatches (id : TagId) : Nat → Eeprom
  | 0 => m
  | n + 1 => if m.slot (n + 1) = id then (clearMatches id n).setSlot (n + 1) 0 else clearMatches id n

/-- The first `n` slots zeroed. -/
def clearSlots : Nat → Eeprom
  | 0 => m
  | n + 1 => (clearSlots n).setSlot (n + 1) 0

/-- The last of the first `n` slots that holds `id`, zero without one. -/
def lastMatch (id : TagId) : Nat → Nat
  | 0 => 0
  | n + 1 => if m.slot (n + 1) = id then n + 1 else lastMatch id n

/-- `x` slots from `z` on, each overwritten with its successor. -/
def shiftDown (z : Nat) : Nat → Eeprom
  | 0 => m
  | x + 1 => (shiftDown z x).setSlot (z + x) ((shiftDown z x).slot (z + x + 1))

variable {m}

theorem slot_clearMatches (id : TagId) {n q : Nat} (hn : n ≤ 63) (first : 1 ≤ q) (hq : q ≤ 63) :
    (m.clearMatches id n).slot q = if q ≤ n ∧ m.slot q = id then 0 else m.slot q := by
  induction n with
  | zero => rw [if_neg (by omega)]; rfl
  | succ n ih =>
    have ih := ih (by omega)
    unfold clearMatches
    by_cases here : q = n + 1
    · subst here
      split
      · rename_i h; rw [slot_setSlot_self hq, if_pos ⟨Nat.le_refl _, h⟩]
      · rename_i h; rw [ih, if_neg (by omega), if_neg (fun c => h c.2)]
    · have rest : (m.clearMatches id n).slot q = if q ≤ n + 1 ∧ m.slot q = id then 0 else m.slot q := by
        rw [ih]; congr 1; simp only [eq_iff_iff]; constructor <;> rintro ⟨h, e⟩ <;> exact ⟨by omega, e⟩
      split
      · rw [slot_setSlot_ne hn hq (by omega) first here, rest]
      · exact rest

theorem get_clearMatches_outside (id : TagId) {n a : Nat} (hn : n ≤ 63) (ha : a < 256)
    (outside : a = 0 ∨ 4 * n < a) : (m.clearMatches id n).get a = m.get a := by
  induction n with
  | zero => rfl
  | succ n ih =>
    unfold clearMatches
    split
    · rw [get_setSlot_outside (by omega) hn 0 ha (by omega)]; exact ih (by omega) (by omega)
    · exact ih (by omega) (by omega)

theorem clearMatches_of_absent {id : TagId} {n : Nat} (absent : id ∉ m.slots n) : m.clearMatches id n = m := by
  induction n with
  | zero => rfl
  | succ n ih =>
    rw [slots_succ, List.mem_append, List.mem_singleton] at absent
    unfold clearMatches
    rw [if_neg (fun h => absent (.inr h.symm)), ih (fun h => absent (.inl h))]

theorem get_clearSlots_outside {n a : Nat} (hn : n ≤ 63) (ha : a < 256) (outside : a = 0 ∨ 4 * n < a) :
    (m.clearSlots n).get a = m.get a := by
  induction n with
  | zero => rfl
  | succ n ih =>
    unfold clearSlots
    rw [get_setSlot_outside (by omega) hn 0 ha (by omega)]
    exact ih (by omega) (by omega)

theorem slot_clearSlots {n q : Nat} (hn : n ≤ 63) (first : 1 ≤ q) (hq : q ≤ 63) :
    (m.clearSlots n).slot q = if q ≤ n then 0 else m.slot q := by
  induction n with
  | zero => rw [if_neg (by omega)]; rfl
  | succ n ih =>
    unfold clearSlots
    by_cases here : q = n + 1
    · subst here
      rw [slot_setSlot_self hq, if_pos (Nat.le_refl _)]
    · rw [slot_setSlot_ne hn hq (by omega) first here, ih (by omega)]
      simp only [show q ≤ n ↔ q ≤ n + 1 by omega]

/-- Distinct slots are told apart by their content. -/
theorem slot_inj {n i j : Nat} (distinct : (m.slots n).Nodup) (hi : 1 ≤ i) (hi' : i ≤ n) (hj : 1 ≤ j) (hj' : j ≤ n)
    (same : m.slot i = m.slot j) : i = j := by
  have inside : ∀ q, 1 ≤ q → q ≤ n → q - 1 < (m.slots n).length := by
    intro q _ _
    rw [slots_length]
    omega
  have equal : (m.slots n).get ⟨i - 1, inside i hi hi'⟩ = (m.slots n).get ⟨j - 1, inside j hj hj'⟩ := by
    simp only [List.get_eq_getElem, slots_getElem, Nat.sub_add_cancel hi, Nat.sub_add_cancel hj, same]
  have index := distinct.getElem_inj_iff.mp equal
  omega

/-- The remembered position is a match, and no later slot is one. -/
theorem lastMatch_spec {id : TagId} {n : Nat} (present : id ∈ m.slots n) :
    1 ≤ m.lastMatch id n ∧ m.lastMatch id n ≤ n ∧ m.slot (m.lastMatch id n) = id ∧
      ∀ j, m.lastMatch id n < j → j ≤ n → m.slot j ≠ id := by
  induction n with
  | zero => simp at present
  | succ n ih =>
    unfold lastMatch
    split
    · rename_i h; exact ⟨by omega, by omega, h, fun j _ _ => by omega⟩
    · rename_i h
      rw [slots_succ, List.mem_append, List.mem_singleton] at present
      obtain ⟨lower, upper, hit, later⟩ := ih (present.resolve_right (fun e => h e.symm))
      refine ⟨lower, by omega, hit, fun j after last => ?_⟩
      by_cases e : j = n + 1
      · rw [e]; exact h
      · exact later j after (by omega)

theorem slot_shiftDown {z x q : Nat} (hz : 1 ≤ z) (hx : z + x ≤ 63) (first : 1 ≤ q) (hq : q ≤ 63) :
    (m.shiftDown z x).slot q = if z ≤ q ∧ q < z + x then m.slot (q + 1) else m.slot q := by
  induction x generalizing q with
  | zero => rw [if_neg (by omega)]; rfl
  | succ x ih =>
    unfold shiftDown
    by_cases here : q = z + x
    · subst here
      rw [slot_setSlot_self (by omega), if_pos (by omega), ih (by omega) (by omega) (by omega), if_neg (by omega)]
    · rw [slot_setSlot_ne (by omega) hq (by omega) first here, ih (by omega) first hq]
      congr 1
      simp only [eq_iff_iff]
      omega

theorem get_shiftDown_outside {z x a : Nat} (hz : 1 ≤ z) (hx : z + x ≤ 63) (ha : a < 256)
    (outside : a < 4 * z - 3 ∨ 4 * (z + x) - 3 ≤ a) : (m.shiftDown z x).get a = m.get a := by
  induction x with
  | zero => rfl
  | succ x ih =>
    unfold shiftDown
    rw [get_setSlot_outside (by omega) (by omega) _ ha (by omega)]
    exact ih (by omega) (by omega)

end Eeprom

open Eeprom

variable (m : Eeprom)

theorem exec_readStoredTagId {j : Nat} (first : 1 ≤ j) (last : j ≤ 63) :
    at24c02.exec (readStoredTagId j) m = (idString (m.slot j), m) := by
  rw [readStoredTagId_eq first (by omega), exec_readOneByte_bind (by omega), exec_readOneByte_bind (by omega),
    exec_readOneByte_bind (by omega), exec_readOneByte_bind (by omega)]
  rfl

/-- One round of the slot loop. -/
theorem exec_writeTagByte {j i : Nat} (first : 1 ≤ j) (last : j ≤ 63) (byte : i < 4) (id : TagId) :
    at24c02.exec (at24cxxWriteOneByte (uint16 (tagStoredBaseAdd j + i)) (id (Fin.ofNat 4 i))) (m.putBytes j id i) =
      ((), m.putBytes j id (i + 1)) := by
  rw [uint16_slot first (by omega) byte, exec_writeOneByte (by omega)]
  rfl

theorem exec_writeTagBytes {j : Nat} (first : 1 ≤ j) (last : j ≤ 63) (id : TagId) :
    at24c02.exec (writeTagBytes j id) m = ((), m.setSlot j id) :=
  at24c02.exec_forLoop (fun _ => ()) (m.putBytes j id) rfl rfl fun _ _ upper => exec_writeTagByte m first last upper id

theorem exec_at24cxxInit : at24c02.exec at24cxxInit m = ((), if m.get 0 &&& ifModified = 0x80 then m else m.set 0 0x80) := by
  unfold at24cxxInit modCntTagAdd
  rw [exec_readOneByte_bind (by omega)]
  by_cases marked : m.get 0 &&& ifModified = 0x80
  · rw [if_neg (not_not_intro marked), if_pos marked]; rfl
  · rw [if_pos marked, if_neg marked, exec_writeOneByte (by omega)]; rfl

theorem exec_tagMatchFrom (id : TagId) (n : Nat) : ∀ j, 1 ≤ j → j + n ≤ 64 →
    at24c02.exec (tagMatchFrom (idString id) j n) m = (if id ∈ m.slotsFrom j n then 1 else 0, m) := by
  induction n with
  | zero => intro j _ _; rfl
  | succ n ih =>
    intro j first last
    rw [tagMatchFrom, Device.exec_bind_of _ (exec_readStoredTagId m first (by omega)), slotsFrom_cons]
    by_cases here : m.slot j = id
    · rw [if_pos (idString_inj.mpr here), if_pos (by simp [here])]; rfl
    · rw [if_neg (fun e => here (idString_inj.mp e)), ih (j + 1) (by omega) (by omega)]
      simp only [List.mem_cons, Ne.symm here, false_or]

/-- `tag_match` decides membership in the counted slots and writes nothing. -/
theorem exec_tagMatch (id : TagId) : at24c02.exec (tagMatch id) m = (if id ∈ m.tags then 1 else 0, m) := by
  have bound := m.count_lt
  unfold tagMatch modCntTagAdd
  rw [exec_readOneByte_bind (by omega), countOf_byte0]
  by_cases empty : m.count = 0
  · rw [if_pos empty, tags, empty]; rfl
  · rw [if_neg empty, exec_tagMatchFrom m id _ 1 (Nat.le_refl _) (by omega)]; rfl

theorem tagMatch_accepts {id : TagId} : (at24c02.exec (tagMatch id) m).1 = 1 ↔ id ∈ m.tags := by
  rw [exec_tagMatch]
  by_cases listed : id ∈ m.tags
  · rw [if_pos listed]
    exact iff_of_true rfl listed
  · rw [if_neg listed]
    exact iff_of_false (show ¬ (0 : UInt8) = 1 by decide) listed

/-- Below the capacity, `regist_tag` appends a slot and counts it. -/
theorem exec_registTag (id : TagId) (room : m.count < 56) :
    at24c02.exec (registTag id) m = (1, (m.set 0 (countByte (m.count + 1))).setSlot (m.count + 1) id) := by
  unfold registTag modCntTagAdd
  rw [exec_readOneByte_bind (by omega)]
  simp only [countOf_byte0, if_neg (show ¬ m.count + 1 > 56 by omega)]
  rw [exec_writeOneByte_bind (by omega), Device.exec_bind_of _ (exec_writeTagBytes _ (by omega) (by omega) id)]
  rfl

/-- From 56 tags on `regist_tag` starts over at tag 0. The first three bytes of that slot have
negative addresses, which the part does not answer; the fourth is byte 0. -/
theorem exec_registTag_full (id : TagId) (full : 56 ≤ m.count) : at24c02.exec (registTag id) m = (1, m.set 0 (id 3)) := by
  have restart : at24c02.exec (writeTagBytes 0 id) (m.set 0 (countByte 0)) = ((), m.set 0 (id 3)) := by
    apply at24c02.exec_forLoop (fun _ => ()) (fun i => if i = 4 then m.set 0 (id 3) else m.set 0 (countByte 0)) rfl rfl
    intro i _ upper
    obtain rfl | rfl | rfl | rfl : i = 0 ∨ i = 1 ∨ i = 2 ∨ i = 3 := by omega
    · rfl
    · rfl
    · rfl
    · show ((), (m.set 0 (countByte 0)).set 0 (id 3)) = ((), m.set 0 (id 3))
      rw [set_set]
  unfold registTag modCntTagAdd
  rw [exec_readOneByte_bind (by omega)]
  simp only [countOf_byte0, if_pos (show m.count + 1 > 56 by omega)]
  rw [exec_writeOneByte_bind (by omega), Device.exec_bind_of _ restart]
  rfl

/-- One round of `DEL_ALL_TAG`. -/
theorem exec_delAllRound {j : Nat} (first : 1 ≤ j) (last : j ≤ 63) :
    at24c02.exec (writeTagBytes j 0) (m.clearSlots (j - 1)) = ((), m.clearSlots j) := by
  obtain ⟨i, rfl⟩ : ∃ i, j = i + 1 := ⟨j - 1, by omega⟩
  exact exec_writeTagBytes _ (by omega) last 0

/-- `DEL_ALL_TAG` zeroes the counted slots, then the count. -/
theorem exec_delAllTag (filled : m.count ≠ 0) : at24c02.exec delAllTag m = (1, (m.clearSlots m.count).set 0 0x80) := by
  have bound := m.count_lt
  have zeroed : at24c02.exec (Prog.forLoop 1 m.count () fun j _ => writeTagBytes j 0) m = ((), m.clearSlots m.count) := by
    apply at24c02.exec_forLoop (fun _ => ()) (fun j => m.clearSlots (j - 1)) rfl
    · rw [Nat.add_sub_cancel_left]
    · intro j first last
      exact exec_delAllRound m first (by omega)
  unfold delAllTag modCntTagAdd
  rw [exec_readOneByte_bind (by omega)]
  simp only [countOf_byte0, if_neg filled]
  rw [Device.exec_bind_of _ zeroed, exec_writeOneByte_bind (by omega)]
  rfl

theorem exec_delAllTag_empty (empty : m.count = 0) : at24c02.exec delAllTag m = (0, m) := by
  unfold delAllTag modCntTagAdd
  rw [exec_readOneByte_bind (by omega)]
  simp only [countOf_byte0, if_pos empty]
  rfl

/-- The counter and the position that the search loop holds before slot `j`. -/
def searchAcc (id : TagId) (n j : Nat) : Nat × Nat := (n - (m.slots (j - 1)).count id, m.lastMatch id (j - 1))

/-- One round of the search loop: a match is zeroed, counted off and remembered. -/
theorem exec_deleteSearchRound (id : TagId) {n j : Nat} (first : 1 ≤ j) (last : j ≤ 63) :
    at24c02.exec (deleteSearchRound (idString id) j (searchAcc m id n j)) (m.clearMatches id (j - 1)) =
      (searchAcc m id n (j + 1), m.clearMatches id j) := by
  obtain ⟨i, rfl⟩ : ∃ i, j = i + 1 := ⟨j - 1, by omega⟩
  have unread : (m.clearMatches id i).slot (i + 1) = m.slot (i + 1) := by
    rw [slot_clearMatches id (by omega) (by omega) (by omega), if_neg (by omega)]
  simp only [searchAcc, Nat.add_sub_cancel, slots_succ, List.count_append, lastMatch, clearMatches]
  unfold deleteSearchRound
  rw [Device.exec_bind_of _ (exec_readStoredTagId _ first (by omega)), unread]
  by_cases here : m.slot (i + 1) = id
  · rw [if_pos (idString_inj.mpr here), Device.exec_bind_of _ (exec_writeTagBytes _ first (by omega) 0)]
    simp only [here, if_true, List.count_singleton_self]
    rfl
  · rw [if_neg (fun e => here (idString_inj.mp e))]
    simp only [here, if_false, List.count_singleton, beq_iff_eq, Nat.add_zero]
    rfl

/-- The search loop zeroes the matches, counts them off and keeps the last position. -/
theorem exec_deleteSearch (id : TagId) {n : Nat} (small : n ≤ 63) :
    at24c02.exec (deleteSearch (idString id) n) m = ((n - (m.slots n).count id, m.lastMatch id n), m.clearMatches id n) := by
  apply at24c02.exec_forLoop (searchAcc m id n) (fun j => m.clearMatches id (j - 1)) rfl
  · simp only [searchAcc, Nat.add_sub_cancel_left]
  · intro j first last
    exact exec_deleteSearchRound m id first (by omega)

/-- One byte of the compaction loop. -/
theorem exec_copyTagByte {j y : Nat} (first : 1 ≤ j) (last : j ≤ 62) (byte : y < 4) :
    at24c02.exec (copyTagByte (j + 1) j y) (m.putBytes j (m.slot (j + 1)) y) = ((), m.putBytes j (m.slot (j + 1)) (y + 1)) := by
  unfold copyTagByte
  rw [uint16_slot (by omega) (by omega) byte, uint16_slot first (by omega) byte, exec_readOneByte_bind (by omega),
    exec_writeOneByte (by omega), get_putBytes_outside (by omega) _ (by omega) (by omega) (by omega)]
  have same : m.get (4 * (j + 1) - 3 + y) = m.slot (j + 1) (Fin.ofNat 4 y) := by
    unfold slot
    rw [show (Fin.ofNat 4 y).val = y from Nat.mod_eq_of_lt byte]
  rw [same]
  rfl

/-- One round of the compaction loop: a slot is overwritten with its successor. -/
theorem exec_copyTag {j : Nat} (first : 1 ≤ j) (last : j ≤ 62) :
    at24c02.exec (Prog.forLoop 0 4 () fun y _ => copyTagByte (j + 1) j y) m = ((), m.setSlot j (m.slot (j + 1))) :=
  at24c02.exec_forLoop (fun _ => ()) (m.putBytes j (m.slot (j + 1))) rfl rfl fun _ _ upper => exec_copyTagByte m first last upper

/-- The compaction loop copies each slot from `z` on over its predecessor. -/
theorem exec_deleteCompact {cnt z : Nat} (hz : 1 ≤ z) (le : z ≤ cnt) (small : cnt ≤ 62) :
    at24c02.exec (deleteCompact cnt z) m = ((), m.shiftDown z (cnt - z + 1)) := by
  apply at24c02.exec_forLoop (fun _ => ()) (m.shiftDown z) rfl
  · rw [Nat.zero_add]
  · intro x _ last
    exact exec_copyTag (m.shiftDown z x) (by omega) (by omega)

theorem exec_deleteRegisteredTag_empty (id : TagId) (empty : m.count = 0) :
    at24c02.exec (deleteRegisteredTag id) m = (0, m) := by
  unfold deleteRegisteredTag modCntTagAdd
  rw [exec_readOneByte_bind (by omega)]
  simp only [countOf_byte0, if_pos empty]
  rfl

/-- An absent ID: every slot is read and nothing is written. -/
theorem exec_deleteRegisteredTag_absent (id : TagId) (absent : id ∉ m.tags) :
    at24c02.exec (deleteRegisteredTag id) m = (0, m) := by
  have bound := m.count_lt
  have none : (m.slots m.count).count id = 0 := List.count_eq_zero.mpr absent
  by_cases empty : m.count = 0
  · exact exec_deleteRegisteredTag_empty m id empty
  · unfold deleteRegisteredTag modCntTagAdd
    rw [exec_readOneByte_bind (by omega)]
    simp only [countOf_byte0, if_neg empty]
    rw [Device.exec_bind_of _ (exec_deleteSearch m id (by omega)), clearMatches_of_absent absent]
    simp only [none, Nat.sub_zero, if_true]
    rfl

/-- A present ID: zero the matches, shift once from the last one, write the count back. -/
theorem exec_deleteRegisteredTag (id : TagId) (small : m.count ≤ 62) (present : id ∈ m.tags) :
    at24c02.exec (deleteRegisteredTag id) m =
      (1, (((m.clearMatches id m.count).shiftDown (m.lastMatch id m.count) (m.count - m.lastMatch id m.count + 1)).set 0
        (countByte (m.count - m.tags.count id)))) := by
  have hit := List.count_pos_iff.mpr present
  have most : m.tags.count id ≤ m.count := (List.count_le_length).trans_eq (m.slots_length m.count)
  obtain ⟨lower, upper, -, -⟩ := lastMatch_spec present
  unfold deleteRegisteredTag modCntTagAdd
  rw [exec_readOneByte_bind (by omega)]
  simp only [countOf_byte0, if_neg (show m.count ≠ 0 by omega)]
  rw [Device.exec_bind_of _ (exec_deleteSearch m id (by omega))]
  simp only [show m.slots m.count = m.tags from rfl, if_neg (show m.count - m.tags.count id ≠ m.count by omega)]
  rw [Device.exec_bind_of _ (exec_deleteCompact _ lower upper small), exec_writeOneByte_bind (by omega)]
  rfl

/-- `LIST_ALL_TAGS` prints the counted slots in order. -/
theorem exec_listAllTags :
    at24c02.exec listAllTags m = ((if m.count = 0 then 0 else 1, m.tags.map idString), m) := by
  have bound := m.count_lt
  unfold listAllTags modCntTagAdd
  rw [exec_readOneByte_bind (by omega)]
  simp only [countOf_byte0]
  by_cases empty : m.count = 0
  · rw [if_pos empty, if_pos empty, tags, empty]; rfl
  · have printed : at24c02.exec (Prog.forLoop 1 m.count ([] : List (List Char)) fun j printed => do
        let storedTagId ← readStoredTagId j
        return printed ++ [storedTagId]) m = (m.tags.map idString, m) := by
      apply at24c02.exec_forLoop (fun j => (m.slots (j - 1)).map idString) (fun _ => m) rfl
      · rw [Nat.add_sub_cancel_left]; rfl
      · intro j first last
        obtain ⟨i, rfl⟩ : ∃ i, j = i + 1 := ⟨j - 1, by omega⟩
        rw [Device.exec_bind_of _ (exec_readStoredTagId m first (by omega)), Nat.add_sub_cancel, Nat.add_sub_cancel,
          slots_succ, List.map_append]
        rfl
    rw [if_neg empty, if_neg empty, Device.exec_bind_of _ printed]
    rfl

end DoorSecurity
