import DoorSecurity.Tags.Slotwise
import DoorSecurity.Lts.Machine

/-!
# The access list and its EEPROM image

What the store is for: an ordered list of IDs without repetition. The byte-level
functions refine it as long as no card is registered on a full store: byte 0
is `0x80 | length` and the counted slots hold the list in order, over
registrations, deletions, wipes, listings, queries and reboots in any order.
-/

namespace DoorSecurity
set_option autoImplicit false
open Bus Lts

/-- An ordered list of keys without repetition. -/
@[ext] structure AccessList (α : Type) where
  keys : List α
  nodup : keys.Nodup

namespace AccessList

variable {α : Type} [DecidableEq α]

def empty : AccessList α := ⟨[], List.nodup_nil⟩

/-- Append an absent key; a present one changes nothing. -/
def register (l : AccessList α) (k : α) : AccessList α :=
  if h : k ∈ l.keys then l
  else ⟨l.keys ++ [k], List.nodup_append.mpr ⟨l.nodup, List.nodup_singleton k, fun a ha b hb => by
    rw [List.mem_singleton] at hb; rintro rfl; exact h (hb ▸ ha)⟩⟩

/-- Remove a key, keeping the order of the others. -/
def delete (l : AccessList α) (k : α) : AccessList α := ⟨l.keys.erase k, l.nodup.erase k⟩

theorem register_of_mem {l : AccessList α} {k : α} (h : k ∈ l.keys) : l.register k = l := by
  rw [register, dif_pos h]

theorem register_of_notMem {l : AccessList α} {k : α} (h : k ∉ l.keys) : (l.register k).keys = l.keys ++ [k] := by
  rw [register, dif_neg h]

theorem mem_register {l : AccessList α} {k x : α} : x ∈ (l.register k).keys ↔ x ∈ l.keys ∨ x = k := by
  by_cases h : k ∈ l.keys
  · rw [register_of_mem h]
    constructor
    · exact .inl
    · rintro (mem | rfl) <;> assumption
  · rw [register_of_notMem h, List.mem_append, List.mem_singleton]

theorem mem_delete {l : AccessList α} {k x : α} : x ∈ (l.delete k).keys ↔ x ≠ k ∧ x ∈ l.keys := l.nodup.mem_erase_iff

theorem delete_of_notMem {l : AccessList α} {k : α} (h : k ∉ l.keys) : l.delete k = l := by
  ext1; exact List.erase_of_not_mem h

end AccessList

/-- The commands of the store. -/
inductive Command where
  | init
  | register (id : TagId)
  | delete (id : TagId)
  | delAll
  | listAll
  | tagMatch (id : TagId)

/-- What a command answers: nothing, a return value, or a return value and the printed IDs. -/
inductive Reply where
  | silent
  | status (r : UInt8)
  | listing (r : UInt8) (printed : List (List Char))
deriving DecidableEq

/-- The functions of the source as a machine over the EEPROM. -/
def eepromStore : Machine Eeprom Command Reply where
  step m
    | .init => (.silent, (at24c02.exec at24cxxInit m).2)
    | .register id => (.silent, (at24c02.exec (registerCard id) m).2)
    | .delete id => (.status (at24c02.exec (deleteRegisteredTag id) m).1, (at24c02.exec (deleteRegisteredTag id) m).2)
    | .delAll => (.status (at24c02.exec delAllTag m).1, (at24c02.exec delAllTag m).2)
    | .listAll => (.listing (at24c02.exec listAllTags m).1.1 (at24c02.exec listAllTags m).1.2, (at24c02.exec listAllTags m).2)
    | .tagMatch id => (.status (at24c02.exec (tagMatch id) m).1, (at24c02.exec (tagMatch id) m).2)

/-- The access list as a machine. -/
def listStore : Machine (AccessList TagId) Command Reply where
  step l
    | .init => (.silent, l)
    | .register id => (.silent, l.register id)
    | .delete id => (.status (if id ∈ l.keys then 1 else 0), l.delete id)
    | .delAll => (.status (if l.keys = [] then 0 else 1), .empty)
    | .listAll => (.listing (if l.keys = [] then 0 else 1) (l.keys.map idString), l)
    | .tagMatch id => (.status (if id ∈ l.keys then 1 else 0), l)

/-- Registration is not attempted on a store of 56 tags. -/
def RoomToRegister (m : Eeprom) : Command → Prop
  | .register _ => m.count ≠ 56
  | _ => True

/-- The EEPROM holds the list: the marked count and the slots in order. -/
structure Holds (l : AccessList TagId) (m : Eeprom) : Prop where
  byte0 : m.get 0 = countByte l.keys.length
  tags : m.tags = l.keys
  bound : l.keys.length ≤ 56

namespace Holds

open Eeprom

variable {l : AccessList TagId} {m : Eeprom}

theorem count (h : Holds l m) : m.count = l.keys.length := by
  have bound := h.bound
  rw [Eeprom.count, h.byte0, countOf_countByte (by omega)]

theorem marked (h : Holds l m) : m.get 0 &&& ifModified = 0x80 := by
  have bound := h.bound
  rw [h.byte0, countByte_marked (by omega)]

theorem mem (h : Holds l m) {id : TagId} : id ∈ m.tags ↔ id ∈ l.keys := by rw [h.tags]

theorem nodup (h : Holds l m) : m.tags.Nodup := h.tags ▸ l.nodup

/-- From a count byte and slots. -/
theorem of_slots {n : Nat} (byte0 : m.get 0 = countByte n) (slots : m.slots n = l.keys) (bound : n ≤ 56) : Holds l m := by
  have len : l.keys.length = n := by rw [← slots, slots_length]
  refine ⟨by rw [byte0, len], ?_, by omega⟩
  rw [Eeprom.tags, Eeprom.count, byte0, countOf_countByte (by omega), slots]

theorem init_keeps (h : Holds l m) : at24c02.exec at24cxxInit m = ((), m) := by
  rw [exec_at24cxxInit, if_pos h.marked]

theorem empty_of (h : m.get 0 = 0x80) : Holds .empty m :=
  of_slots (n := 0) h rfl (by omega)

end Holds

open Eeprom

/-- `Register_New_Tag` on a card: nothing for a counted ID, `regist_tag` otherwise. -/
theorem exec_registerCard (m : Eeprom) (id : TagId) :
    at24c02.exec (registerCard id) m = ((), if id ∈ m.tags then m else (at24c02.exec (registTag id) m).2) := by
  unfold registerCard
  rw [Device.exec_bind_of _ (exec_tagMatch m id)]
  by_cases present : id ∈ m.tags
  · rw [if_pos present, if_pos present]; rfl
  · rw [if_neg present, if_neg present, if_neg (by decide), Device.exec_bind]; rfl

theorem Holds.registTag {l : AccessList TagId} {m : Eeprom} (h : Holds l m) {id : TagId} (absent : id ∉ l.keys)
    (room : m.count < 56) : Holds (l.register id) (at24c02.exec (DoorSecurity.registTag id) m).2 := by
  have count := h.count
  rw [exec_registTag m id room]
  refine .of_slots (n := m.count + 1) ?_ ?_ (by omega)
  · rw [get_setSlot_outside (by omega) (by omega) _ (by omega) (by omega), get_set_self]
  · rw [AccessList.register_of_notMem absent, slots_succ, slot_setSlot_self (by omega), ← h.tags]
    congr 1
    apply slots_congr
    intro j first last
    rw [slot_setSlot_ne (by omega) (by omega) (by omega) first (by omega), slot_set_zero first (by omega)]

theorem Holds.registerCard {l : AccessList TagId} {m : Eeprom} (h : Holds l m) (id : TagId) (room : m.count ≠ 56) :
    Holds (l.register id) (at24c02.exec (DoorSecurity.registerCard id) m).2 := by
  have bound := h.bound
  have count := h.count
  rw [exec_registerCard, h.tags]
  by_cases present : id ∈ l.keys
  · rw [if_pos present, AccessList.register_of_mem present]; exact h
  · rw [if_neg present]
    exact h.registTag present (by omega)

/-- A shift down over slot `z` erases it, whatever that slot held. -/
theorem slots_shiftDown {m t : Eeprom} {n z : Nat} (small : n ≤ 62) (lower : 1 ≤ z) (upper : z ≤ n)
    (other : ∀ q, 1 ≤ q → q ≤ 63 → q ≠ z → t.slot q = m.slot q) :
    (t.shiftDown z (n - z + 1)).slots (n - 1) = (m.slots n).eraseIdx (z - 1) := by
  have len := m.slots_length n
  apply List.ext_getElem
  · rw [slots_length, List.length_eraseIdx_of_lt (by omega), len]
  · intro i hi _
    rw [slots_length] at hi
    rw [slots_getElem, slot_shiftDown lower (by omega) (by omega) (by omega), List.getElem_eraseIdx]
    by_cases before : i < z - 1
    · rw [if_neg (by omega), dif_pos before, slots_getElem, other _ (by omega) (by omega) (by omega)]
    · rw [if_pos (by omega), dif_neg before, slots_getElem, other _ (by omega) (by omega) (by omega)]

theorem eraseIdx_slots {m : Eeprom} {id : TagId} {n z : Nat} (distinct : (m.slots n).Nodup) (lower : 1 ≤ z) (upper : z ≤ n)
    (hit : m.slot z = id) : (m.slots n).eraseIdx (z - 1) = (m.slots n).erase id := by
  have inside : z - 1 < (m.slots n).length := by
    rw [slots_length]
    omega
  have erased := distinct.erase_getElem (z - 1) inside
  rw [slots_getElem, Nat.sub_add_cancel lower, hit] at erased
  exact erased.symm

/-- The list's image after a shift down over one of its slots and the new count. -/
theorem Holds.of_shiftDown {l : AccessList TagId} {m t : Eeprom} (h : Holds l m) {id : TagId} {z : Nat} (lower : 1 ≤ z) (upper : z ≤ m.count)
    (hit : m.slot z = id) (other : ∀ q, 1 ≤ q → q ≤ 63 → q ≠ z → t.slot q = m.slot q) :
    Holds (l.delete id) ((t.shiftDown z (m.count - z + 1)).set 0 (countByte (m.count - 1))) := by
  have bound := h.bound
  have count := h.count
  refine .of_slots (n := m.count - 1) (get_set_self _ _ _) ?_ (by omega)
  have kept : ∀ q, 1 ≤ q → q ≤ m.count - 1 → ((t.shiftDown z (m.count - z + 1)).set 0 (countByte (m.count - 1))).slot q =
      (t.shiftDown z (m.count - z + 1)).slot q := fun q first last => slot_set_zero first (by omega) _
  rw [slots_congr kept, slots_shiftDown (by omega) lower upper other, eraseIdx_slots h.nodup lower upper hit,
    show m.slots m.count = l.keys from h.tags]
  rfl

theorem Holds.delete {l : AccessList TagId} {m : Eeprom} (h : Holds l m) (id : TagId) :
    Holds (l.delete id) (at24c02.exec (deleteRegisteredTag id) m).2 := by
  have bound := h.bound
  have count := h.count
  by_cases present : id ∈ l.keys
  · have inTags := h.mem.mpr present
    have once : m.tags.count id = 1 := List.count_eq_one_of_mem h.nodup inTags
    obtain ⟨lower, upper, hit, -⟩ := lastMatch_spec inTags
    rw [exec_deleteRegisteredTag m id (by omega) inTags, once]
    apply h.of_shiftDown lower upper hit
    intro q first last ne
    -- the slots are distinct, so only the remembered one was zeroed
    rw [slot_clearMatches id (by omega) first last, if_neg]
    rintro ⟨le, same⟩
    exact ne (slot_inj h.nodup first le lower upper (same.trans hit.symm))
  · rw [exec_deleteRegisteredTag_absent m id (fun c => present (h.mem.mp c)), AccessList.delete_of_notMem present]
    exact h

theorem Holds.delAll {l : AccessList TagId} {m : Eeprom} (h : Holds l m) :
    Holds .empty (at24c02.exec delAllTag m).2 := by
  by_cases none : m.count = 0
  · rw [exec_delAllTag_empty m none]
    apply Holds.empty_of
    rw [h.byte0, ← h.count, none]; rfl
  · rw [exec_delAllTag m none]
    exact .empty_of (get_set_self _ _ _)

theorem Holds.keys_eq_nil {l : AccessList TagId} {m : Eeprom} (h : Holds l m) : l.keys = [] ↔ m.count = 0 := by
  rw [h.count, List.length_eq_zero_iff]

/-- **The EEPROM refines the access list** below the capacity. -/
theorem eeprom_refines_list : Refinement eepromStore listStore RoomToRegister Holds where
  answer {l m c} h _ := by
    cases c with
    | init => rfl
    | register id => rfl
    | delete id =>
      have bound := h.bound
      have count := h.count
      simp only [eepromStore, listStore]
      by_cases present : id ∈ l.keys
      · rw [exec_deleteRegisteredTag m id (by omega) (h.mem.mpr present), if_pos present]
      · rw [exec_deleteRegisteredTag_absent m id (fun c => present (h.mem.mp c)), if_neg present]
    | delAll =>
      simp only [eepromStore, listStore, h.keys_eq_nil]
      by_cases none : m.count = 0
      · rw [exec_delAllTag_empty m none, if_pos none]
      · rw [exec_delAllTag m none, if_neg none]
    | listAll => simp only [eepromStore, listStore, h.keys_eq_nil, exec_listAllTags, h.tags]
    | tagMatch id => simp only [eepromStore, listStore, exec_tagMatch, h.tags]
  keep {l m c} h room := by
    cases c with
    | init => simpa only [eepromStore, listStore, h.init_keeps] using h
    | register id => exact h.registerCard id room
    | delete id => exact h.delete id
    | delAll => exact h.delAll
    | listAll => simpa only [eepromStore, listStore, exec_listAllTags] using h
    | tagMatch id => simpa only [eepromStore, listStore, exec_tagMatch] using h

/-- The first boot on a part without a list: `AT24CXX_Init` leaves the empty list. -/
theorem Holds.first_boot {m : Eeprom} (start : m.get 0 = 0x80 ∨ m.get 0 &&& ifModified ≠ 0x80) :
    Holds .empty (at24c02.exec at24cxxInit m).2 := by
  rw [exec_at24cxxInit]
  rcases start with zeroed | unmarked
  · rw [if_pos (by rw [zeroed]; decide)]
    exact .empty_of zeroed
  · rw [if_neg unmarked]
    exact .empty_of (get_set_self _ _ _)

/-- A part that holds the one card 01020304. -/
def oneCard : Eeprom := (Eeprom.blank.set 0 0x81).setSlot 1 ![1, 2, 3, 4]

theorem oneCard_holds : Holds ⟨[![1, 2, 3, 4]], List.nodup_singleton _⟩ oneCard :=
  .of_slots (n := 1) (by decide) (by decide) (by decide)

/-- Every run of the store's functions from a first boot answers as the list does and leaves
the list's image: byte 0, the slots in order, no repetition. On that image a reboot, the
registration of a listed card and the deletion of an unlisted one change no cell, and
`tag_match` decides the list. -/
theorem store_runs_refine_list (m0 : Eeprom) (start : m0.get 0 = 0x80 ∨ m0.get 0 &&& ifModified ≠ 0x80)
    (cs : List Command) (room : eepromStore.Within RoomToRegister (.init :: cs) m0) :
    let e := eepromStore.run (.init :: cs) m0
    let l := listStore.run (.init :: cs) .empty
    e.1 = l.1 ∧ e.2.get 0 = 0x80 ||| UInt8.ofNat l.2.keys.length ∧ l.2.keys.length ≤ 56 ∧
      e.2.slots l.2.keys.length = l.2.keys ∧ l.2.keys.Nodup ∧
      (at24c02.exec at24cxxInit e.2).2 = e.2 ∧
      (∀ id ∈ l.2.keys, (at24c02.exec (registerCard id) e.2).2 = e.2) ∧
      (∀ id ∉ l.2.keys, (at24c02.exec (deleteRegisteredTag id) e.2).2 = e.2) ∧
      ∀ id, (at24c02.exec (tagMatch id) e.2).1 = 1 ↔ id ∈ l.2.keys := by
  intro e l
  obtain ⟨answers, holds⟩ := eeprom_refines_list.run cs (Holds.first_boot start) room.2
  replace holds : Holds l.2 e.2 := holds
  have slots : e.2.slots l.2.keys.length = l.2.keys := by rw [← holds.count]; exact holds.tags
  refine ⟨?_, ?_, holds.bound, slots, l.2.nodup, ?_, ?_, ?_, ?_⟩
  · exact congrArg (Reply.silent :: ·) answers
  · rw [holds.byte0, countByte, modified, UInt8.or_comm]
  · rw [holds.init_keeps]
  · intro id listed
    rw [exec_registerCard, if_pos (holds.mem.mpr listed)]
  · intro id unlisted
    rw [exec_deleteRegisteredTag_absent _ id (fun c => unlisted (holds.mem.mp c))]
  · intro id
    rw [tagMatch_accepts, holds.mem]

/-- Two cards registered on a blank part, one deleted, a wipe, a reboot. -/
theorem store_runs_refine_list_blank :
    let cs : List Command := [.register ![1, 2, 3, 4], .register ![5, 6, 7, 8], .delete ![1, 2, 3, 4], .tagMatch ![5, 6, 7, 8],
      .delAll, .init, .listAll]
    (eepromStore.run (.init :: cs) .blank).1 = (listStore.run (.init :: cs) .empty).1 := by
  intro cs
  have room : eepromStore.Within RoomToRegister (.init :: cs) .blank :=
    ⟨trivial, by unfold RoomToRegister; decide, by unfold RoomToRegister; decide, trivial, trivial, trivial, trivial, trivial, trivial⟩
  exact (store_runs_refine_list .blank (.inr (by decide)) cs room).1

end DoorSecurity
