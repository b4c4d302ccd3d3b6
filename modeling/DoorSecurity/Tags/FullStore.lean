import DoorSecurity.Bus.Log
import DoorSecurity.Layout.Areas

/-!
# Registration on a full store

`regist_tag` on 56 tags announces "New ID will overwrite old ID!" and restarts its
count at zero. `Tag_Stored_Base_Add(0)` is -3: as a 16-bit address the first three
bytes of the card leave the driver with the select byte `0x9E`, which no part on
the bus answers, and the fourth lands on byte 0. The count is then whatever the
card's last byte says, and no slot holds the card.
-/

namespace DoorSecurity
set_option autoImplicit false
open Bus Eeprom

/-- What overwriting an old tag is to leave behind. -/
structure OverwritesOld (m : Eeprom) (tagId : TagId) (t : Eeprom) : Prop where
  marked : t.get modCntTagAdd &&& ifModified = 0x80
  counted : 1 ≤ t.count ∧ t.count ≤ 56
  found : (at24c02.exec (tagMatch tagId) t).1 = 1
  known : ∀ u, (at24c02.exec (tagMatch u) t).1 = 1 → u ∈ m.tags ∨ u = tagId
  inside : ∀ w ∈ at24c02.writes (registTag tagId) m, w.1.select = 0xA0 → w.1.word ≤ 4 * 56

variable (m : Eeprom) (tagId : TagId)

/-- The writes of the restarted slot: three that no part answers, then byte 0. -/
theorem writes_writeTagBytes_zero (t : Eeprom) :
    at24c02.writes (writeTagBytes 0 tagId) t =
      [(⟨0x9E, 253⟩, tagId 0), (⟨0x9E, 254⟩, tagId 1), (⟨0x9E, 255⟩, tagId 2), (⟨0xA0, 0⟩, tagId 3)] := rfl

/-- On a full store every write that is answered goes to byte 0. -/
theorem writes_registTag_full (full : m.count = 56) {w : BusAddr × UInt8} (write : w ∈ at24c02.writes (registTag tagId) m)
    (answered : w.1.select = 0xA0) : w.1.word = modCntTagAdd := by
  have restart : at24c02.writes (registTag tagId) m =
      (⟨0xA0, 0⟩, countByte 0) :: at24c02.writes (writeTagBytes 0 tagId) (m.set 0 (countByte 0)) := by
    have count : countOf (at24c02.read m (busAddr modCntTagAdd)) = 56 := full
    unfold registTag at24cxxReadOneByte
    rw [Prog.get_bind, Device.writes, count]
    rfl
  rw [restart, writes_writeTagBytes_zero] at write
  simp only [List.mem_cons, List.not_mem_nil, or_false] at write
  rcases write with rfl | rfl | rfl | rfl | rfl
  · rfl
  · exact absurd (show (0x9E : Nat) = 0xA0 from answered) (by decide)
  · exact absurd (show (0x9E : Nat) = 0xA0 from answered) (by decide)
  · exact absurd (show (0x9E : Nat) = 0xA0 from answered) (by decide)
  · rfl

/-- Byte 0 takes the card's last byte and the slots stay. -/
theorem registTag_full_spec (full : m.count = 56) :
    (at24c02.exec (registTag tagId) m).2.get 0 = tagId 3 ∧
      ∀ n ≤ 63, (at24c02.exec (registTag tagId) m).2.slots n = m.slots n := by
  rw [exec_registTag_full m tagId (Nat.le_of_eq full.symm)]
  refine ⟨get_set_self m 0 _, fun n small => slots_congr fun j first last => ?_⟩
  exact slot_set_zero first (by omega) _

/-- **A registration on a full store never leaves a valid store.** With a count up to 56 the
counted slots are old ones, and the new card is not among them. -/
theorem registTag_full_never (full : m.count = 56) (absent : tagId ∉ m.tags) :
    ¬ OverwritesOld m tagId (at24c02.exec (registTag tagId) m).2 := by
  intro valid
  obtain ⟨-, slots⟩ := registTag_full_spec m tagId full
  obtain ⟨-, upper⟩ := valid.counted
  have listed := (tagMatch_accepts _).mp valid.found
  rw [Eeprom.tags, slots _ (by omega)] at listed
  obtain ⟨j, first, last, hit⟩ := mem_slots.mp listed
  apply absent
  rw [Eeprom.tags, full]
  exact mem_slots.mpr ⟨j, first, by omega, hit⟩

/-- The store after a first boot and 56 cards. -/
def fullStore : Eeprom := registerCards firstBoot ((List.range 56).map numberedTag)

theorem fullStore_spec : fullStore.count = 56 ∧ numberedTag 57 ∉ fullStore.tags := by
  obtain ⟨l, keys, holds, -⟩ := firstBoot_registerCards (n := 56) (Nat.le_refl _)
  constructor
  · rw [fullStore, holds.count, keys, List.length_map, List.length_range]
  · rw [fullStore, holds.tags, keys]
    decide

/-- The card 57 on the full store: the count byte loses its mark. -/
theorem registTag_full_unmarked :
    fullStore.count = 56 ∧ numberedTag 57 ∉ fullStore.tags ∧
      (at24c02.exec (registTag (numberedTag 57)) fullStore).2.get 0 = 57 ∧
      ¬ OverwritesOld fullStore (numberedTag 57) (at24c02.exec (registTag (numberedTag 57)) fullStore).2 := by
  obtain ⟨count, absent⟩ := fullStore_spec
  obtain ⟨byte0, -⟩ := registTag_full_spec fullStore (numberedTag 57) count
  refine ⟨count, absent, byte0, fun valid => ?_⟩
  have marked := valid.marked
  unfold modCntTagAdd at marked
  rw [byte0] at marked
  exact absurd marked (by decide)

theorem registTag_full_never_fullStore :
    fullStore.count = 56 ∧ numberedTag 57 ∉ fullStore.tags ∧
      ¬ OverwritesOld fullStore (numberedTag 57) (at24c02.exec (registTag (numberedTag 57)) fullStore).2 := by
  obtain ⟨count, absent⟩ := fullStore_spec
  exact ⟨count, absent, registTag_full_never fullStore (numberedTag 57) count absent⟩

end DoorSecurity
