import DoorSecurity.Password.Store
import DoorSecurity.Tags.AccessList

/-!
# The areas of the EEPROM

Byte 0 and the tag slots grow upwards from address 0, the password area starts at
`PSW_FLAG` and the touch calibration (`TP_Save_Adjdata`) fills the top fifteen
bytes. Slot 56, the last one that `regist_tag` uses, ends on `PSW_FLAG`. Each
operation therefore keeps out of the others' areas exactly below that slot, or
where it happens to store the byte that is there.
-/

namespace DoorSecurity
set_option autoImplicit false
open Bus Eeprom

def saveAddrBase : Nat := 0xf1

/-- `TP_Save_Adjdata`: fourteen bytes of `tp_dev` from `xfac` on, then the mark. -/
def tpSaveAdjdata (xfac : Fin 14 → UInt8) : Code Unit := do
  at24cxxWrite saveAddrBase (List.ofFn xfac)
  at24cxxWriteOneByte (saveAddrBase + 14) 0x0A

/-- What the start-up does to the store: `AT24CXX_Init` in `TP_Init`, then `psw_check` in `main`. -/
def boot (keys : List UInt8) (psw : CharBuffer) : Code (Option Unit) := do
  at24cxxInit
  pswCheck keys psw

/-- Cards registered one after the other. -/
def registerCards (m : Eeprom) (ids : List TagId) : Eeprom :=
  ids.foldl (fun m tagId => (at24c02.exec (registerCard tagId) m).2) m

/-- The operations that write the EEPROM after the boot. -/
inductive StoreOp where
  | registTag (tagId : TagId)
  | deleteRegisteredTag (tagId : TagId)
  | delAllTag
  | passwordSetting (keys : List UInt8) (psw : CharBuffer)
  | pswCheck (keys : List UInt8) (psw : CharBuffer)
  | tpSaveAdjdata (xfac : Fin 14 → UInt8)

/-- The memory after an operation. -/
def StoreOp.after (m : Eeprom) : StoreOp → Eeprom
  | .registTag tagId => (at24c02.exec (DoorSecurity.registTag tagId) m).2
  | .deleteRegisteredTag tagId => (at24c02.exec (DoorSecurity.deleteRegisteredTag tagId) m).2
  | .delAllTag => (at24c02.exec DoorSecurity.delAllTag m).2
  | .passwordSetting keys psw => (at24c02.exec (DoorSecurity.passwordSetting keys psw) m).2
  | .pswCheck keys psw => (at24c02.exec (DoorSecurity.pswCheck keys psw) m).2
  | .tpSaveAdjdata xfac => (at24c02.exec (DoorSecurity.tpSaveAdjdata xfac) m).2

/-- The password area and the calibration area. -/
def ReservedByte (a : Nat) : Prop := (pswFlag ≤ a ∧ a < pswAddBase + 6) ∨ (saveAddrBase ≤ a ∧ a ≤ saveAddrBase + 14)

/-- The count byte and the slots that hold a registered tag. -/
def TagByte (m : Eeprom) (a : Nat) : Prop := a = modCntTagAdd ∨ (1 ≤ a ∧ a ≤ 4 * m.count)

/-- The bytes that belong to the other modules. -/
def StoreOp.Foreign (m : Eeprom) : StoreOp → Nat → Prop
  | .registTag _ | .deleteRegisteredTag _ | .delAllTag => ReservedByte
  | .passwordSetting _ _ | .pswCheck _ _ | .tpSaveAdjdata _ => TagByte m

/-- The operation leaves the other modules' bytes as they are. -/
def StoreOp.KeepsForeign (m : Eeprom) (op : StoreOp) : Prop :=
  ∀ a, a < 256 → op.Foreign m a → (op.after m).get a = m.get a

/-- The operation stores a byte where slot 56 overlaps `PSW_FLAG` that is not there already. -/
def StoreOp.Overlaps (m : Eeprom) : StoreOp → Prop
  | .registTag tagId => m.count = 55 ∧ tagId 3 ≠ m.get pswFlag
  | .deleteRegisteredTag tagId => m.count = 56 ∧ tagId ∈ m.tags ∧ m.get (pswFlag + 4) ≠ m.get pswFlag
  | .delAllTag => m.count = 56 ∧ m.get pswFlag ≠ 0
  | .pswCheck keys _ => m.count = 56 ∧ m.get pswFlag ≠ 0xaa ∧ acceptedEntry keys ≠ none
  | .passwordSetting _ _ | .tpSaveAdjdata _ => False

variable (m : Eeprom)

section TagList

variable {a : Nat}

/-- `regist_tag` writes byte 0 and the next slot. -/
theorem get_registTag_above (tagId : TagId) (ha : a < 256) (above : 4 * (m.count + 1) < a) :
    (at24c02.exec (registTag tagId) m).2.get a = m.get a := by
  rcases Nat.lt_or_ge m.count 56 with room | full
  · rw [exec_registTag m tagId room, get_setSlot_outside (by omega) (by omega) _ ha (by omega)]
    exact get_set_ne _ _ (by omega) ha (by omega)
  · rw [exec_registTag_full m tagId full]
    exact get_set_ne _ _ (by omega) ha (by omega)

/-- The last byte of the slot that `regist_tag` fills. -/
theorem get_registTag_last (tagId : TagId) (room : m.count < 56) :
    (at24c02.exec (registTag tagId) m).2.get (4 * m.count + 4) = tagId 3 := by
  have written := congrFun (slot_setSlot_self (m := m.set 0 (countByte (m.count + 1))) (j := m.count + 1) (by omega) tagId) 3
  unfold slot at written
  rw [exec_registTag m tagId room]
  rwa [show 4 * (m.count + 1) - 3 + (3 : Fin 4).val = 4 * m.count + 4 from by show _ + 3 = _; omega] at written

theorem get_registerCard_above (tagId : TagId) (ha : a < 256) (above : 4 * (m.count + 1) < a) :
    (at24c02.exec (registerCard tagId) m).2.get a = m.get a := by
  rw [exec_registerCard]
  split
  · rfl
  · exact get_registTag_above m tagId ha above

/-- What `delete_registered_tag` leaves in a byte past byte 0 and the counted slots. -/
theorem get_deleteRegisteredTag_above (tagId : TagId) (small : m.count ≤ 62) (ha : a < 256) (above : 4 * m.count < a) :
    (at24c02.exec (deleteRegisteredTag tagId) m).2.get a = m.get a := by
  by_cases present : tagId ∈ m.tags
  · obtain ⟨lower, upper, -, -⟩ := lastMatch_spec present
    rw [exec_deleteRegisteredTag m tagId small present, get_set_ne _ _ (by omega) ha (by omega),
      get_shiftDown_outside lower (by omega) ha (by omega), get_clearMatches_outside tagId (by omega) ha (.inr above)]
  · rw [exec_deleteRegisteredTag_absent m tagId present]

theorem get_delAllTag_above (ha : a < 256) (above : 4 * m.count < a) :
    (at24c02.exec delAllTag m).2.get a = m.get a := by
  have bound := m.count_lt
  by_cases none : m.count = 0
  · rw [exec_delAllTag_empty m none]
  · rw [exec_delAllTag m none, get_set_ne _ _ (by omega) ha (by omega)]
    exact get_clearSlots_outside (by omega) ha (.inr above)

/-- The last byte of the counted slots after `DEL_ALL_TAG`. -/
theorem get_delAllTag_last (filled : m.count ≠ 0) : (at24c02.exec delAllTag m).2.get (4 * m.count) = 0 := by
  have bound := m.count_lt
  obtain ⟨n, hn⟩ : ∃ n, m.count = n + 1 := ⟨m.count - 1, by omega⟩
  rw [exec_delAllTag m filled, get_set_ne _ _ (by omega) (by omega) (by omega), hn]
  have zeroed := congrFun (slot_setSlot_self (m := m.clearSlots n) (j := n + 1) (by omega) 0) 3
  exact zeroed

/-- The shift moves the slot past the end into the last counted one. -/
theorem get_deleteRegisteredTag_last (tagId : TagId) (small : m.count ≤ 62) (present : tagId ∈ m.tags) :
    (at24c02.exec (deleteRegisteredTag tagId) m).2.get (4 * m.count) = m.get (4 * m.count + 4) := by
  obtain ⟨lower, upper, -, -⟩ := lastMatch_spec present
  set z := m.lastMatch tagId m.count
  have shifted : ((m.clearMatches tagId m.count).shiftDown z (m.count - z + 1)).slot m.count = m.slot (m.count + 1) := by
    rw [slot_shiftDown lower (by omega) (by omega) (by omega), if_pos (by omega),
      slot_clearMatches tagId (by omega) (by omega) (by omega), if_neg (by omega)]
  have last := congrFun shifted 3
  rw [exec_deleteRegisteredTag m tagId small present, get_set_ne _ _ (by omega) (by omega) (by omega)]
  unfold slot at last
  rwa [show 4 * m.count - 3 + (3 : Fin 4).val = 4 * m.count from by show _ + 3 = _; omega,
    show 4 * (m.count + 1) - 3 + (3 : Fin 4).val = 4 * m.count + 4 from by show _ + 3 = _; omega] at last

end TagList

section Password

variable {keys : List UInt8} {psw : CharBuffer} {a : Nat}

/-- `password_setting` writes the six password bytes only. -/
theorem get_passwordSetting_outside (ha : a < 256) (outside : ¬ (pswAddBase ≤ a ∧ a < pswAddBase + 6)) :
    (at24c02.exec (passwordSetting keys psw) m).2.get a = m.get a := by
  by_cases accepted : ∃ out, getUserInputPsw keys 0 psw = some (1, out)
  · obtain ⟨out, entry⟩ := accepted
    rw [exec_passwordSetting m entry]
    exact get_putPsw_outside (Nat.le_refl _) ha outside
  · rw [(exec_passwordSetting_refused m (fun out entry => accepted ⟨out, entry⟩)).2.1]

/-- `psw_check` writes the password area only. -/
theorem get_pswCheck_outside (ha : a < 256) (outside : ¬ (pswFlag ≤ a ∧ a < pswAddBase + 6)) :
    (at24c02.exec (pswCheck keys psw) m).2.get a = m.get a := by
  unfold pswFlag pswAddBase at outside
  by_cases accepted : ∃ out, getUserInputPsw keys 0 psw = some (1, out)
  · obtain ⟨out, entry⟩ := accepted
    by_cases set : m.get pswFlag = 0xaa
    · rw [exec_pswCheck_set m set]
    · rw [exec_pswCheck_accepted m set entry, get_set_ne _ _ (by decide) ha (by unfold pswFlag; omega)]
      exact get_putPsw_outside (Nat.le_refl _) ha (by unfold pswAddBase; omega)
  · rw [exec_pswCheck_refused m (fun out entry => accepted ⟨out, entry⟩)]

end Password

/-- `TP_Save_Adjdata` writes the calibration area only. -/
theorem get_tpSaveAdjdata_outside (xfac : Fin 14 → UInt8) {a : Nat} (below : a < saveAddrBase) :
    (at24c02.exec (tpSaveAdjdata xfac) m).2.get a = m.get a := by
  unfold saveAddrBase at below
  unfold tpSaveAdjdata saveAddrBase
  rw [Device.exec_bind, exec_writeOneByte (by omega), get_set_ne _ _ (by omega) (by omega) (by omega)]
  exact get_exec_at24cxxWrite _ _ m (by simp) a (by omega) (by simp; omega)

section KeepsForeign

variable (tagId : TagId)

theorem keepsForeign_registTag (bound : m.count ≤ 56) : (StoreOp.registTag tagId).KeepsForeign m ↔ ¬ (StoreOp.registTag tagId).Overlaps m := by
  simp only [StoreOp.KeepsForeign, StoreOp.Foreign, StoreOp.Overlaps, StoreOp.after, ReservedByte, pswFlag, pswAddBase, saveAddrBase]
  have written := fun (last : m.count = 55) => last ▸ get_registTag_last m tagId (by omega)
  constructor
  · rintro keeps ⟨last, other⟩
    have kept := keeps 224 (by omega) (.inl ⟨by omega, by omega⟩)
    exact other ((written last).symm.trans kept)
  · intro apart a ha foreign
    by_cases last : m.count = 55
    · have same : tagId 3 = m.get 224 := by
        by_contra other
        exact apart ⟨last, other⟩
      by_cases here : a = 224
      · subst here
        exact (written last).trans same
      · exact get_registTag_above m tagId ha (by omega)
    · by_cases full : m.count = 56
      · rw [exec_registTag_full m tagId (by omega)]
        exact get_set_ne _ _ (by omega) ha (by omega)
      · exact get_registTag_above m tagId ha (by omega)

theorem keepsForeign_deleteRegisteredTag (bound : m.count ≤ 56) :
    (StoreOp.deleteRegisteredTag tagId).KeepsForeign m ↔ ¬ (StoreOp.deleteRegisteredTag tagId).Overlaps m := by
  simp only [StoreOp.KeepsForeign, StoreOp.Foreign, StoreOp.Overlaps, StoreOp.after, ReservedByte, pswFlag, pswAddBase, saveAddrBase]
  have shifted := fun (full : m.count = 56) (present : tagId ∈ m.tags) => full ▸ get_deleteRegisteredTag_last m tagId (by omega) present
  constructor
  · rintro keeps ⟨full, present, other⟩
    exact other ((shifted full present).symm.trans (keeps 224 (by omega) (.inl ⟨by omega, by omega⟩)))
  · intro apart a ha foreign
    by_cases here : m.count = 56 ∧ a = 224
    · obtain ⟨full, rfl⟩ := here
      by_cases present : tagId ∈ m.tags
      · have same : m.get (224 + 4) = m.get 224 := by
          by_contra other
          exact apart ⟨full, present, other⟩
        exact (shifted full present).trans same
      · rw [exec_deleteRegisteredTag_absent m tagId present]
    · exact get_deleteRegisteredTag_above m tagId (by omega) ha (by omega)

theorem keepsForeign_delAllTag (bound : m.count ≤ 56) : StoreOp.delAllTag.KeepsForeign m ↔ ¬ StoreOp.delAllTag.Overlaps m := by
  simp only [StoreOp.KeepsForeign, StoreOp.Foreign, StoreOp.Overlaps, StoreOp.after, ReservedByte, pswFlag, pswAddBase, saveAddrBase]
  have zeroed := fun (full : m.count = 56) => full ▸ get_delAllTag_last m (by omega)
  constructor
  · rintro keeps ⟨full, other⟩
    exact other ((keeps 224 (by omega) (.inl ⟨by omega, by omega⟩)).symm.trans (zeroed full))
  · intro apart a ha foreign
    by_cases here : m.count = 56 ∧ a = 224
    · obtain ⟨full, rfl⟩ := here
      have same : m.get 224 = 0 := by
        by_contra other
        exact apart ⟨full, other⟩
      exact (zeroed full).trans same.symm
    · exact get_delAllTag_above m ha (by omega)

theorem keepsForeign_passwordSetting (bound : m.count ≤ 56) (keys : List UInt8) (psw : CharBuffer) :
    (StoreOp.passwordSetting keys psw).KeepsForeign m := by
  intro a ha foreign
  simp only [StoreOp.Foreign, TagByte] at foreign
  exact get_passwordSetting_outside m ha (by unfold pswAddBase modCntTagAdd at *; omega)

theorem keepsForeign_pswCheck (bound : m.count ≤ 56) (keys : List UInt8) (psw : CharBuffer) :
    (StoreOp.pswCheck keys psw).KeepsForeign m ↔ ¬ (StoreOp.pswCheck keys psw).Overlaps m := by
  simp only [StoreOp.KeepsForeign, StoreOp.Foreign, StoreOp.Overlaps, StoreOp.after, TagByte, modCntTagAdd]
  constructor
  · rintro keeps ⟨full, unset, accepted⟩
    obtain ⟨e, entry⟩ := Option.ne_none_iff_exists'.mp accepted
    obtain ⟨out, returned, -⟩ := getUserInputPsw_accepted entry psw
    have kept := keeps pswFlag (by decide) (.inr ⟨by decide, by rw [full]; decide⟩)
    rw [exec_pswCheck_accepted m unset returned, get_set_self] at kept
    exact unset kept.symm
  · intro apart a ha foreign
    by_cases here : m.count = 56 ∧ a = pswFlag
    · obtain ⟨full, rfl⟩ := here
      by_cases set : m.get pswFlag = 0xaa
      · rw [exec_pswCheck_set m set]
      · have refused : acceptedEntry keys = none := by
          by_contra accepted
          exact apart ⟨full, set, accepted⟩
        rw [exec_pswCheck_refused m]
        intro out returned
        obtain ⟨e, entry⟩ := acceptedEntry_of_returned returned
        rw [refused] at entry
        contradiction
    · exact get_pswCheck_outside m ha (by unfold pswFlag pswAddBase at *; omega)

theorem keepsForeign_tpSaveAdjdata (bound : m.count ≤ 56) (xfac : Fin 14 → UInt8) : (StoreOp.tpSaveAdjdata xfac).KeepsForeign m := by
  intro a _ foreign
  simp only [StoreOp.Foreign, TagByte] at foreign
  exact get_tpSaveAdjdata_outside m xfac (by unfold modCntTagAdd saveAddrBase at *; omega)

end KeepsForeign

/-- **The areas are kept apart exactly when the last slot does not meet `PSW_FLAG`.** -/
theorem keepsForeign_iff (bound : m.count ≤ 56) (op : StoreOp) : op.KeepsForeign m ↔ ¬ op.Overlaps m := by
  cases op with
  | registTag tagId => exact keepsForeign_registTag m tagId bound
  | deleteRegisteredTag tagId => exact keepsForeign_deleteRegisteredTag m tagId bound
  | delAllTag => exact keepsForeign_delAllTag m bound
  | passwordSetting keys psw => exact iff_of_true (keepsForeign_passwordSetting m bound keys psw) not_false
  | pswCheck keys psw => exact keepsForeign_pswCheck m bound keys psw
  | tpSaveAdjdata xfac => exact iff_of_true (keepsForeign_tpSaveAdjdata m bound xfac) not_false

/-- The list only depends on byte 0 and the counted slots. -/
theorem Holds.of_same_below {l : AccessList TagId} {m m' : Eeprom} (h : Holds l m) (few : m.count ≤ 55)
    (same : ∀ a, a < 224 → m'.get a = m.get a) :
    Holds l m' ∧ m'.tags = m.tags := by
  have count := h.count
  have slots : m'.slots m.count = m.slots m.count := by
    apply slots_congr
    intro j first last
    funext i
    exact same _ (by omega)
  have holds : Holds l m' := .of_slots ((same 0 (by decide)).trans h.byte0) (by rw [← count, slots]; exact h.tags) h.bound
  exact ⟨holds, holds.tags.trans h.tags.symm⟩

/-- Up to 55 cards leave the bytes from `PSW_FLAG` on alone. -/
theorem Holds.registerCards {l : AccessList TagId} {m : Eeprom} (h : Holds l m) (ids : List TagId) (fresh : (l.keys ++ ids).Nodup)
    (room : l.keys.length + ids.length ≤ 56) :
    Holds ⟨l.keys ++ ids, fresh⟩ (DoorSecurity.registerCards m ids) ∧
      ∀ a, a < 256 → 4 * (l.keys.length + ids.length) < a → (DoorSecurity.registerCards m ids).get a = m.get a := by
  induction ids generalizing l m with
  | nil =>
    refine ⟨?_, fun a _ _ => rfl⟩
    have same : (⟨l.keys ++ [], fresh⟩ : AccessList TagId) = l := AccessList.ext (List.append_nil _)
    rw [same]
    exact h
  | cons id ids ih =>
    have absent : id ∉ l.keys := fun mem => (List.nodup_append.mp fresh).2.2 id mem id (by simp) rfl
    have keys := AccessList.register_of_notMem absent
    have count := h.count
    simp only [List.length_cons] at room
    have next := h.registerCard id (by omega)
    have fresh' : ((l.register id).keys ++ ids).Nodup := by rw [keys, List.append_assoc]; exact fresh
    obtain ⟨holds, frame⟩ := ih next fresh' (by rw [keys, List.length_append]; simp; omega)
    simp only [keys, List.append_assoc, List.length_append, List.length_singleton] at holds frame
    refine ⟨holds, fun a ha above => ?_⟩
    simp only [List.length_cons] at above
    exact (frame a ha (by omega)).trans (get_registerCard_above m id ha (by omega))

/-- The card whose last byte is `n`. -/
def numberedTag (n : Nat) : TagId := ![0, 0, 0, UInt8.ofNat n]

theorem numberedTags_nodup {n : Nat} (small : n ≤ 256) : ((List.range n).map numberedTag).Nodup := by
  apply List.Nodup.map_on _ List.nodup_range
  intro i hi j hj same
  have byte := congrArg UInt8.toNat (congrFun same 3)
  have hi := List.mem_range.mp hi
  have hj := List.mem_range.mp hj
  change i % 256 = j % 256 at byte
  omega

/-- A first boot with the password 1 on a blank part. -/
def firstBoot : Eeprom := (at24c02.exec (boot [1, 69] fun _ => 0) .blank).2

theorem firstBoot_bytes : firstBoot.get 0 = 0x80 ∧ firstBoot.get pswFlag = 0xaa ∧ firstBoot.password = [49, 0, 0, 0, 0, 0] := by
  decide

theorem firstBoot_registerCards {n : Nat} (small : n ≤ 56) :
    ∃ l, l.keys = (List.range n).map numberedTag ∧ Holds l (registerCards firstBoot ((List.range n).map numberedTag)) ∧
      ∀ a, a < 256 → 4 * n < a → (registerCards firstBoot ((List.range n).map numberedTag)).get a = firstBoot.get a := by
  obtain ⟨holds, frame⟩ := (Holds.empty_of firstBoot_bytes.1).registerCards ((List.range n).map numberedTag)
    (numberedTags_nodup (by omega)) (by simpa [AccessList.empty] using small)
  exact ⟨_, rfl, holds, fun a ha above => frame a ha (by simpa [AccessList.empty] using above)⟩

/-- A first boot and 55 cards: one place is left, and it ends on the flag. -/
def oneLeft : Eeprom := registerCards firstBoot ((List.range 55).map numberedTag)

theorem oneLeft_bytes : oneLeft.count = 55 ∧ oneLeft.get pswFlag = 0xaa := by
  obtain ⟨l, keys, holds, frame⟩ := firstBoot_registerCards (n := 55) (by decide)
  constructor
  · rw [oneLeft, holds.count, keys, List.length_map, List.length_range]
  · exact (frame pswFlag (by decide) (by decide)).trans firstBoot_bytes.2.1

/-- The last card may be one that ends on the flag's own value. -/
theorem keepsForeign_iff_lastCard : oneLeft.count = 55 ∧ (StoreOp.registTag (numberedTag 0xaa)).KeepsForeign oneLeft := by
  obtain ⟨count, flag⟩ := oneLeft_bytes
  refine ⟨count, (keepsForeign_iff oneLeft (by omega) (.registTag (numberedTag 0xaa))).mpr fun overlap => overlap.2 ?_⟩
  exact flag.symm

/-- Any other card's last byte replaces the flag. -/
theorem last_slot_overwrites_flag : oneLeft.count = 55 ∧ oneLeft.get pswFlag = 0xaa ∧
    (at24c02.exec (registTag (numberedTag 55)) oneLeft).2.get pswFlag = 55 ∧ ¬ (StoreOp.registTag (numberedTag 55)).KeepsForeign oneLeft := by
  obtain ⟨count, flag⟩ := oneLeft_bytes
  have written : (at24c02.exec (registTag (numberedTag 55)) oneLeft).2.get pswFlag = 55 := by
    have last := get_registTag_last oneLeft (numberedTag 55) (by omega)
    rwa [count] at last
  refine ⟨count, flag, written, fun keeps => ?_⟩
  have kept := keeps pswFlag (by decide) (.inl ⟨by decide, by decide⟩)
  rw [flag] at kept
  exact absurd (written.symm.trans kept) (by decide)

end DoorSecurity
