import DoorSecurity.Eeprom.Wires
import DoorSecurity.Tags.AccessList

/-!
# The access list down to the pins

The list's functions read inside the part as long as the count is below 63, so each of
them, run on the two pins against the part of the data sheet, does what it does as a
program of transactions. The refinement of the access list carries over: its image
is in the part's memory, and what the functions answer is what the list answers.
-/

namespace DoorSecurity
set_option autoImplicit false
open Bus Lts Wire TwoWire At24c02

section Confined

theorem confined_readOneByte {a : Nat} (small : a < 256) : (at24cxxReadOneByte a).Confined inPart := by
  refine ⟨⟨onBus_busAddr a, ?_⟩, fun _ => trivial⟩
  rintro x ⟨⟩
  rw [busAddr_of_lt small]

theorem confined_writeOneByte (a : Nat) (v : UInt8) : (at24cxxWriteOneByte a v).Confined inPart := by
  refine ⟨⟨onBus_busAddr a, ?_⟩, trivial⟩
  rintro x ⟨⟩

theorem confined_readStoredTagId {j : Nat} (first : 1 ≤ j) (last : j ≤ 63) : (readStoredTagId j).Confined inPart := by
  rw [readStoredTagId_eq first (by omega)]
  refine Prog.confined_bind (confined_readOneByte (by omega)) fun _ => ?_
  refine Prog.confined_bind (confined_readOneByte (by omega)) fun _ => ?_
  refine Prog.confined_bind (confined_readOneByte (by omega)) fun _ => ?_
  exact Prog.confined_map (confined_readOneByte (by omega)) _

theorem confined_writeTagBytes (cnt : Nat) (bytes : TagId) : (writeTagBytes cnt bytes).Confined inPart :=
  Prog.confined_forLoop fun _ _ _ _ => confined_writeOneByte _ _

theorem confined_at24cxxInit : at24cxxInit.Confined inPart := by
  refine Prog.confined_bind (confined_readOneByte (by decide)) fun b => ?_
  split
  · exact confined_writeOneByte _ _
  · trivial

theorem confined_tagMatchFrom (target : List Char) (n : Nat) : ∀ {j}, 1 ≤ j → j + n ≤ 64 → (tagMatchFrom target j n).Confined inPart := by
  induction n with
  | zero => intro j _ _; trivial
  | succ n ih =>
    intro j first last
    refine Prog.confined_bind (confined_readStoredTagId first (by omega)) fun stored => ?_
    split
    · trivial
    · exact ih (by omega) (by omega)

theorem confined_tagMatch (id : TagId) : (tagMatch id).Confined inPart := by
  refine Prog.confined_bind (confined_readOneByte (by decide)) fun b => ?_
  have bound := countOf_lt b
  split
  · trivial
  · exact confined_tagMatchFrom _ _ (Nat.le_refl _) (by omega)

theorem confined_registTag (id : TagId) : (registTag id).Confined inPart := by
  refine Prog.confined_bind (confined_readOneByte (by decide)) fun b => ?_
  refine Prog.confined_bind (confined_writeOneByte _ _) fun _ => ?_
  exact Prog.confined_map (confined_writeTagBytes _ _) _

theorem confined_registerCard (id : TagId) : (registerCard id).Confined inPart := by
  refine Prog.confined_bind (confined_tagMatch id) fun r => ?_
  split
  · trivial
  · exact Prog.confined_map (confined_registTag id) _

theorem confined_delAllTag : delAllTag.Confined inPart := by
  refine Prog.confined_bind (confined_readOneByte (by decide)) fun b => ?_
  split
  · trivial
  · refine Prog.confined_bind (Prog.confined_forLoop fun _ _ _ _ => confined_writeTagBytes _ _) fun _ => ?_
    exact Prog.confined_map (confined_writeOneByte _ _) _

theorem confined_listAllTags : listAllTags.Confined inPart := by
  refine Prog.confined_bind (confined_readOneByte (by decide)) fun b => ?_
  have bound := countOf_lt b
  split
  · trivial
  · refine Prog.confined_bind (Prog.confined_forLoop fun i _ _ upper => ?_) fun _ => trivial
    exact Prog.confined_map (confined_readStoredTagId (by omega) (by omega)) _

theorem confined_deleteSearch (target : List Char) {cnt : Nat} (small : cnt ≤ 63) : (deleteSearch target cnt).Confined inPart := by
  refine Prog.confined_forLoop fun j kz _ _ => ?_
  refine Prog.confined_bind (confined_readStoredTagId (by omega) (by omega)) fun stored => ?_
  split
  · exact Prog.confined_bind (confined_writeTagBytes _ _) fun _ => trivial
  · trivial

/-- The compaction reads the slot past the last one. -/
theorem confined_deleteCompact {cnt z : Nat} (small : cnt ≤ 62) (inside : z ≤ cnt) : (deleteCompact cnt z).Confined inPart := by
  refine Prog.confined_forLoop fun x _ _ _ => Prog.confined_forLoop fun y _ _ _ => ?_
  rw [copyTagByte, uint16_slot (by omega) (by omega) (by omega)]
  exact Prog.confined_bind (confined_readOneByte (by omega)) fun tem => confined_writeOneByte _ _

theorem confined_within {α : Type} {prog : Code α} (confined : prog.Confined inPart) (m : Eeprom) :
    at24c02.direct.Within (fun _ => inPart) prog m := confined.within (fun _ _ inside => inside) m

/-- `delete_registered_tag` stays inside the part below 63 tags. -/
theorem within_deleteRegisteredTag (m : Eeprom) (id : TagId) (small : m.count ≤ 62) :
    at24c02.direct.Within (fun _ => inPart) (deleteRegisteredTag id) m := by
  have count : countOf (m.get 0) = m.count := m.countOf_byte0
  have read : run at24c02.direct (at24cxxReadOneByte modCntTagAdd) m = (m.get 0, m) := exec_readOneByte_bind (by decide) .ret m
  have search : run at24c02.direct (deleteSearch (idString id) m.count) m = _ := exec_deleteSearch m id (by omega)
  unfold deleteRegisteredTag
  refine Handler.within_bind.mpr ⟨confined_within (confined_readOneByte (by decide)) m, ?_⟩
  rw [read]
  simp only [count]
  split
  · trivial
  · refine Handler.within_bind.mpr ⟨confined_within (confined_deleteSearch _ (by omega)) m, ?_⟩
    rw [search]
    dsimp only
    split
    · trivial
    · rename_i found
      have present : id ∈ m.slots m.count := by
        by_contra absent
        exact found (by rw [List.count_eq_zero_of_not_mem absent, Nat.sub_zero])
      obtain ⟨-, inside, -, -⟩ := Eeprom.lastMatch_spec present
      apply confined_within
      refine Prog.confined_bind (confined_deleteCompact small inside) fun _ => ?_
      exact Prog.confined_map (confined_writeOneByte _ _) _

end Confined

/-- A command's code, with what it answers. -/
def Command.code : Command → Code Reply
  | .init => do
    at24cxxInit
    return .silent
  | .register id => do
    registerCard id
    return .silent
  | .delete id => do
    let r ← deleteRegisteredTag id
    return .status r
  | .delAll => do
    let r ← delAllTag
    return .status r
  | .listAll => do
    let r ← listAllTags
    return .listing r.1 r.2
  | .tagMatch id => do
    let r ← DoorSecurity.tagMatch id
    return .status r

theorem exec_code (m : Eeprom) (c : Command) : at24c02.exec c.code m = eepromStore.step m c := by
  cases c <;> rw [Command.code, Device.exec_bind] <;> rfl

theorem within_code (m : Eeprom) (c : Command) (small : m.count ≤ 62) : at24c02.direct.Within (fun _ => inPart) c.code m := by
  cases c with
  | init => exact confined_within (Prog.confined_map confined_at24cxxInit _) m
  | register id => exact confined_within (Prog.confined_map (confined_registerCard id) _) m
  | delete id => exact Handler.within_bind.mpr ⟨within_deleteRegisteredTag m id small, trivial⟩
  | delAll => exact confined_within (Prog.confined_map confined_delAllTag _) m
  | listAll => exact confined_within (Prog.confined_map confined_listAllTags _) m
  | tagMatch id => exact confined_within (Prog.confined_map (confined_tagMatch id) _) m

/-- The functions of the source on the two pins. -/
def pinStore : Machine (TwoWire At24c02) Command Reply where
  step w c := run (bus part) (c.code.lower at24cxxPins) w

/-- The list is in the memory of the part, and the bus is at rest. -/
def HoldsOnWires (l : AccessList TagId) (w : TwoWire At24c02) : Prop := ∃ m, Holds l m ∧ OnWires m w

/-- **The pins refine the access list** below the capacity. -/
theorem pins_refine_list : Refinement pinStore listStore (fun w => RoomToRegister w.chip.mem) HoldsOnWires where
  answer {l w c} holds room := by
    obtain ⟨m, image, p, rfl⟩ := holds
    have bound := image.bound
    have count := image.count
    have call := run_pins ⟨p, rfl⟩ (within_code m c (by omega))
    rw [exec_code] at call
    exact call.1.trans (eeprom_refines_list.answer image room)
  keep {l w c} holds room := by
    obtain ⟨m, image, p, rfl⟩ := holds
    have bound := image.bound
    have count := image.count
    have call := run_pins ⟨p, rfl⟩ (within_code m c (by omega))
    rw [exec_code] at call
    exact ⟨_, eeprom_refines_list.keep image room, call.2⟩

/-- The first boot on the pins. -/
theorem HoldsOnWires.first_boot {m : Eeprom} {w : TwoWire At24c02} (onWires : OnWires m w)
    (start : m.get 0 = 0x80 ∨ m.get 0 &&& ifModified ≠ 0x80) :
    (pinStore.step w .init).1 = .silent ∧ HoldsOnWires .empty (pinStore.step w .init).2 := by
  have confined : (Command.code .init).Confined inPart := Prog.confined_map confined_at24cxxInit _
  have call := run_pins onWires (confined_within confined m)
  rw [exec_code] at call
  exact ⟨call.1, _, Holds.first_boot start, call.2⟩

/-- No registration on a full list. -/
def BelowCapacity (l : AccessList TagId) : Command → Prop
  | .register _ => l.keys.length ≠ 56
  | _ => True

theorem BelowCapacity.room {l : AccessList TagId} {w : TwoWire At24c02} {c : Command} (holds : HoldsOnWires l w)
    (below : BelowCapacity l c) : RoomToRegister w.chip.mem c := by
  obtain ⟨m, image, p, rfl⟩ := holds
  cases c with
  | register id => exact fun full => below (image.count.symm.trans full)
  | _ => trivial

/-- **From the first boot on, the list is kept on the pins**: what the functions answer when they
move the two lines against the part is what the list answers, over any sequence of commands
that registers nothing on a full list; the list's image is in the part's memory and both
lines are high. -/
theorem pin_runs_refine_list (m0 : Eeprom) (p0 : UInt8) (start : m0.get 0 = 0x80 ∨ m0.get 0 &&& ifModified ≠ 0x80)
    (cs : List Command) (below : listStore.Within BelowCapacity cs .empty) :
    let w := pinStore.run (.init :: cs) (atRest (resting true m0 p0))
    let l := listStore.run (.init :: cs) .empty
    w.1 = l.1 ∧ HoldsOnWires l.2 w.2 := by
  intro w l
  obtain ⟨silent, booted⟩ := HoldsOnWires.first_boot ⟨p0, rfl⟩ start
  have room := pins_refine_list.within BelowCapacity.room cs booted below
  obtain ⟨answers, holds⟩ := pins_refine_list.run cs booted room
  refine ⟨?_, holds⟩
  show (pinStore.step (atRest (resting true m0 p0)) .init).1 :: _ = Reply.silent :: (listStore.run cs .empty).1
  rw [silent, answers]

/-- Two cards on a blank part, one deleted, a wipe. -/
theorem pin_runs_refine_list_blank :
    let cs : List Command := [.register ![1, 2, 3, 4], .register ![5, 6, 7, 8], .delete ![1, 2, 3, 4], .tagMatch ![5, 6, 7, 8], .delAll]
    (pinStore.run (.init :: cs) (atRest (resting true .blank 0))).1 = [.silent, .silent, .silent, .status 1, .status 1, .status 1] := by
  intro cs
  have below : listStore.Within BelowCapacity cs .empty :=
    ⟨by unfold BelowCapacity; decide, by unfold BelowCapacity; decide, trivial, trivial, trivial, trivial⟩
  exact (pin_runs_refine_list .blank 0 (.inr (by decide)) cs below).1.trans (by decide)

end DoorSecurity
