import DoorSecurity.Bus.Lower
import DoorSecurity.Layout.Calibration
import DoorSecurity.Lts.Product

/-!
# One EEPROM as three stores

The access list, the password and the calibration share the part. The code of the latter
two reads and writes its own area only, and the tag functions stay below
`PSW_FLAG` while slot 56 is not filled. As long as no 56th card is registered, each
of the three therefore works as if it had a part of its own: what its calls return
is decided by its own calls (`stores_apart`).
-/

namespace DoorSecurity
set_option autoImplicit false
open Bus Eeprom Lts

section Area

variable {α C O : Type} {lo hi : Nat}

/-- An access to a cell from `lo` to below `hi`. -/
def InArea (lo hi : Nat) (r : Request BusAddr) : Prop := ∃ a, lo ≤ a ∧ a < hi ∧ r.addr = busAddr a

/-- The memory `m` with the cells of `own` from `lo` to below `hi`. -/
structure Overlaid (lo hi : Nat) (m own m' : Eeprom) : Prop where
  inside : ∀ {a}, lo ≤ a → a < hi → m'.get a = own.get a
  outside : ∀ {a}, a < 256 → ¬ (lo ≤ a ∧ a < hi) → m'.get a = m.get a

theorem own_simulates (fits : hi ≤ 256) (m : Eeprom) :
    Simulates at24c02.direct at24c02.direct (fun _ => InArea lo hi) (Overlaid lo hi m) where
  read {x m' own} overlaid inArea := by
    obtain ⟨a, lower, upper, same⟩ := inArea
    obtain rfl : x = busAddr a := same
    refine ⟨?_, overlaid⟩
    show at24c02.read m' (busAddr a) = at24c02.read own (busAddr a)
    rw [at24c02_read (by omega), at24c02_read (by omega), overlaid.inside lower upper]
  write {x v m' own} overlaid inArea := by
    obtain ⟨a, lower, upper, same⟩ := inArea
    obtain rfl : x = busAddr a := same
    show Overlaid lo hi m (at24c02.write own (busAddr a) v) (at24c02.write m' (busAddr a) v)
    rw [at24c02_write (by omega), at24c02_write (by omega)]
    constructor
    · intro b lower' upper'
      by_cases here : b = a
      · rw [here, get_set_self, get_set_self]
      · rw [get_set_ne _ _ (by omega) (by omega) here, get_set_ne _ _ (by omega) (by omega) here]
        exact overlaid.inside lower' upper'
    · intro b small apart
      rw [get_set_ne _ _ (by omega) small (by omega)]
      exact overlaid.outside small apart

/-- The same bytes from `lo` to below `hi`. -/
def AgreeOn (lo hi : Nat) (own m : Eeprom) : Prop := ∀ a, lo ≤ a → a < hi → m.get a = own.get a

/-- **A program that keeps to its area** runs on any memory as on its own, and changes nothing else. -/
theorem exec_confined (fits : hi ≤ 256) {prog : Code α} (confined : prog.Confined (InArea lo hi)) {own m : Eeprom}
    (same : AgreeOn lo hi own m) :
    (at24c02.exec prog m).1 = (at24c02.exec prog own).1 ∧ Overlaid lo hi m (at24c02.exec prog own).2 (at24c02.exec prog m).2 :=
  (own_simulates fits m).run prog ⟨fun lower upper => same _ lower upper, fun _ _ => rfl⟩
    (confined.within (fun _ _ inside => inside) own)

/-- Calls of code as a machine. -/
def codeStore (code : C → Code O) : Machine Eeprom C O where
  step m c := at24c02.exec (code c) m

theorem codeStore_refines {code : C → Code O} (fits : hi ≤ 256) (confined : ∀ c, (code c).Confined (InArea lo hi)) :
    Refinement (codeStore code) (codeStore code) (fun _ _ => True) (AgreeOn lo hi) where
  answer same _ := (exec_confined fits (confined _) same).1
  keep same _ := fun _ lower upper => (exec_confined fits (confined _) same).2.inside lower upper

/-- The rest of the memory. -/
theorem codeStore_outside {code : C → Code O} (fits : hi ≤ 256) (confined : ∀ c, (code c).Confined (InArea lo hi)) (m : Eeprom) (c : C)
    {a : Nat} (small : a < 256) (apart : ¬ (lo ≤ a ∧ a < hi)) : ((codeStore code).step m c).2.get a = m.get a :=
  (exec_confined fits (confined c) fun _ _ _ => rfl).2.outside small apart

theorem inArea_readOneByte {a : Nat} (lower : lo ≤ a) (upper : a < hi) : (at24cxxReadOneByte a).Confined (InArea lo hi) :=
  ⟨⟨a, lower, upper, rfl⟩, fun _ => trivial⟩

theorem inArea_writeOneByte {a : Nat} (lower : lo ≤ a) (upper : a < hi) (v : UInt8) : (at24cxxWriteOneByte a v).Confined (InArea lo hi) :=
  ⟨⟨a, lower, upper, rfl⟩, trivial⟩

theorem inArea_at24cxxWrite (fits : hi ≤ 256) (buffer : List UInt8) :
    ∀ {a : Nat}, lo ≤ a → a + buffer.length ≤ hi → (at24cxxWrite a buffer).Confined (InArea lo hi) := by
  induction buffer with
  | nil => intro a _ _; trivial
  | cons v buffer ih =>
    intro a lower upper
    rw [List.length_cons] at upper
    have next : uint16 (a + 1) = a + 1 := uint16_of_lt (show a + 1 < 65536 by omega)
    rw [at24cxxWrite, next]
    exact Prog.confined_bind (inArea_writeOneByte lower (by omega) v) fun _ => ih (by omega) (by omega)

theorem inArea_at24cxxRead (fits : hi ≤ 256) (n : Nat) :
    ∀ {a : Nat}, lo ≤ a → a + n ≤ hi → (at24cxxRead a n).Confined (InArea lo hi) := by
  induction n with
  | zero => intro a _ _; trivial
  | succ n ih =>
    intro a lower upper
    have next : uint16 (a + 1) = a + 1 := uint16_of_lt (show a + 1 < 65536 by omega)
    rw [at24cxxRead, next]
    refine Prog.confined_bind (inArea_readOneByte lower (by omega)) fun b => ?_
    exact Prog.confined_map (ih (by omega) (by omega)) _

end Area

/-- The calls of `password.c`. -/
inductive PasswordCall where
  | passwordSetting (keys : List UInt8) (psw : CharBuffer)
  | pswCheck (keys : List UInt8) (psw : CharBuffer)
  | matchPsw (keys : List UInt8) (psw : CharBuffer)

/-- A call's code, with what it returns; `psw_check` returns nothing. -/
def PasswordCall.code : PasswordCall → Code (Option UInt8)
  | .passwordSetting keys psw => DoorSecurity.passwordSetting keys psw
  | .pswCheck keys psw => do
    let r ← DoorSecurity.pswCheck keys psw
    return r.map fun _ => 0
  | .matchPsw keys psw => DoorSecurity.matchPsw keys psw

/-- The calls for the calibration. -/
inductive CalibrationCall where
  | tpSaveAdjdata (xfac : Fin 14 → UInt8)
  | tpGetAdjdata (s : Adjdata)

def CalibrationCall.code : CalibrationCall → Code (Option (UInt8 × Adjdata))
  | .tpSaveAdjdata xfac => do
    DoorSecurity.tpSaveAdjdata xfac
    return none
  | .tpGetAdjdata s => do
    let r ← DoorSecurity.tpGetAdjdata s
    return some r

section Confined

/-- The flag and the six bytes after it. -/
def PasswordArea : Request BusAddr → Prop := InArea pswFlag (pswAddBase + 6)

/-- The fourteen bytes of `tp_dev` and their mark. -/
def CalibrationArea : Request BusAddr → Prop := InArea saveAddrBase (saveAddrBase + 15)

theorem inArea_passwordSetting (keys : List UInt8) (psw : CharBuffer) : (passwordSetting keys psw).Confined PasswordArea := by
  unfold passwordSetting
  cases getUserInputPsw keys 0 psw with
  | none => trivial
  | some answer =>
    obtain ⟨r, out⟩ := answer
    dsimp only
    split
    · refine Prog.confined_bind (Prog.confined_forLoop fun i _ _ upper => ?_) fun _ => trivial
      exact inArea_writeOneByte (by unfold pswFlag pswAddBase; omega) (by omega) _
    · trivial

theorem inArea_pswCheck (keys : List UInt8) (psw : CharBuffer) : (pswCheck keys psw).Confined PasswordArea := by
  refine Prog.confined_bind (inArea_readOneByte (Nat.le_refl _) (by decide)) fun tem => ?_
  split
  · refine Prog.confined_bind (inArea_passwordSetting keys psw) fun r => ?_
    cases r with
    | none => trivial
    | some r =>
      dsimp only
      split
      · exact Prog.confined_bind (inArea_writeOneByte (Nat.le_refl _) (by decide) _) fun _ => trivial
      · trivial
  · trivial

/-- `Match_psw` only reads the six bytes. -/
theorem confined_matchPsw (keys : List UInt8) (psw : CharBuffer) {area : Request BusAddr → Prop}
    (reads : ∀ i, i < 6 → area (.read (busAddr (pswAddBase + i)))) : (matchPsw keys psw).Confined area := by
  refine Prog.confined_bind (Prog.confined_forLoop fun i _ _ upper => ?_) fun eeprpmPsw => ?_
  · have read : (at24cxxReadOneByte (pswAddBase + i)).Confined area := ⟨reads i (by omega), fun _ => trivial⟩
    exact Prog.confined_map read _
  · cases getUserInputPsw keys 0 psw with
    | none => trivial
    | some answer =>
      dsimp only
      split
      · split <;> trivial
      · trivial

theorem PasswordCall.confined (c : PasswordCall) : c.code.Confined PasswordArea := by
  cases c with
  | passwordSetting keys psw => exact inArea_passwordSetting keys psw
  | pswCheck keys psw => exact Prog.confined_map (inArea_pswCheck keys psw) _
  | matchPsw keys psw =>
    exact confined_matchPsw keys psw fun i upper => ⟨pswAddBase + i, by unfold pswFlag pswAddBase; omega, by omega, rfl⟩

theorem CalibrationCall.confined (c : CalibrationCall) : c.code.Confined CalibrationArea := by
  cases c with
  | tpSaveAdjdata xfac =>
    refine Prog.confined_map (Prog.confined_bind (inArea_at24cxxWrite (by decide) _ (Nat.le_refl _) (by simp)) fun _ => ?_) _
    exact inArea_writeOneByte (by omega) (by omega) _
  | tpGetAdjdata s =>
    refine Prog.confined_map (Prog.confined_bind (inArea_readOneByte (by omega) (by omega)) fun temp => ?_) _
    split
    · exact Prog.confined_map (inArea_at24cxxRead (by decide) 14 (Nat.le_refl _) (by omega)) _
    · trivial

end Confined

section Tags

variable {l : AccessList TagId} {m m' : Eeprom} {c : Command}

/-- No registration of a 56th card. -/
def KeepsApart (l : AccessList TagId) : Command → Prop
  | .register id => id ∈ l.keys ∨ l.keys.length < 55
  | _ => True

/-- The same on the part. -/
def RoomApart (m : Eeprom) : Command → Prop
  | .register id => id ∈ m.tags ∨ m.count < 55
  | _ => True

/-- The list is in the part, below slot 56. -/
structure HoldsApart (l : AccessList TagId) (m : Eeprom) : Prop where
  holds : Holds l m
  few : l.keys.length ≤ 55

theorem roomApart_iff (h : HoldsApart l m) : RoomApart m c ↔ KeepsApart l c := by
  cases c with
  | register id =>
    show id ∈ m.tags ∨ m.count < 55 ↔ id ∈ l.keys ∨ l.keys.length < 55
    rw [h.holds.mem, h.holds.count]
  | _ => exact Iff.rfl

theorem HoldsApart.of_same_below (h : HoldsApart l m) (same : ∀ a, a < 224 → m'.get a = m.get a) : HoldsApart l m' := by
  have few := h.few
  exact ⟨(h.holds.of_same_below (by rw [h.holds.count]; exact few) same).1, few⟩

theorem HoldsApart.roomToRegister (h : HoldsApart l m) : RoomToRegister m c := by
  have count := h.holds.count
  have few := h.few
  cases c with
  | register id => exact fun full => by omega
  | _ => trivial

/-- The tag functions stay below `PSW_FLAG`. -/
theorem HoldsApart.get_above (h : HoldsApart l m) (room : RoomApart m c) {a : Nat} (above : 224 ≤ a) (small : a < 256) :
    (eepromStore.step m c).2.get a = m.get a := by
  have count := h.holds.count
  have few := h.few
  cases c with
  | init => exact congrArg (·.2.get a) h.holds.init_keeps
  | register id =>
    show (at24c02.exec (registerCard id) m).2.get a = m.get a
    obtain listed | free := room
    · rw [exec_registerCard, if_pos listed]
    · exact get_registerCard_above m id small (by omega)
  | delete id => exact get_deleteRegisteredTag_above m id (by omega) small (by omega)
  | delAll => exact get_delAllTag_above m small (by omega)
  | listAll => exact congrArg (·.2.get a) (exec_listAllTags m)
  | tagMatch id => exact congrArg (·.2.get a) (exec_tagMatch m id)

/-- The list stays below slot 56. -/
theorem few_step (few : l.keys.length ≤ 55) (apart : KeepsApart l c) : (listStore.step l c).2.keys.length ≤ 55 := by
  cases c with
  | register id =>
    show (l.register id).keys.length ≤ 55
    by_cases listed : id ∈ l.keys
    · rw [AccessList.register_of_mem listed]
      exact few
    · rw [AccessList.register_of_notMem listed, List.length_append, List.length_singleton]
      have free := apart.resolve_left listed
      omega
  | delete id => exact (List.length_erase_le).trans few
  | delAll => exact Nat.zero_le _
  | _ => exact few

end Tags

/-- **The part refines the list**, below slot 56. -/
theorem tags_refine : Refinement eepromStore listStore RoomApart HoldsApart where
  answer h _ := eeprom_refines_list.answer h.holds h.roomToRegister
  keep h room := ⟨eeprom_refines_list.keep h.holds h.roomToRegister, few_step h.few ((roomApart_iff h).mp room)⟩

section Stores

variable {A B C : Type}

def firsts (l : List (A ⊕ B ⊕ C)) : List A := l.filterMap Sum.getLeft?

def seconds (l : List (A ⊕ B ⊕ C)) : List B := (l.filterMap Sum.getRight?).filterMap Sum.getLeft?

def thirds (l : List (A ⊕ B ⊕ C)) : List C := (l.filterMap Sum.getRight?).filterMap Sum.getRight?

def passwordStore : Machine Eeprom PasswordCall (Option UInt8) := codeStore PasswordCall.code

def calibrationStore : Machine Eeprom CalibrationCall (Option (UInt8 × Adjdata)) := codeStore CalibrationCall.code

/-- The calls of the three, in any order, on one part. -/
def sharedStore : Machine Eeprom (Command ⊕ PasswordCall ⊕ CalibrationCall) (Reply ⊕ Option UInt8 ⊕ Option (UInt8 × Adjdata)) :=
  eepromStore.shared (passwordStore.shared calibrationStore)

/-- The list, and a part for each of the other two. -/
def ownStores : Machine (AccessList TagId × Eeprom × Eeprom) (Command ⊕ PasswordCall ⊕ CalibrationCall)
    (Reply ⊕ Option UInt8 ⊕ Option (UInt8 × Adjdata)) :=
  listStore.par (passwordStore.par calibrationStore)

/-- The part holds what the three have on their own. -/
def HoldsAll (own : AccessList TagId × Eeprom × Eeprom) (m : Eeprom) : Prop :=
  HoldsApart own.1 m ∧ AgreeOn pswFlag (pswAddBase + 6) own.2.1 m ∧ AgreeOn saveAddrBase (saveAddrBase + 15) own.2.2 m

theorem password_calibration_refine :
    Refinement (passwordStore.shared calibrationStore) (passwordStore.par calibrationStore) (fun _ => Sum.elim (fun _ => True) fun _ => True)
      (fun own m => AgreeOn pswFlag (pswAddBase + 6) own.1 m ∧ AgreeOn saveAddrBase (saveAddrBase + 15) own.2 m) :=
  Refinement.shared (codeStore_refines (by decide) PasswordCall.confined) (codeStore_refines (by decide) CalibrationCall.confined)
    (fun {_ _ m c} _ same _ a lower upper =>
      (codeStore_outside (by decide) PasswordCall.confined m c (by unfold saveAddrBase at upper; omega)
        (by unfold saveAddrBase at lower; unfold pswFlag pswAddBase; omega)).trans (same a lower upper))
    (fun {_ _ m d} same _ _ a lower upper =>
      (codeStore_outside (by decide) CalibrationCall.confined m d (by unfold pswAddBase at upper; omega)
        (by unfold pswAddBase at upper; unfold saveAddrBase; omega)).trans (same a lower upper))

/-- What the other two do to the part below `PSW_FLAG`. -/
theorem password_calibration_below (m : Eeprom) (d : PasswordCall ⊕ CalibrationCall) {a : Nat} (below : a < 224) :
    ((passwordStore.shared calibrationStore).step m d).2.get a = m.get a := by
  cases d with
  | inl c => exact codeStore_outside (by decide) PasswordCall.confined m c (by omega) (by unfold pswFlag; omega)
  | inr c => exact codeStore_outside (by decide) CalibrationCall.confined m c (by omega) (by unfold saveAddrBase; omega)

/-- **The part refines the three stores.** -/
theorem stores_refine :
    Refinement sharedStore ownStores (fun m => Sum.elim (RoomApart m) (Sum.elim (fun _ => True) fun _ => True)) HoldsAll :=
  Refinement.shared tags_refine password_calibration_refine
    (fun h same room =>
      ⟨fun a lower upper => (h.get_above room lower (by unfold pswAddBase at upper; omega)).trans (same.1 a lower upper),
        fun a lower upper => (h.get_above room (by unfold saveAddrBase at lower; omega) upper).trans (same.2 a lower upper)⟩)
    (fun {_ _ m d} h _ _ => h.of_same_below fun _ below => password_calibration_below m d below)

/-- The first boot, as the three find it. -/
theorem HoldsAll.first_boot {m : Eeprom} (start : m.get 0 = 0x80 ∨ m.get 0 &&& ifModified ≠ 0x80) :
    HoldsAll (.empty, m, m) (eepromStore.step m .init).2 := by
  have kept : ∀ a, 1 ≤ a → a < 256 → (at24c02.exec at24cxxInit m).2.get a = m.get a := by
    intro a above small
    rw [exec_at24cxxInit]
    split
    · rfl
    · exact get_set_ne _ _ (by decide) small (by omega)
  refine ⟨⟨Holds.first_boot start, Nat.zero_le _⟩, fun a lower upper => ?_, fun a lower upper => ?_⟩
  · exact kept a (by unfold pswFlag at lower; omega) (by unfold pswAddBase at upper; omega)
  · exact kept a (by unfold saveAddrBase at lower; omega) upper

/-- **Three stores on one part.** From a first boot on, in every sequence of calls that registers no
56th card, the tag functions answer as the list of their own calls does, and the calls of the password and of the
calibration return what they would return on a part of their own; in the end each has its own bytes
in the part. -/
theorem stores_apart (m0 : Eeprom) (start : m0.get 0 = 0x80 ∨ m0.get 0 &&& ifModified ≠ 0x80)
    (cs : List (Command ⊕ PasswordCall ⊕ CalibrationCall)) (apart : listStore.Within KeepsApart (firsts cs) .empty) :
    let r := sharedStore.run (.inl .init :: cs) m0
    let tags := listStore.run (.init :: firsts cs) .empty
    let password := passwordStore.run (seconds cs) m0
    let calibration := calibrationStore.run (thirds cs) m0
    firsts r.1 = tags.1 ∧ seconds r.1 = password.1 ∧ thirds r.1 = calibration.1 ∧
      Holds tags.2 r.2 ∧ AgreeOn pswFlag (pswAddBase + 6) password.2 r.2 ∧ AgreeOn saveAddrBase (saveAddrBase + 15) calibration.2 r.2 := by
  intro r tags password calibration
  have free : (passwordStore.par calibrationStore).Within (fun _ => Sum.elim (fun _ => True) fun _ => True)
      (cs.filterMap Sum.getRight?) (m0, m0) :=
    Machine.within_of_always _ (fun _ d => by cases d <;> trivial) _ _
  have within : ownStores.Within (fun own => Sum.elim (KeepsApart own.1) (Sum.elim (fun _ => True) fun _ => True)) cs (.empty, m0, m0) :=
    (Machine.within_par listStore (passwordStore.par calibrationStore) cs (.empty, m0, m0)).mpr ⟨apart, free⟩
  have booted := HoldsAll.first_boot start
  have room := stores_refine.within (fun {own m c} all meets => by
    cases c with
    | inl c => exact (roomApart_iff all.1).mpr meets
    | inr d => exact meets) cs booted within
  obtain ⟨answers, holds, psw, adj⟩ := stores_refine.run cs booted room
  obtain ⟨tagAnswers, others, final⟩ := Machine.run_par listStore (passwordStore.par calibrationStore) cs (.empty, m0, m0)
  obtain ⟨pswAnswers, adjAnswers, final'⟩ := Machine.run_par passwordStore calibrationStore (cs.filterMap Sum.getRight?) (m0, m0)
  have own : (ownStores.run cs (.empty, m0, m0)).2 = (tags.2, password.2, calibration.2) := by
    refine final.trans ?_
    rw [final']
    rfl
  rw [own] at holds psw adj
  refine ⟨?_, ?_, ?_, holds.holds, psw, adj⟩
  · exact congrArg (Reply.silent :: ·) ((congrArg firsts answers).trans tagAnswers)
  · exact (congrArg seconds answers).trans ((congrArg (List.filterMap Sum.getLeft?) others).trans pswAnswers)
  · exact (congrArg thirds answers).trans ((congrArg (List.filterMap Sum.getRight?) others).trans adjAnswers)

/-- The password 1, a card and a calibration on a blank part, then two entries, the card and the calibration again. -/
theorem stores_apart_blank :
    let cs : List (Command ⊕ PasswordCall ⊕ CalibrationCall) := [.inr (.inl (.pswCheck [1, 69] fun _ => 0)), .inl (.register ![1, 2, 3, 4]),
      .inr (.inr (.tpSaveAdjdata fun i => UInt8.ofNat i)), .inr (.inl (.matchPsw [1, 69] fun _ => 0)),
      .inr (.inl (.matchPsw [2, 69] fun _ => 0)), .inl (.tagMatch ![1, 2, 3, 4]), .inr (.inr (.tpGetAdjdata ⟨[], 0, 0⟩))]
    let r := sharedStore.run (.inl .init :: cs) .blank
    firsts r.1 = [.silent, .silent, .status 1] ∧ seconds r.1 = [some 0, some 1, some 2] ∧
      thirds r.1 = [none, some (1, ⟨List.ofFn fun i : Fin 14 => UInt8.ofNat i, 0x90, 0xD0⟩)] := by
  intro cs r
  have apart : listStore.Within KeepsApart (firsts cs) .empty := ⟨.inr (by decide), trivial, trivial⟩
  obtain ⟨tags, password, calibration, -⟩ := stores_apart .blank (.inr (by decide)) cs apart
  exact ⟨tags.trans (by decide), password.trans (by decide), calibration.trans (by decide)⟩

end Stores

end DoorSecurity
