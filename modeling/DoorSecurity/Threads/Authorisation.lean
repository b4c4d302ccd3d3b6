import DoorSecurity.Password.Agreement
import DoorSecurity.Threads.System

/-!
# Whom the door opens for

The door is to open for a card only if a register session that a password opened read
and stored that card, and nothing has removed it since. The past of a run says
so event by event (`Registered`), and the tag list in the EEPROM is what carries it
to the match: the listed IDs are those registered in that sense. `DEL_ALL_TAG` takes no
lock, so it may come between the match and the release of the door, and just then
the door opens for a card that has been removed (`door_authorised_iff`).
-/

namespace DoorSecurity
set_option autoImplicit false
open Bus Eeprom Lts

/-- An event of a run, with the state that it found. -/
abbrev Entry := DoorSystem × SystemEvent

/-- Runs with at most 55 tags stored at once. -/
def FewTags (s : DoorSystem) (x : Entry) (s' : DoorSystem) : Prop :=
  x.1 = s ∧ SystemStep s x.2 s' ∧ s'.eeprom.tags.length ≤ 55

section Past

/-- `password_setting` returned 1, called at the boot or from the menu, and left `bytes`. -/
def Entry.StoresPassword (bytes : List UInt8) : Entry → Prop
  | (s, .boot keys psw) =>
    let m := (at24c02.exec at24cxxInit s.eeprom).2
    m.get pswFlag ≠ 0xaa ∧ (at24c02.exec (passwordSetting keys psw) m).1 = some 1 ∧
      (at24c02.exec (passwordSetting keys psw) m).2.password = bytes
  | (s, .thread .touchThread (.passwordSetting _) keys psw) =>
    (at24c02.exec (passwordSetting keys psw) s.eeprom).1 = some 1 ∧ (at24c02.exec (passwordSetting keys psw) s.eeprom).2.password = bytes
  | _ => False

/-- The event is thread `t` with label `l`. -/
def Entry.Does (t : Thread) (l : Label) (x : Entry) : Prop := ∃ keys psw, x.2 = .thread t l keys psw

def SystemEvent.endsSession : SystemEvent → Bool
  | .boot .. => true
  | .thread .touchThread (.release .matchThreadLock) .. => true
  | _ => false

/-- Another card read of `t`, or the end of all. -/
def SystemEvent.readsCard (t : Thread) : SystemEvent → Bool
  | .boot .. => true
  | .thread u l .. => u = t && l.readsCard
  | .delAllTag => false

def SystemEvent.removes (tagId : TagId) : SystemEvent → Bool
  | .delAllTag => true
  | .thread .touchThread (.deleteRegisteredTag id) .. => id = tagId
  | _ => false

/-- `tag_match` returned to `match_thread`. -/
def SystemEvent.matches : SystemEvent → Bool
  | .thread .matchThread (.tagMatch ..) .. => true
  | _ => false

/-- `Match_psw` of the register menu returned 1 against bytes that `password_setting` had
stored, and the menu has not been left since. -/
def SessionOpen : List Entry → Prop :=
  Since (fun x => x.2.endsSession = false) fun x older =>
    x.Does .touchThread (.matchPsw .register 1) ∧ ∃ y ∈ older, y.StoresPassword x.1.eeprom.password

/-- In an open register session, the newest `Read_ID` returned `MI_OK` with this ID. -/
def ReadInSession (tagId : TagId) : List Entry → Prop :=
  Since (fun x => x.2.endsSession = false ∧ x.2.readsCard .touchThread = false) fun x older =>
    x.Does .touchThread (.pcdAnticoll (some tagId) true) ∧ SessionOpen older

/-- `regist_tag` stored what such a session had read, and no deletion of this ID and no
`DEL_ALL_TAG` has come since. -/
def Registered (tagId : TagId) : List Entry → Prop :=
  Since (fun x => x.2.removes tagId = false) fun x older => x.Does .touchThread (.registTag tagId) ∧ ReadInSession tagId older

/-- The newest `Read_ID` of `match_thread` returned `MI_OK` with this ID. -/
def ReadByMatch (tagId : TagId) : List Entry → Prop :=
  Since (fun x => x.2.readsCard .matchThread = false) fun x _ => x.Does .matchThread (.pcdAnticoll (some tagId) true)

/-- A `DEL_ALL_TAG` has come since `tag_match` last returned to `match_thread`. -/
def WipedSinceMatch : List Entry → Prop := Since (fun x => x.2.matches = false) fun x _ => x.2 = .delAllTag

end Past

section Touch

/-- In the register menu, past the password. -/
def TouchPc.inRegister : TouchPc → Bool
  | .verified .register | .card .registerNewTag _ => true
  | _ => false

/-- In a register session, past `Read_ID`. -/
def TouchPc.hasRead : TouchPc → Bool
  | .card .registerNewTag .beep | .card .registerNewTag .tagMatch | .card .registerNewTag .registTag => true
  | _ => false

variable {p p' : TouchPc} {l : Label}

theorem TouchPc.inRegister_of_hasRead (read : p.hasRead = true) : p.inRegister = true := by
  unfold hasRead at read
  split at read <;> first | rfl | contradiction

/-- The register menu is entered through the password only, and left before the release. -/
theorem TouchStep.inRegister (edge : TouchStep p l p') (inside : p'.inRegister = true) :
    l = .matchPsw .register 1 ∨ (p.inRegister = true ∧ ∀ sem, l ≠ .release sem) := by
  cases edge with
  | @right menu =>
    cases menu with
    | register => exact .inl rfl
    | delete | setPsw => contradiction
  | @verified menu =>
    cases menu with
    | register => exact .inr ⟨rfl, by rintro sem ⟨⟩⟩
    | delete | setPsw => contradiction
  | @card k _ _ _ walks =>
    cases k with
    | registerNewTag =>
      refine .inr ⟨rfl, ?_⟩
      rintro sem rfl
      have unused : (Label.release sem).semOp sem = none := walks.semOp
      simp [Label.semOp] at unused
    | deleteRegisteredTag => contradiction
  | _ => contradiction

/-- Past `Read_ID` the touch thread has just read, or only moves on with what it read. -/
theorem TouchStep.hasRead (edge : TouchStep p l p') (read : p'.hasRead = true) :
    (p.inRegister = true ∧ ∃ tagId, l = .pcdAnticoll (some tagId) true) ∨ (p.hasRead = true ∧ l.readsCard = false) := by
  cases edge with
  | @verified menu => cases menu <;> contradiction
  | @card k _ _ _ walks =>
    cases k with
    | deleteRegisteredTag => exact absurd read (by simp [TouchPc.hasRead])
    | registerNewTag =>
      cases walks with
      | readOk reads =>
        cases reads with
        | read => exact .inl ⟨rfl, _, rfl⟩
      | beepRegister | notRegistered => exact .inr ⟨rfl, rfl⟩
      | _ => contradiction
  | _ => contradiction

/-- Where the tag list grows. -/
theorem TouchStep.registTag {tagId : TagId} (edge : TouchStep p (.registTag tagId) p') :
    p = .card .registerNewTag .registTag ∧ p' = .card .registerNewTag .choose := by
  cases edge with
  | card walks =>
    cases walks with
    | readId reads | readOk reads | readError reads => cases reads
    | registTag => exact ⟨rfl, rfl⟩
  | cardDone walks => cases walks

/-- The session comes to `regist_tag` with an ID that `tag_match` has refused. -/
theorem TouchStep.notRegistered (edge : TouchStep p l p') (here : p' = .card .registerNewTag .registTag) :
    p = .card .registerNewTag .tagMatch ∧ ∃ read r, l = .tagMatch read r ∧ r ≠ 1 := by
  cases edge with
  | @verified menu => cases menu <;> contradiction
  | card walks =>
    cases here
    cases walks with
    | notRegistered read other => exact ⟨rfl, read, _, rfl, other⟩
  | _ => contradiction

end Touch

section Store

variable {list : AccessList TagId} {m m' : Eeprom} {t : Thread} {l : Label} {keys : List UInt8} {psw : CharBuffer}

/-- The tag list changes by `regist_tag` and `delete_registered_tag` alone. -/
theorem Label.onStore_tags (holds : Holds list m) (few : m.count ≤ 55) (acts : l.onStore keys psw m m')
    (unregistered : ∀ tagId, l ≠ .registTag tagId) (undeleted : ∀ tagId, l ≠ .deleteRegisteredTag tagId) :
    Holds list m' ∧ m'.tags = m.tags := by
  cases l with
  | tagMatch tagId r =>
    obtain ⟨-, rfl⟩ := Prod.mk.inj ((exec_tagMatch m tagId).symm.trans acts)
    exact ⟨holds, rfl⟩
  | matchPsw menu r =>
    obtain ⟨-, rfl⟩ := Prod.mk.inj ((exec_matchPsw m keys psw).symm.trans acts)
    exact ⟨holds, rfl⟩
  | passwordSetting r =>
    obtain rfl : (at24c02.exec (DoorSecurity.passwordSetting keys psw) m).2 = m' := congrArg Prod.snd acts
    exact holds.of_same_below few fun a below => get_passwordSetting_outside m (by omega) (by unfold pswAddBase; omega)
  | registTag tagId => exact absurd rfl (unregistered tagId)
  | deleteRegisteredTag tagId => exact absurd rfl (undeleted tagId)
  | _ =>
    obtain rfl : m' = m := acts
    exact ⟨holds, rfl⟩

/-- The other threads only read the store. -/
theorem Thread.store_kept {p p' : t.Pc} (other : t ≠ .touchThread) (edge : t.control p l p') (acts : l.onStore keys psw m m') :
    m' = m := by
  cases t with
  | touchThread => contradiction
  | matchThread =>
    have edge : MatchStep p l p' := edge
    cases edge with
    | readId reads | readOk reads | readError reads => cases reads <;> exact acts
    | matched _ read | unmatched _ read => exact (Prod.mk.inj ((exec_tagMatch m read).symm.trans acts)).2.symm
    | _ => exact acts
  | doorOpenThread =>
    have edge : DoorStep p l p' := edge
    cases edge <;> exact acts

/-- No entry passes `Match_psw` before a password has been stored. -/
theorem matchAnswer_blank (keys : List UInt8) (psw : CharBuffer) : matchAnswer (List.replicate 6 0xFF) keys psw ≠ some 1 := by
  unfold matchAnswer
  intro matched
  cases entry : getUserInputPsw keys 0 psw with
  | none => simp [entry] at matched
  | some answer =>
    obtain ⟨r, out⟩ := answer
    by_cases returned : r = 1
    · subst returned
      obtain ⟨e, accepted⟩ := acceptedEntry_of_returned entry
      obtain ⟨filled, -, decimal⟩ := acceptedEntry_digits accepted
      obtain ⟨out', again, image⟩ := getUserInputPsw_accepted accepted psw
      obtain rfl : out = out' := (Prod.mk.inj (Option.some.inj (entry.symm.trans again))).2
      -- the entry starts with a digit's character
      obtain ⟨key, digits, split⟩ := List.exists_cons_of_ne_nil filled
      have small : key ≤ 9 := decimal key (by rw [split]; simp)
      have different : keyChar key ≠ 0xFF := by
        intro same
        have sum := congrArg UInt8.toNat same
        have bound : key.toNat ≤ 9 := UInt8.le_iff_toNat_le.mp small
        simp only [keyChar, UInt8.toNat_add, UInt8.reduceToNat] at sum
        omega
      simp only [entry, image, split] at matched
      simp [cString, List.replicate, keyChar_ne_zero small, Ne.symm different] at matched
    · simp [entry, returned] at matched

end Store

section Invariant

/-- What the run's past says at the threads' points. -/
structure ThreadsSound (es : List Entry) (m : Eeprom) (ts : threads.State) : Prop where
  reachable : ∃ ths, Runs threads.Step threads.start ths ts
  session : TouchPc.inRegister (ts.pc .touchThread) = true → SessionOpen es
  read : TouchPc.hasRead (ts.pc .touchThread) = true → ReadInSession ts.shared.ucArrayId es
  fresh : ts.pc .touchThread = TouchPc.card .registerNewTag .registTag → ts.shared.ucArrayId ∉ m.tags
  matchRead : ∀ tagId, ts.pc .matchThread = MatchPc.tagMatch tagId ∨ ts.pc .matchThread = MatchPc.releaseDoor tagId → ReadByMatch tagId es
  matched : ∀ tagId, ts.pc .matchThread = MatchPc.releaseDoor tagId →
    (WipedSinceMatch es → m.tags = []) ∧ (¬ WipedSinceMatch es → tagId ∈ m.tags)

/-- The listed IDs are the registered ones, and the password bytes have been stored. -/
structure Sound (es : List Entry) (s : DoorSystem) : Prop where
  factory : s.phase = .off → s.eeprom = .blank ∧ es = []
  listed : s.phase ≠ .off → (∃ l, Holds l s.eeprom) ∧ s.eeprom.tags.length ≤ 55 ∧ ∀ tagId, tagId ∈ s.eeprom.tags ↔ Registered tagId es
  password : s.eeprom.password = List.replicate 6 0xFF ∨ ∃ y ∈ es, y.StoresPassword s.eeprom.password
  threads : ∀ ts, s.phase = .running ts → ThreadsSound es s.eeprom ts

variable {es : List Entry} {m m' : Eeprom} {ts ts' : threads.State} {t : Thread} {l : Label} {keys : List UInt8} {psw : CharBuffer}

theorem ThreadsSound.start (es : List Entry) (m : Eeprom) : ThreadsSound es m threads.start where
  reachable := ⟨[], .nil⟩
  session := by rintro ⟨⟩
  read := by rintro ⟨⟩
  fresh := by rintro ⟨⟩
  matchRead := by rintro tagId (⟨⟨⟩⟩ | ⟨⟨⟩⟩)
  matched := by rintro tagId ⟨⟩

/-- A wipe between the store functions. -/
theorem ThreadsSound.delAllTag (sound : ThreadsSound es m ts) (empty : m'.tags = []) (s : DoorSystem) : ThreadsSound ((s, .delAllTag) :: es) m' ts where
  reachable := sound.reachable
  session inside := (sound.session inside).still rfl
  read past := (sound.read past).still ⟨rfl, rfl⟩
  fresh _ := by simp [empty]
  matchRead tagId here := (sound.matchRead tagId here).still rfl
  matched tagId here := ⟨fun _ => empty, fun whole => absurd (Since.now rfl) whole⟩

/-- `ucArray_ID` stays while the touch thread works with what it read. -/
theorem ucArrayId_kept {ths : List (Thread × Label)} (run : Runs threads.Step threads.start ths ts) (moves : threads.Step ts (t, l) ts')
    (other : t ≠ .touchThread) (inside : Thread.inside .touchThread (ts.pc .touchThread) = true) :
    ts'.shared.ucArrayId = ts.shared.ucArrayId := by
  obtain ⟨-, acts, -⟩ := moves.spec
  cases reads : l.readsCard with
  | false => exact Label.effect_ucArrayId acts reads
  | true =>
    have free := (uses_alone run moves (Label.usesReader_of_readsCard reads)).2 .touchThread (Ne.symm other)
    rw [inside] at free
    contradiction

theorem TouchPc.inside_of_inRegister {p : TouchPc} (inRegister : p.inRegister = true) : Thread.inside .touchThread p = true := by
  cases p <;> first | rfl | contradiction

/-- The entry of a thread's step. -/
abbrev threadEntry (ts : threads.State) (m : Eeprom) (t : Thread) (l : Label) (keys : List UInt8) (psw : CharBuffer) : Entry :=
  (⟨.running ts, m⟩, .thread t l keys psw)

theorem readsCard_other {u : Thread} (other : t ≠ u) : (SystemEvent.thread t l keys psw).readsCard u = false := by
  simp [SystemEvent.readsCard, other]

theorem endsSession_other (other : t ≠ .touchThread) : (SystemEvent.thread t l keys psw).endsSession = false := by
  cases t <;> first | rfl | contradiction

theorem endsSession_touch (stays : ∀ sem, l ≠ .release sem) : (SystemEvent.thread .touchThread l keys psw).endsSession = false := by
  cases l with
  | release sem => exact absurd rfl (stays sem)
  | _ => rfl

/-- The register menu opens on a stored password. -/
theorem SessionOpen.step (sound : ThreadsSound es m ts)
    (password : m.password = List.replicate 6 0xFF ∨ ∃ y ∈ es, y.StoresPassword m.password) (moves : threads.Step ts (t, l) ts')
    (acts : l.onStore keys psw m m') (inside : TouchPc.inRegister (ts'.pc .touchThread) = true) :
    SessionOpen (threadEntry ts m t l keys psw :: es) := by
  obtain ⟨edge, -, others⟩ := moves.spec
  by_cases own : t = .touchThread
  · subst own
    rcases TouchStep.inRegister edge inside with rfl | ⟨was, stays⟩
    · have answer : matchAnswer m.password keys psw = some 1 :=
        congrArg Prod.fst ((exec_matchPsw m keys psw).symm.trans acts)
      rcases password with blank | stored
      · rw [blank] at answer
        exact absurd answer (matchAnswer_blank keys psw)
      · exact .now ⟨⟨keys, psw, rfl⟩, stored⟩
    · exact (sound.session was).still (endsSession_touch stays)
  · rw [others .touchThread (Ne.symm own)] at inside
    exact (sound.session inside).still (endsSession_other own)

/-- The session works with the ID that it read. -/
theorem ReadInSession.step (sound : ThreadsSound es m ts) (moves : threads.Step ts (t, l) ts')
    (past : TouchPc.hasRead (ts'.pc .touchThread) = true) :
    ReadInSession ts'.shared.ucArrayId (threadEntry ts m t l keys psw :: es) := by
  obtain ⟨edge, effect, others⟩ := moves.spec
  by_cases own : t = .touchThread
  · subst own
    rcases TouchStep.hasRead edge past with ⟨inside, tagId, rfl⟩ | ⟨was, unread⟩
    · rw [show ts'.shared.ucArrayId = tagId from congrArg Shared.ucArrayId effect]
      exact .now ⟨⟨keys, psw, rfl⟩, sound.session inside⟩
    · rw [Label.effect_ucArrayId effect unread]
      have stays : ∀ sem, l ≠ .release sem := by
        rcases TouchStep.inRegister edge (TouchPc.inRegister_of_hasRead past) with rfl | ⟨-, stays⟩
        · rintro sem ⟨⟩
        · exact stays
      exact (sound.read was).still ⟨endsSession_touch stays, by simp [SystemEvent.readsCard, unread]⟩
  · obtain ⟨ths, run⟩ := sound.reachable
    rw [others .touchThread (Ne.symm own)] at past
    have inside := TouchPc.inside_of_inRegister (TouchPc.inRegister_of_hasRead past)
    rw [ucArrayId_kept run moves own inside]
    exact (sound.read past).still ⟨endsSession_other own, readsCard_other own⟩

/-- What the session is about to store is not listed. -/
theorem fresh_step (sound : ThreadsSound es m ts) (moves : threads.Step ts (t, l) ts') (acts : l.onStore keys psw m m')
    (here : ts'.pc .touchThread = TouchPc.card .registerNewTag .registTag) : ts'.shared.ucArrayId ∉ m'.tags := by
  obtain ⟨edge, effect, others⟩ := moves.spec
  by_cases own : t = .touchThread
  · subst own
    obtain ⟨-, read, r, rfl, refused⟩ := TouchStep.notRegistered edge here
    obtain ⟨rfl, shared⟩ := effect
    obtain ⟨answer, rfl⟩ := Prod.mk.inj ((exec_tagMatch m _).symm.trans acts)
    rw [shared]
    intro listed
    rw [if_pos listed] at answer
    exact refused answer.symm
  · obtain ⟨ths, run⟩ := sound.reachable
    have stays := others .touchThread (Ne.symm own)
    have there : ts.pc .touchThread = TouchPc.card .registerNewTag .registTag := stays.symm.trans here
    rw [ucArrayId_kept run moves own (by rw [there]; rfl), Thread.store_kept own edge acts]
    exact sound.fresh there

/-- `match_thread` works with the ID that it read. -/
theorem ReadByMatch.step (sound : ThreadsSound es m ts) (moves : threads.Step ts (t, l) ts') (tagId : TagId)
    (here : ts'.pc .matchThread = MatchPc.tagMatch tagId ∨ ts'.pc .matchThread = MatchPc.releaseDoor tagId) :
    ReadByMatch tagId (threadEntry ts m t l keys psw :: es) := by
  obtain ⟨edge, -, others⟩ := moves.spec
  by_cases own : t = .matchThread
  · subst own
    have edge : MatchStep (ts.pc .matchThread) l (ts'.pc .matchThread) := edge
    rcases here with reading | opening
    · rw [reading] at edge
      generalize ts.pc .matchThread = p at edge
      cases edge with
      | readOk reads =>
        cases reads with
        | read => exact .now ⟨keys, psw, rfl⟩
    · rw [opening] at edge
      generalize there : ts.pc .matchThread = p at edge
      cases edge with
      | matched => exact (sound.matchRead tagId (.inl there)).still rfl
  · rw [others .matchThread (Ne.symm own)] at here
    exact (sound.matchRead tagId here).still (readsCard_other own)

/-- The other threads' steps are no wipe and no match. -/
theorem wipedSinceMatch_other (other : t ≠ .matchThread) : WipedSinceMatch (threadEntry ts m t l keys psw :: es) ↔ WipedSinceMatch es := by
  have kept : (SystemEvent.thread t l keys psw).matches = false := by cases t <;> first | rfl | contradiction
  rw [WipedSinceMatch, since_cons, or_iff_right (by rintro ⟨⟩), and_iff_right kept]

/-- An ID that matched is listed until the door has been released, or the list has been wiped. -/
theorem matched_step {list : AccessList TagId} (holds : Holds list m) (few : m.count ≤ 55) (sound : ThreadsSound es m ts)
    (moves : threads.Step ts (t, l) ts') (acts : l.onStore keys psw m m') (tagId : TagId)
    (here : ts'.pc .matchThread = MatchPc.releaseDoor tagId) :
    (WipedSinceMatch (threadEntry ts m t l keys psw :: es) → m'.tags = []) ∧
      (¬ WipedSinceMatch (threadEntry ts m t l keys psw :: es) → tagId ∈ m'.tags) := by
  obtain ⟨edge, effect, others⟩ := moves.spec
  obtain ⟨ths, run⟩ := sound.reachable
  by_cases own : t = .matchThread
  · subst own
    have edge : MatchStep (ts.pc .matchThread) l (ts'.pc .matchThread) := edge
    rw [here] at edge
    generalize there : ts.pc .matchThread = p at edge
    cases edge with
    | matched _ read =>
      obtain ⟨rfl, -⟩ := effect
      obtain ⟨answer, rfl⟩ := Prod.mk.inj ((exec_tagMatch m _).symm.trans acts)
      rw [ucArrayId_at_tagMatch run tagId there] at answer
      refine ⟨fun wiped => ?_, fun _ => ?_⟩
      · -- nothing is newer than the match
        rcases wiped with now | ⟨kept, -⟩
        · cases now
        · cases kept
      · by_contra unlisted
        rw [if_neg unlisted] at answer
        exact absurd answer (by decide)
  · rw [others .matchThread (Ne.symm own)] at here
    rw [wipedSinceMatch_other own]
    by_cases uses : l.usesReader = true
    · have free := (uses_alone run moves uses).2 .matchThread (Ne.symm own)
      rw [here] at free
      contradiction
    · rw [(Label.onStore_tags holds few acts (by rintro id rfl; exact uses rfl) (by rintro id rfl; exact uses rfl)).2]
      exact sound.matched tagId here

theorem ThreadsSound.step {list : AccessList TagId} (holds : Holds list m) (few : m.count ≤ 55) (sound : ThreadsSound es m ts)
    (password : m.password = List.replicate 6 0xFF ∨ ∃ y ∈ es, y.StoresPassword m.password) (moves : threads.Step ts (t, l) ts')
    (acts : l.onStore keys psw m m') : ThreadsSound (threadEntry ts m t l keys psw :: es) m' ts' where
  reachable := by
    obtain ⟨ths, run⟩ := sound.reachable
    exact ⟨_, run.snoc moves⟩
  session := SessionOpen.step sound password moves acts
  read := ReadInSession.step sound moves
  fresh := fresh_step sound moves acts
  matchRead := ReadByMatch.step sound moves
  matched := matched_step holds few sound moves acts

/-- What is no registration of an ID only matters if it removes it. -/
theorem registered_cons {tagId : TagId} {x : Entry} (other : ¬ x.Does .touchThread (.registTag tagId)) :
    Registered tagId (x :: es) ↔ x.2.removes tagId = false ∧ Registered tagId es :=
  or_iff_right fun stored => other stored.1

/-- A thread's step registers what `regist_tag` stores. -/
theorem not_registers {tagId : TagId} (other : l ≠ .registTag tagId) :
    ¬ (threadEntry ts m t l keys psw).Does .touchThread (.registTag tagId) := by
  rintro ⟨keys', psw', same⟩
  cases same
  exact other rfl

/-- **The tag list under a thread's step.** -/
theorem listed_step {list : AccessList TagId} (holds : Holds list m) (few : m.count ≤ 55) (sound : ThreadsSound es m ts)
    (registered : ∀ tagId, tagId ∈ m.tags ↔ Registered tagId es) (moves : threads.Step ts (t, l) ts') (acts : l.onStore keys psw m m') :
    (∃ l, Holds l m') ∧ ∀ tagId, tagId ∈ m'.tags ↔ Registered tagId (threadEntry ts m t l keys psw :: es) := by
  obtain ⟨edge, effect, -⟩ := moves.spec
  by_cases own : t = .touchThread
  · subst own
    by_cases registers : ∃ tagId, l = .registTag tagId
    · obtain ⟨stored, rfl⟩ := registers
      obtain ⟨here, -⟩ := TouchStep.registTag edge
      obtain ⟨rfl, -⟩ := effect
      have absent := sound.fresh here
      rw [holds.tags] at absent
      have grown := holds.registTag absent (by omega)
      rw [show (at24c02.exec (registTag ts.shared.ucArrayId) m).2 = m' from acts] at grown
      refine ⟨⟨_, grown⟩, fun tagId => ?_⟩
      rw [grown.tags, AccessList.mem_register, ← holds.tags]
      by_cases same : tagId = ts.shared.ucArrayId
      · subst same
        exact iff_of_true (.inr rfl) (.now ⟨⟨keys, psw, rfl⟩, sound.read (by rw [here]; rfl)⟩)
      · rw [or_iff_left same, registered_cons (not_registers fun stored => same (Label.registTag.inj stored).symm), registered]
        exact (and_iff_right rfl).symm
    by_cases deletes : ∃ tagId, l = .deleteRegisteredTag tagId
    · obtain ⟨deleted, rfl⟩ := deletes
      have shrunk := holds.delete deleted
      rw [show (at24c02.exec (deleteRegisteredTag deleted) m).2 = m' from acts] at shrunk
      refine ⟨⟨_, shrunk⟩, fun tagId => ?_⟩
      have other : Label.deleteRegisteredTag deleted ≠ .registTag tagId := nofun
      rw [shrunk.tags, AccessList.mem_delete, ← holds.tags, registered_cons (not_registers other), registered]
      refine and_congr_left' ?_
      simp [SystemEvent.removes, eq_comm]
    obtain ⟨kept, same⟩ := Label.onStore_tags holds few acts (fun id is => registers ⟨id, is⟩) (fun id is => deletes ⟨id, is⟩)
    refine ⟨⟨_, kept⟩, fun tagId => ?_⟩
    rw [same, registered_cons (not_registers fun stored => registers ⟨tagId, stored⟩), registered]
    refine (and_iff_right ?_).symm
    cases l with
    | deleteRegisteredTag id => exact absurd ⟨id, rfl⟩ deletes
    | _ => rfl
  · -- the other threads leave the store
    obtain rfl := Thread.store_kept own edge acts
    refine ⟨⟨_, holds⟩, fun tagId => ?_⟩
    have none : ¬ (threadEntry ts m' t l keys psw).Does .touchThread (.registTag tagId) := by
      rintro ⟨keys', psw', same⟩
      cases same
      exact own rfl
    rw [registered_cons none, registered]
    refine (and_iff_right ?_).symm
    cases t <;> first | rfl | contradiction

/-- **The password bytes under a thread's step.** -/
theorem password_step (few : m.count ≤ 55) (moves : threads.Step ts (t, l) ts') (acts : l.onStore keys psw m m') :
    m'.password = m.password ∨ (threadEntry ts m t l keys psw).StoresPassword m'.password := by
  cases l with
  | passwordSetting r =>
    by_cases own : t = .touchThread
    · subst own
      rcases passwordSetting_cases keys psw m with returned | kept
      · exact .inr ⟨returned, by rw [show at24c02.exec (passwordSetting keys psw) m = (some r, m') from acts]⟩
      · rw [show at24c02.exec (passwordSetting keys psw) m = (some r, m') from acts] at kept
        exact .inl (congrArg Eeprom.password kept)
    · exact .inl (congrArg Eeprom.password (Thread.store_kept own moves.spec.1 acts))
  | registTag tagId => exact .inl (acts ▸ password_registTag few tagId)
  | deleteRegisteredTag tagId => exact .inl (acts ▸ password_deleteRegisteredTag few tagId)
  | tagMatch tagId r => exact .inl (congrArg Eeprom.password (Prod.mk.inj ((exec_tagMatch m tagId).symm.trans acts)).2.symm)
  | matchPsw menu r => exact .inl (congrArg Eeprom.password (Prod.mk.inj ((exec_matchPsw m keys psw).symm.trans acts)).2.symm)
  | _ => exact .inl (congrArg Eeprom.password acts)

/-- **The password bytes under a boot.** -/
theorem password_boot (phase : Phase) (m : Eeprom) (keys : List UInt8) (psw : CharBuffer) :
    (at24c02.exec (boot keys psw) m).2.password = m.password ∨
      Entry.StoresPassword (at24c02.exec (boot keys psw) m).2.password (⟨phase, m⟩, .boot keys psw) := by
  set m0 := (at24c02.exec at24cxxInit m).2 with init
  have initial : m0.password = m.password := by
    rw [init, exec_at24cxxInit]
    split
    · rfl
    · exact password_congr fun a lower upper => get_set_ne _ _ (by omega) (by omega) (by omega)
  have checked : (at24c02.exec (boot keys psw) m).2 = (at24c02.exec (pswCheck keys psw) m0).2 := by
    unfold boot
    rw [Device.exec_bind]
  rw [checked]
  by_cases set : m0.get pswFlag = 0xaa
  · rw [exec_pswCheck_set m0 set]
    exact .inl initial
  by_cases accepted : ∃ out, getUserInputPsw keys 0 psw = some (1, out)
  · obtain ⟨out, entry⟩ := accepted
    rw [exec_pswCheck_accepted m0 set entry]
    have flagged : ((m0.putPsw out 6).set pswFlag 0xaa).password = (m0.putPsw out 6).password :=
      password_congr fun a lower upper => get_set_ne _ _ (by decide) (by omega) (by unfold pswFlag; omega)
    refine .inr ⟨set, ?_, ?_⟩
    · exact congrArg Prod.fst (exec_passwordSetting m0 entry)
    · rw [flagged, exec_passwordSetting m0 entry]
  · rw [exec_pswCheck_refused m0 fun out entry => accepted ⟨out, entry⟩]
    exact .inl initial

theorem Sound.start : Sound [] .start where
  factory _ := ⟨rfl, rfl⟩
  listed on := absurd rfl on
  password := .inl (by decide)
  threads := by rintro ts ⟨⟩

theorem tags_length (m : Eeprom) : m.tags.length = m.count := slots_length m m.count

/-- The password stays, or the new bytes have just been stored. -/
theorem password_sound {x : Entry} (password : m.password = List.replicate 6 0xFF ∨ ∃ y ∈ es, y.StoresPassword m.password)
    (changed : m'.password = m.password ∨ x.StoresPassword m'.password) :
    m'.password = List.replicate 6 0xFF ∨ ∃ y ∈ x :: es, y.StoresPassword m'.password := by
  rcases changed with same | stored
  · rw [same]
    rcases password with blank | ⟨y, mem, stored⟩
    · exact .inl blank
    · exact .inr ⟨y, List.mem_cons_of_mem _ mem, stored⟩
  · exact .inr ⟨x, List.mem_cons_self, stored⟩

section Events

variable {phase : Phase}

/-- The tag list under a boot, the first one or a later one. -/
theorem listed_boot (sound : Sound es ⟨phase, m⟩) (keys : List UInt8) (psw : CharBuffer) :
    (∃ l, Holds l (at24c02.exec (boot keys psw) m).2) ∧
      ∀ tagId, tagId ∈ (at24c02.exec (boot keys psw) m).2.tags ↔ Registered tagId ((⟨phase, m⟩, .boot keys psw) :: es) := by
  have past : ∀ tagId, Registered tagId ((⟨phase, m⟩, .boot keys psw) :: es) ↔ Registered tagId es := fun tagId =>
    (registered_cons (by rintro ⟨_, _, ⟨⟩⟩)).trans (and_iff_right rfl)
  by_cases off : phase = .off
  · obtain ⟨rfl, rfl⟩ : m = .blank ∧ es = [] := sound.factory off
    have empty := Holds.boot_unmarked (m := .blank) (by decide) keys psw
    refine ⟨⟨_, empty⟩, fun tagId => ?_⟩
    rw [empty.tags, past]
    exact iff_of_false List.not_mem_nil id
  · obtain ⟨⟨l, holds⟩, few, registered⟩ := sound.listed off
    rw [tags_length] at few
    obtain ⟨kept, same⟩ := holds.boot few keys psw
    refine ⟨⟨l, kept⟩, fun tagId => ?_⟩
    rw [same, past, registered]

theorem sound_boot (sound : Sound es ⟨phase, m⟩) (keys : List UInt8) (psw : CharBuffer)
    (bound : (at24c02.exec (boot keys psw) m).2.tags.length ≤ 55) :
    Sound ((⟨phase, m⟩, .boot keys psw) :: es)
      ⟨if (at24c02.exec (boot keys psw) m).1 = some () then .running threads.start else .pswCheck,
        (at24c02.exec (boot keys psw) m).2⟩ := by
  obtain ⟨holds, registered⟩ := listed_boot sound keys psw
  refine ⟨?_, fun _ => ⟨holds, bound, registered⟩, password_sound sound.password (password_boot phase m keys psw), ?_⟩
  · intro off
    dsimp only at off
    split at off <;> contradiction
  · intro ts running
    dsimp only at running
    split at running
    · cases running
      exact ThreadsSound.start _ _
    · contradiction

theorem sound_delAllTag (sound : Sound es ⟨phase, m⟩) (idle : phase.StoreIdle)
    (bound : (at24c02.exec delAllTag m).2.tags.length ≤ 55) :
    Sound ((⟨phase, m⟩, .delAllTag) :: es) ⟨phase, (at24c02.exec delAllTag m).2⟩ := by
  have on : phase ≠ .off := by
    rintro rfl
    exact idle
  obtain ⟨⟨l, holds⟩, few, -⟩ := sound.listed on
  rw [tags_length] at few
  have empty : (at24c02.exec delAllTag m).2.tags = [] := holds.delAll.tags
  refine ⟨fun off => absurd off on, fun _ => ⟨⟨_, holds.delAll⟩, bound, ?_⟩, password_sound sound.password (.inl (password_delAllTag few)), ?_⟩
  · intro tagId
    show tagId ∈ (at24c02.exec delAllTag m).2.tags ↔ _
    rw [empty, registered_cons (by rintro ⟨_, _, ⟨⟩⟩)]
    exact iff_of_false List.not_mem_nil fun kept => Bool.noConfusion kept.1
  · intro ts running
    obtain rfl : phase = .running ts := running
    exact (sound.threads ts rfl).delAllTag empty _

theorem sound_thread (sound : Sound es ⟨.running ts, m⟩) (moves : threads.Step ts (t, l) ts') (acts : l.onStore keys psw m m')
    (bound : m'.tags.length ≤ 55) : Sound (threadEntry ts m t l keys psw :: es) ⟨.running ts', m'⟩ := by
  obtain ⟨⟨list, holds⟩, few, registered⟩ := sound.listed (by rintro ⟨⟩)
  rw [tags_length] at few
  have threads := sound.threads ts rfl
  obtain ⟨kept, listed⟩ := listed_step holds few threads registered moves acts
  refine ⟨by rintro ⟨⟩, fun _ => ⟨kept, bound, listed⟩, password_sound sound.password (password_step few moves acts), ?_⟩
  intro ts'' running
  obtain rfl : ts' = ts'' := Phase.running.inj running
  exact threads.step holds few sound.password moves acts

end Events

/-- **The step lemma.** -/
theorem Sound.step {s s' : DoorSystem} {x : Entry} (sound : Sound es s) (steps : FewTags s x s') : Sound (x :: es) s' := by
  obtain ⟨found, e⟩ := x
  obtain ⟨rfl, steps, bound⟩ := steps
  cases steps with
  | boot phase m keys psw => exact sound_boot sound keys psw bound
  | delAllTag idle => exact sound_delAllTag sound idle bound
  | thread moves acts => exact sound_thread sound moves acts bound

end Invariant

/-- **Whom the door opens for**, in every run: for a card that is registered, exactly if no `DEL_ALL_TAG`
has come since `match_thread` was told that it matches. -/
theorem door_authorised_iff {es : List Entry} {s s' : DoorSystem} {keys : List UInt8} {psw : CharBuffer} (run : Runs FewTags .start es s)
    (opens : SystemStep s (.thread .matchThread (.release .doorOpenThreadLock) keys psw) s') :
    (∃ tagId, ReadByMatch tagId es ∧ Registered tagId es) ↔ ¬ WipedSinceMatch es := by
  have sound : Sound es s := run.invariant Sound.start Sound.step
  cases opens with
  | @thread ts ts' m m' _ _ _ _ moves acts =>
    obtain ⟨-, -, registered⟩ := sound.listed (by rintro ⟨⟩)
    have threads := sound.threads ts rfl
    have edge : MatchStep (ts.pc .matchThread) (.release .doorOpenThreadLock) (ts'.pc .matchThread) := moves.spec.1
    generalize here : ts.pc .matchThread = p at edge
    generalize ts'.pc .matchThread = p' at edge
    cases edge with
    | readId reads | readOk reads | readError reads => cases reads
    | releaseDoor tagId =>
      obtain ⟨wiped, listed⟩ := threads.matched tagId here
      constructor
      · rintro ⟨id, -, past⟩ wipe
        have inside := (registered id).mpr past
        rw [wiped wipe] at inside
        exact absurd inside List.not_mem_nil
      · intro whole
        exact ⟨tagId, threads.matchRead tagId (.inr here), (registered tagId).mp (listed whole)⟩

section Example

theorem fewTags_of_step {s s' : DoorSystem} {e : SystemEvent} (steps : SystemStep s e s') (few : s'.eeprom.tags.length ≤ 55) :
    FewTags s (s, e) s' := ⟨rfl, steps, few⟩

/-- A run has brought the two threads to these points over this shared state and store. -/
def Reached (p : TouchPc) (q : MatchPc) (sh : Shared) (m : Eeprom) : Prop :=
  ∃ es ts, Runs FewTags .start es ⟨.running ts, m⟩ ∧ ts.pc .touchThread = p ∧ ts.pc .matchThread = q ∧ ts.shared = sh

variable {p p' : TouchPc} {q q' : MatchPc} {sh sh' : Shared} {m m' : Eeprom} {l : Label}

theorem Reached.touch (reached : Reached p q sh m) (edge : TouchStep p l p') (effect : l.effect sh sh') (keys : List UInt8) (psw : CharBuffer)
    (acts : l.onStore keys psw m m') (few : m'.tags.length ≤ 55) : Reached p' q sh' m' := by
  obtain ⟨es, ts, run, rfl, here, rfl⟩ := reached
  refine ⟨_, _, run.snoc (fewTags_of_step (.thread (touch_moves edge effect) acts) few), rfl, ?_, rfl⟩
  exact here

theorem Reached.match (reached : Reached p q sh m) (edge : MatchStep q l q') (effect : l.effect sh sh') (keys : List UInt8) (psw : CharBuffer)
    (acts : l.onStore keys psw m m') (few : m'.tags.length ≤ 55) : Reached p q' sh' m' := by
  obtain ⟨es, ts, run, here, rfl, rfl⟩ := reached
  refine ⟨_, _, run.snoc (fewTags_of_step (.thread (match_moves edge effect) acts) few), ?_, rfl, rfl⟩
  exact here

/-- What the touch thread does for itself. -/
theorem Reached.tau (reached : Reached p q sh m) (edge : TouchStep p .tau p') (few : m.tags.length ≤ 55) : Reached p' q sh m :=
  reached.touch edge rfl [] (fun _ => 0) rfl few

theorem reached_firstBoot : Reached .scan .take threads.start.shared firstBoot := by
  have booted := SystemStep.boot .off .blank [1, 69] fun _ => 0
  rw [if_pos (by decide)] at booted
  exact ⟨_, threads.start, Runs.nil.snoc (fewTags_of_step (s := .start) booted (by decide)), rfl, rfl, rfl⟩

/-- The card of the examples. -/
def firstCard : TagId := ![1, 2, 3, 4]

/-- The password 1 set at the boot, a card registered under it and then held to the door: `tag_match` is asked. -/
theorem reached_firstMatch : ∃ sh m, Reached .scan (.tagMatch firstCard) sh m ∧ sh.ucArrayId = firstCard ∧
    Holds (AccessList.empty.register firstCard) m := by
  have empty : Holds .empty firstBoot := .empty_of firstBoot_bytes.1
  have absent : firstCard ∉ (AccessList.empty : AccessList TagId).keys := List.not_mem_nil
  have stored := empty.registTag absent (by rw [empty.count]; decide)
  set m := (at24c02.exec (registTag firstCard) firstBoot).2
  have few : firstBoot.tags.length ≤ 55 := by rw [empty.tags]; decide
  have few' : m.tags.length ≤ 55 := by rw [stored.tags]; decide
  have entered : at24c02.exec (matchPsw [1, 69] fun _ => 0) firstBoot = (some 1, firstBoot) := by
    rw [exec_matchPsw, firstBoot_bytes.2.2]
    rfl
  have unknown : at24c02.exec (tagMatch firstCard) firstBoot = (0, firstBoot) := by
    rw [exec_tagMatch, empty.tags]
    rfl
  -- the register menu, up to the card
  have pressed := (reached_firstBoot.tau (.pressed .register) few).tau .beep few
  have menu := (pressed.touch .take ⟨by decide, rfl⟩ [] (fun _ => 0) rfl few).touch .unlocked rfl [] (fun _ => 0) rfl few
  have session := (menu.touch .right rfl [1, 69] (fun _ => 0) entered few).touch .verified rfl [] (fun _ => 0) rfl few
  have polled := ((session.tau (.card .window) few).tau (.card .prompt) few).tau (.card .pollIdle) few
  have found := polled.touch (.card (.readId (.found (4, 0)))) rfl [] (fun _ => 0) rfl few
  have read := (found.touch (.card (.readOk (.read firstCard))) rfl [] (fun _ => 0) rfl few).tau (.card .beepRegister) few
  have registered := (read.touch (.card (.notRegistered firstCard (by decide))) ⟨rfl, rfl⟩ [] (fun _ => 0) unknown few).touch
    (.card (.registTag firstCard)) ⟨rfl, rfl⟩ [] (fun _ => 0) rfl few'
  have left := (((registered.tau (.card .chooseBack) few').tau (.cardDone .mainWindow) few').tau .mainWindow few').touch .release rfl
    [] (fun _ => 0) rfl few'
  -- the card at the door
  have waiting := (left.tau .untouched few').tau .delay few'
  have asked := (waiting.match .take ⟨by decide, rfl⟩ [] (fun _ => 0) rfl few').match (.readId (.found (4, 0))) rfl [] (fun _ => 0) rfl few'
  exact ⟨_, m, asked.match (.readOk (.read firstCard)) rfl [] (fun _ => 0) rfl few', rfl, stored⟩

/-- `tag_match` has accepted the card, and the door is about to be released. -/
theorem reached_firstRelease : ∃ es ts m, Runs FewTags .start es ⟨.running ts, m⟩ ∧ ts.pc .matchThread = MatchPc.releaseDoor firstCard ∧
    m.tags.length ≤ 55 ∧ (∃ l, Holds l m) ∧ ¬ WipedSinceMatch es := by
  obtain ⟨sh, m, ⟨es, ts, run, -, here, rfl⟩, read, stored⟩ := reached_firstMatch
  have few : m.tags.length ≤ 55 := by rw [stored.tags]; decide
  have known : at24c02.exec (tagMatch firstCard) m = (1, m) := by
    rw [exec_tagMatch, stored.tags]
    rfl
  have moves : threads.Step ts (.matchThread, .tagMatch firstCard 1) _ :=
    match_moves (by rw [here]; exact .matched firstCard firstCard) ⟨read.symm, rfl⟩
  have told : SystemStep ⟨.running ts, m⟩ (.thread .matchThread (.tagMatch firstCard 1) [] fun _ => 0) _ := .thread moves known
  have there : Function.update ts.pc .matchThread (MatchPc.releaseDoor firstCard) .matchThread = MatchPc.releaseDoor firstCard :=
    Function.update_self _ _ _
  refine ⟨_, _, m, run.snoc (fewTags_of_step told few), there, few, ⟨_, stored⟩, ?_⟩
  rintro (now | ⟨kept, -⟩)
  · cases now
  · cases kept

/-- The release of the door at this point. -/
theorem firstRelease {ts : threads.State} (here : ts.pc .matchThread = MatchPc.releaseDoor firstCard) (m : Eeprom) :
    ∃ s', SystemStep ⟨.running ts, m⟩ (.thread .matchThread (.release .doorOpenThreadLock) [] fun _ => 0) s' :=
  ⟨_, .thread (match_moves (by rw [here]; exact .releaseDoor _) rfl) rfl⟩

/-- The card is registered, and held to the door. -/
theorem door_authorised_firstCard :
    ∃ es s s', Runs FewTags .start es s ∧ SystemStep s (.thread .matchThread (.release .doorOpenThreadLock) [] fun _ => 0) s' ∧
      ∃ tagId, ReadByMatch tagId es ∧ Registered tagId es := by
  obtain ⟨es, ts, m, run, here, -, -, whole⟩ := reached_firstRelease
  obtain ⟨s', opens⟩ := firstRelease here m
  exact ⟨es, _, s', run, opens, (door_authorised_iff run opens).mpr whole⟩

/-- **A wiped card opens the door**: `DEL_ALL_TAG` comes when `tag_match` has returned 1 and no other store operation is under way,
and the door is released for a card that is registered no more. -/
theorem door_opens_for_wiped_card :
    ∃ es s s', Runs FewTags .start es s ∧ SystemStep s (.thread .matchThread (.release .doorOpenThreadLock) [] fun _ => 0) s' ∧
      (∃ x ∈ es.head?, x.2 = .delAllTag) ∧ ¬ ∃ tagId, ReadByMatch tagId es ∧ Registered tagId es := by
  obtain ⟨es, ts, m, run, here, few, ⟨l, holds⟩, -⟩ := reached_firstRelease
  have wipe : SystemStep ⟨.running ts, m⟩ .delAllTag ⟨.running ts, (at24c02.exec delAllTag m).2⟩ := .delAllTag trivial
  have bound : (at24c02.exec delAllTag m).2.tags.length ≤ 55 := by
    rw [holds.delAll.tags]
    exact Nat.zero_le _
  obtain ⟨s', opens⟩ := firstRelease here (at24c02.exec delAllTag m).2
  refine ⟨_, _, s', run.snoc (fewTags_of_step wipe bound), opens, ⟨_, rfl, rfl⟩, ?_⟩
  rintro ⟨tagId, -, stored | ⟨kept, -⟩⟩
  · obtain ⟨⟨_, _, event⟩, -⟩ := stored
    cases event
  · cases kept

end Example

end DoorSecurity
