import DoorSecurity.Layout.Areas
import DoorSecurity.Threads.Locks

/-!
# The whole device

The three threads over one EEPROM, with power cycles and the console's
`DEL_ALL_TAG`. A store function is one step: `match_thread_lock` keeps the threads'
calls apart, and a wipe waits until the one under way has returned. It takes no
lock, so it may come at any point of a thread.
-/

namespace DoorSecurity
set_option autoImplicit false
open Bus Eeprom Lts

inductive Phase where
  | off
  /-- `psw_check` waits for a key. -/
  | pswCheck
  | running (ts : threads.State)

structure DoorSystem where
  phase : Phase
  eeprom : Eeprom

/-- A part from the factory, before the first boot. -/
def DoorSystem.start : DoorSystem := ⟨.off, .blank⟩

inductive SystemEvent where
  | boot (keys : List UInt8) (psw : CharBuffer)
  | delAllTag
  /-- `keys` and `psw` are what a password entry reads and finds in its buffer. -/
  | thread (t : Thread) (l : Label) (keys : List UInt8) (psw : CharBuffer)

/-- What a label does to the store, and what the store function answered. -/
def Label.onStore (keys : List UInt8) (psw : CharBuffer) : Label → Eeprom → Eeprom → Prop
  | .tagMatch tagId r, m, m' => at24c02.exec (DoorSecurity.tagMatch tagId) m = (r, m')
  | .registTag tagId, m, m' => (at24c02.exec (DoorSecurity.registTag tagId) m).2 = m'
  | .deleteRegisteredTag tagId, m, m' => (at24c02.exec (DoorSecurity.deleteRegisteredTag tagId) m).2 = m'
  | .matchPsw _ r, m, m' => at24c02.exec (DoorSecurity.matchPsw keys psw) m = (some r, m')
  | .passwordSetting r, m, m' => at24c02.exec (DoorSecurity.passwordSetting keys psw) m = (some r, m')
  | _, m, m' => m' = m

/-- No call of a store function is under way: each has returned when its step is over. -/
def Phase.StoreIdle : Phase → Prop
  | .off => False
  | .pswCheck | .running _ => True

inductive SystemStep : DoorSystem → SystemEvent → DoorSystem → Prop
  | boot (phase : Phase) (m : Eeprom) (keys : List UInt8) (psw : CharBuffer) :
      SystemStep ⟨phase, m⟩ (.boot keys psw)
        ⟨if (at24c02.exec (boot keys psw) m).1 = some () then .running threads.start else .pswCheck, (at24c02.exec (boot keys psw) m).2⟩
  | delAllTag {phase : Phase} {m : Eeprom} (idle : phase.StoreIdle) :
      SystemStep ⟨phase, m⟩ .delAllTag ⟨phase, (at24c02.exec delAllTag m).2⟩
  | thread {ts ts' : threads.State} {m m' : Eeprom} {t : Thread} {l : Label} {keys : List UInt8} {psw : CharBuffer}
      (moves : threads.Step ts (t, l) ts') (acts : l.onStore keys psw m m') :
      SystemStep ⟨.running ts, m⟩ (.thread t l keys psw) ⟨.running ts', m'⟩

section Frames

variable {l : AccessList TagId} {m m' : Eeprom}

theorem Holds.boot (h : Holds l m) (few : m.count ≤ 55) (keys : List UInt8) (psw : CharBuffer) :
    Holds l (at24c02.exec (boot keys psw) m).2 ∧ (at24c02.exec (DoorSecurity.boot keys psw) m).2.tags = m.tags := by
  unfold DoorSecurity.boot
  rw [Device.exec_bind_of _ h.init_keeps]
  apply h.of_same_below few
  intro a below
  exact get_pswCheck_outside m (by omega) (by unfold pswFlag; omega)

/-- A boot of a part without a list leaves the empty one. -/
theorem Holds.boot_unmarked (unmarked : m.get 0 &&& ifModified ≠ 0x80) (keys : List UInt8) (psw : CharBuffer) :
    Holds .empty (at24c02.exec (DoorSecurity.boot keys psw) m).2 := by
  unfold DoorSecurity.boot
  rw [Device.exec_bind]
  have empty := Holds.first_boot (m := m) (.inr unmarked)
  refine (empty.of_same_below (by rw [empty.count]; decide) fun a below => ?_).1
  exact get_pswCheck_outside _ (by omega) (by unfold pswFlag; omega)

theorem password_registTag (few : m.count ≤ 55) (tagId : TagId) : (at24c02.exec (registTag tagId) m).2.password = m.password :=
  password_congr fun _ lower upper => get_registTag_above m tagId (by omega) (by omega)

theorem password_deleteRegisteredTag (few : m.count ≤ 55) (tagId : TagId) :
    (at24c02.exec (deleteRegisteredTag tagId) m).2.password = m.password :=
  password_congr fun _ lower upper => get_deleteRegisteredTag_above m tagId (by omega) (by omega) (by omega)

theorem password_delAllTag (few : m.count ≤ 55) : (at24c02.exec delAllTag m).2.password = m.password :=
  password_congr fun _ lower upper => get_delAllTag_above m (by omega) (by omega)

/-- What `password_setting` answered decides whether it wrote. -/
theorem passwordSetting_cases (keys : List UInt8) (psw : CharBuffer) (m : Eeprom) :
    (at24c02.exec (passwordSetting keys psw) m).1 = some 1 ∨ (at24c02.exec (passwordSetting keys psw) m).2 = m := by
  by_cases accepted : ∃ out, getUserInputPsw keys 0 psw = some (1, out)
  · obtain ⟨out, entry⟩ := accepted
    exact .inl (congrArg Prod.fst (exec_passwordSetting m entry))
  · exact .inr (exec_passwordSetting_refused m fun out entry => accepted ⟨out, entry⟩).2.1

end Frames

end DoorSecurity
