import DoorSecurity.Layout.Areas

/-!
# Who may set the password

Once `PSW_FLAG` is set, the six password bytes should change only after a successful
verification. The flag is the authority that `psw_check` goes by at each
boot, and slot 56 ends on it. Runs that keep slot 56 off the flag keep the rule; the
run of 56 registrations and a reboot breaks it.
-/

namespace DoorSecurity
set_option autoImplicit false
open Bus Lts Eeprom

/-- The `Set_Psw` branch of `touch_thread`: `password_setting` in case 1 of `Match_psw`. -/
def passwordMenu (keys : List UInt8) (psw : CharBuffer) (newKeys : List UInt8) (newPsw : CharBuffer) : Code (Option UInt8) := do
  let r ← matchPsw keys psw
  if r = some 1 then do
    let _ ← passwordSetting newKeys newPsw
    return r
  else return r

/-- What happens to the store between two power cycles, and a power cycle. A menu action that
the lockout refuses touches nothing and is no step. -/
inductive StoreAct where
  | register (tagId : TagId)
  | delete (tagId : TagId)
  | delAll
  | doorMatch (tagId : TagId)
  | passwordMenu (keys : List UInt8) (psw : CharBuffer) (newKeys : List UInt8) (newPsw : CharBuffer)
  | reboot (keys : List UInt8) (psw : CharBuffer)

/-- Runs of the store, with what `Match_psw` returned. -/
def storeRuns : Machine Eeprom StoreAct (Option UInt8) where
  step m
    | .register tagId => (none, (at24c02.exec (registerCard tagId) m).2)
    | .delete tagId => (none, (at24c02.exec (deleteRegisteredTag tagId) m).2)
    | .delAll => (none, (at24c02.exec delAllTag m).2)
    | .doorMatch tagId => (none, (at24c02.exec (tagMatch tagId) m).2)
    | .passwordMenu keys psw newKeys newPsw => at24c02.exec (DoorSecurity.passwordMenu keys psw newKeys newPsw) m
    | .reboot keys psw => (none, (at24c02.exec (boot keys psw) m).2)

/-- The step leaves the password bytes alone, or is a `password_setting` right after a
`Match_psw` that returned 1 against them. -/
def PasswordGuarded (m : Eeprom) (act : StoreAct) : Prop :=
  (storeRuns.step m act).2.password = m.password ∨
    ∃ keys psw newKeys newPsw, act = .passwordMenu keys psw newKeys newPsw ∧ (at24c02.exec (matchPsw keys psw) m).1 = some 1

/-- The step stores nothing else over `PSW_FLAG` through slot 56. -/
def KeepsFlag (m : Eeprom) : StoreAct → Prop
  | .register tagId => m.count = 55 → tagId ∈ m.tags ∨ tagId 3 = 0xaa
  | .delete tagId => m.count ≤ 55 ∨ tagId ∉ m.tags ∨ (m.count = 56 ∧ m.get (pswFlag + 4) = 0xaa)
  | .delAll => m.count ≤ 55
  | .doorMatch _ | .passwordMenu .. | .reboot .. => True

/-- Nothing from `PSW_FLAG` to the end of the password area changes. -/
def SameArea (m m' : Eeprom) : Prop := ∀ a, 224 ≤ a → a < 231 → m'.get a = m.get a

theorem SameArea.password {m m' : Eeprom} (same : SameArea m m') : m'.password = m.password :=
  password_congr fun a lower upper => same a (by omega) upper

theorem SameArea.flag {m m' : Eeprom} (same : SameArea m m') : m'.get pswFlag = m.get pswFlag :=
  same 224 (by omega) (by omega)

variable (m : Eeprom)

theorem sameArea_register (tagId : TagId) (flag : m.get pswFlag = 0xaa) (keeps : KeepsFlag m (.register tagId)) :
    SameArea m (at24c02.exec (registerCard tagId) m).2 := by
  intro a lower upper
  rw [exec_registerCard]
  by_cases present : tagId ∈ m.tags
  · rw [if_pos present]
  · rw [if_neg present]
    by_cases last : m.count = 55
    · have byte := (keeps last).resolve_left present
      by_cases here : a = 224
      · subst here
        have written := get_registTag_last m tagId (by omega)
        rw [last] at written
        exact written.trans (byte.trans flag.symm)
      · exact get_registTag_above m tagId (by omega) (by omega)
    · rcases Nat.lt_or_ge m.count 56 with room | full
      · exact get_registTag_above m tagId (by omega) (by omega)
      · rw [exec_registTag_full m tagId full]
        exact get_set_ne _ _ (by omega) (by omega) (by omega)

theorem sameArea_delete (tagId : TagId) (flag : m.get pswFlag = 0xaa) (keeps : KeepsFlag m (.delete tagId)) :
    SameArea m (at24c02.exec (deleteRegisteredTag tagId) m).2 := by
  intro a lower upper
  by_cases present : tagId ∈ m.tags
  · rcases keeps with small | absent | ⟨full, next⟩
    · exact get_deleteRegisteredTag_above m tagId (by omega) (by omega) (by omega)
    · exact absurd present absent
    · by_cases here : a = 224
      · subst here
        have last := get_deleteRegisteredTag_last m tagId (by omega) present
        rw [full] at last
        exact last.trans (next.trans flag.symm)
      · exact get_deleteRegisteredTag_above m tagId (by omega) (by omega) (by omega)
  · rw [exec_deleteRegisteredTag_absent m tagId present]

theorem sameArea_delAll (keeps : KeepsFlag m .delAll) : SameArea m (at24c02.exec delAllTag m).2 := by
  intro a lower upper
  have small : m.count ≤ 55 := keeps
  exact get_delAllTag_above m (by omega) (by omega)

/-- With the flag set a boot writes at most byte 0. -/
theorem sameArea_boot (keys : List UInt8) (psw : CharBuffer) (flag : m.get pswFlag = 0xaa) :
    SameArea m (at24c02.exec (boot keys psw) m).2 := by
  have init : SameArea m (at24c02.exec at24cxxInit m).2 := by
    intro a lower upper
    rw [exec_at24cxxInit]
    split
    · rfl
    · exact get_set_ne _ _ (by omega) (by omega) (by omega)
  unfold boot
  rw [Device.exec_bind, exec_pswCheck_set _ (init.flag.trans flag)]
  exact init

/-- The password menu writes only in case 1, and then only the password bytes. -/
theorem exec_passwordMenu (keys : List UInt8) (psw : CharBuffer) (newKeys : List UInt8) (newPsw : CharBuffer) :
    (at24c02.exec (passwordMenu keys psw newKeys newPsw) m).2 =
      if matchAnswer m.password keys psw = some 1 then (at24c02.exec (passwordSetting newKeys newPsw) m).2 else m := by
  unfold passwordMenu
  rw [Device.exec_bind_of _ (exec_matchPsw m keys psw)]
  split
  · rw [Device.exec_bind]; rfl
  · rfl

/-- **The step lemma.** A set flag stays set, and the step is guarded. -/
theorem step_keeps_flag (act : StoreAct) (flag : m.get pswFlag = 0xaa) (keeps : KeepsFlag m act) :
    PasswordGuarded m act ∧ (storeRuns.step m act).2.get pswFlag = 0xaa := by
  have guarded : SameArea m (storeRuns.step m act).2 → PasswordGuarded m act ∧ (storeRuns.step m act).2.get pswFlag = 0xaa :=
    fun same => ⟨.inl same.password, same.flag.trans flag⟩
  cases act with
  | register tagId => exact guarded (sameArea_register m tagId flag keeps)
  | delete tagId => exact guarded (sameArea_delete m tagId flag keeps)
  | delAll => exact guarded (sameArea_delAll m keeps)
  | doorMatch tagId =>
    apply guarded
    simp only [storeRuns, exec_tagMatch]
    exact fun _ _ _ => rfl
  | reboot keys psw => exact guarded (sameArea_boot m keys psw flag)
  | passwordMenu keys psw newKeys newPsw =>
    by_cases matched : matchAnswer m.password keys psw = some 1
    · refine ⟨.inr ⟨keys, psw, newKeys, newPsw, rfl, by rw [exec_matchPsw]; exact matched⟩, ?_⟩
      simp only [storeRuns, exec_passwordMenu, if_pos matched]
      rw [get_passwordSetting_outside m (by decide) (by decide)]
      exact flag
    · apply guarded
      simp only [storeRuns, exec_passwordMenu, if_neg matched]
      exact fun _ _ _ => rfl

/-- **Authority over the password.** From a set flag, in a run that keeps slot 56 off the
flag, the password bytes change only by a `password_setting` after a successful `Match_psw`. -/
theorem password_guarded_of_keepsFlag (acts : List StoreAct) (flag : m.get pswFlag = 0xaa)
    (keeps : storeRuns.Within KeepsFlag acts m) : storeRuns.Within PasswordGuarded acts m :=
  storeRuns.within_of_invariant (fun m act => step_keeps_flag m act) acts flag keeps

theorem password_guarded_of_keepsFlag_firstBoot :
    storeRuns.Within PasswordGuarded [.register ![1, 2, 3, 4], .reboot [2, 69] fun _ => 0, .delAll] firstBoot := by
  refine password_guarded_of_keepsFlag firstBoot _ firstBoot_bytes.2.1 ⟨?_, trivial, ?_, trivial⟩
  · intro last
    exact absurd last (by decide)
  · show Eeprom.count _ ≤ 55
    decide

theorem reboot_step (keys : List UInt8) (psw : CharBuffer) :
    (storeRuns.step m (.reboot keys psw)).2 = (at24c02.exec (boot keys psw) m).2 := rfl

theorem run_register (ids : List TagId) :
    (storeRuns.run (ids.map .register) m).2 = registerCards m ids := by
  induction ids generalizing m with
  | nil => rfl
  | cons tagId ids ih => exact ih _

/-- 56 cards registered over the password 1; the reboot asks for a password and takes 2. -/
theorem full_store_resets_password :
    firstBoot.get pswFlag = 0xaa ∧
      ¬ storeRuns.Within PasswordGuarded (((List.range 56).map numberedTag).map .register ++ [.reboot [2, 69] fun _ => 0]) firstBoot := by
  refine ⟨firstBoot_bytes.2.1, fun within => ?_⟩
  obtain ⟨guarded, -⟩ := ((storeRuns.within_append _ _ _ _).mp within).2
  rw [run_register] at guarded
  obtain ⟨l, keys, holds, frame⟩ := firstBoot_registerCards (n := 56) (by decide)
  generalize registerCards firstBoot ((List.range 56).map numberedTag) = full at guarded holds frame
  have listed : full.slots 56 = (List.range 56).map numberedTag := by
    have tags := holds.tags
    rwa [Eeprom.tags, holds.count, keys, List.length_map, List.length_range] at tags
  -- the last slot's last byte is the flag
  have flag : full.get pswFlag = 55 := by
    have last := congrArg (fun s => s[55]?) listed
    have inside : 55 < (full.slots 56).length := by rw [slots_length]; decide
    simp only [List.getElem?_eq_getElem inside, slots_getElem, List.getElem?_map, List.getElem?_range (show 55 < 56 by decide),
      Option.map_some] at last
    have slot : full.slot 56 = numberedTag 55 := Option.some.inj last
    have byte := congrFun slot 3
    exact byte
  have password : full.password = firstBoot.password := password_congr fun a lower upper => frame a (by omega) (by omega)
  -- the boot asks for a password and stores the 2
  have entry : getUserInputPsw [2, 69] 0 (fun _ => 0) = some (1, Function.update (fun _ => 0) 0 50) := rfl
  have rebooted : (storeRuns.step full (.reboot [2, 69] fun _ => 0)).2 =
      (full.putPsw (Function.update (fun _ => 0) 0 50) 6).set pswFlag 0xaa := by
    rw [reboot_step, boot, Device.exec_bind, holds.init_keeps, exec_pswCheck_accepted full (by rw [flag]; decide) entry]
  have stored : (storeRuns.step full (.reboot [2, 69] fun _ => 0)).2.password = [50, 0, 0, 0, 0, 0] := by
    have bytes : ((full.putPsw (Function.update (fun _ => 0) 0 50) 6).set pswFlag 0xaa).password =
        (full.putPsw (Function.update (fun _ => 0) 0 50) 6).password := by
      apply password_congr
      intro a lower upper
      exact get_set_ne _ _ (by decide) (by omega) (by unfold pswFlag; omega)
    rw [rebooted, bytes, password_putPsw]
    rfl
  rcases guarded with same | ⟨_, _, _, _, act, _⟩
  · rw [stored, password, firstBoot_bytes.2.2] at same
    exact absurd same (by decide)
  · exact StoreAct.noConfusion act

end DoorSecurity
