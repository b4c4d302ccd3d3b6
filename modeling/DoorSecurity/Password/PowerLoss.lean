import DoorSecurity.Layout.Stores
import DoorSecurity.Lts.Runs
import DoorSecurity.Tags.PowerLoss

/-!
# Power loss while a password is stored

`psw_check` writes the flag after the six bytes, so it is done or not done, whenever
the power fails, and a password that was cut short is asked for again.
`password_setting` writes over the bytes of a flagged password: a cut leaves the first
bytes of the new entry before the last ones of the old. Over any number of calls
and cuts a password is a patchwork of accepted entries, and as long as no
`password_setting` is cut, the calls are atomic (`password_power_loss`).
-/

namespace DoorSecurity
set_option autoImplicit false
open Bus Eeprom Lts

/-- The buffer of an entry that is accepted. -/
def acceptedBuffer (keys : List UInt8) (psw : CharBuffer) : Option CharBuffer :=
  match getUserInputPsw keys 0 psw with
  | some (r, out) => if r = 1 then some out else none
  | none => none

theorem acceptedBuffer_iff {keys : List UInt8} {psw out : CharBuffer} :
    acceptedBuffer keys psw = some out ↔ getUserInputPsw keys 0 psw = some (1, out) := by
  unfold acceptedBuffer
  cases getUserInputPsw keys 0 psw with
  | none => simp
  | some answer =>
    obtain ⟨r, out'⟩ := answer
    by_cases accepted : r = 1 <;> simp [accepted]

theorem refused_of_none {keys : List UInt8} {psw : CharBuffer} (refused : acceptedBuffer keys psw = none) (out : CharBuffer) :
    getUserInputPsw keys 0 psw ≠ some (1, out) := by
  intro entry
  rw [acceptedBuffer_iff.mpr entry] at refused
  cases refused

section Cut

variable {m t : Eeprom} {keys : List UInt8} {psw out : CharBuffer}

/-- `password_setting` cut: some bytes of an accepted entry are stored. -/
theorem cut_passwordSetting (cut : at24c02.Cut (passwordSetting keys psw) m t) :
    t = m ∨ ∃ out n, acceptedBuffer keys psw = some out ∧ n ≤ 6 ∧ t = m.putPsw out n := by
  unfold passwordSetting at cut
  cases entry : getUserInputPsw keys 0 psw with
  | none =>
    rw [entry] at cut
    exact .inl (at24c02.cut_ret.mp cut)
  | some answer =>
    obtain ⟨r, out⟩ := answer
    rw [entry] at cut
    dsimp only at cut
    by_cases accepted : r = 1
    · subst accepted
      rw [if_pos rfl] at cut
      refine .inr ⟨out, ?_⟩
      have round : ∀ i, 0 ≤ i → i < 0 + 6 →
          at24c02.exec (at24cxxWriteOneByte (pswAddBase + i) (out i)) (m.putPsw out i) = ((), m.putPsw out (i + 1)) := by
        intro i _ upper
        rw [exec_writeOneByte (by unfold pswAddBase; omega)]
        rfl
      have stored : at24c02.exec (Prog.forLoop 0 6 () fun i _ => at24cxxWriteOneByte (pswAddBase + i) (out i)) m = ((), m.putPsw out 6) :=
        at24c02.exec_forLoop (fun _ => ()) (m.putPsw out) rfl rfl round
      rcases at24c02.cut_bind_of stored cut with inside | finished
      · rcases at24c02.cut_forLoop (fun _ => ()) (m.putPsw out) rfl round inside with ⟨i, lower, upper, byte⟩ | all
        · rcases cut_writeOneByte byte with before | after
          · exact ⟨i, acceptedBuffer_iff.mpr entry, by omega, before⟩
          · rw [round i lower upper] at after
            exact ⟨i + 1, acceptedBuffer_iff.mpr entry, by omega, after⟩
        · exact ⟨6, acceptedBuffer_iff.mpr entry, Nat.le_refl _, all⟩
      · exact ⟨6, acceptedBuffer_iff.mpr entry, Nat.le_refl _, at24c02.cut_ret.mp finished⟩
    · rw [if_neg accepted] at cut
      exact .inl (at24c02.cut_ret.mp cut)

/-- `psw_check` cut: nothing under a set flag; before that some bytes of an accepted entry, or all of them and the flag. -/
theorem cut_pswCheck (cut : at24c02.Cut (pswCheck keys psw) m t) :
    t = m ∨ m.get pswFlag ≠ 0xaa ∧ ∃ out, acceptedBuffer keys psw = some out ∧
      ((∃ n, n ≤ 6 ∧ t = m.putPsw out n) ∨ t = (m.putPsw out 6).set pswFlag 0xaa) := by
  unfold pswCheck at cut
  rw [cut_readOneByte_bind (by decide)] at cut
  by_cases set : m.get pswFlag = 0xaa
  · rw [if_neg (not_not_intro set)] at cut
    exact .inl (at24c02.cut_ret.mp cut)
  · rw [if_pos set] at cut
    rcases at24c02.cut_bind cut with inside | after
    · rcases cut_passwordSetting inside with same | ⟨out, n, accepted, le, stored⟩
      · exact .inl same
      · exact .inr ⟨set, out, accepted, .inl ⟨n, le, stored⟩⟩
    · by_cases entered : ∃ out, getUserInputPsw keys 0 psw = some (1, out)
      · obtain ⟨out, entry⟩ := entered
        rw [exec_passwordSetting m entry] at after
        simp only [if_pos (show (1 : UInt8) ≠ 0 by decide)] at after
        rw [cut_writeOneByte_bind (by decide)] at after
        refine .inr ⟨set, out, acceptedBuffer_iff.mpr entry, ?_⟩
        exact after.imp (fun before => ⟨6, Nat.le_refl _, before⟩) fun done => at24c02.cut_ret.mp done
      · obtain ⟨-, kept, zero⟩ := exec_passwordSetting_refused m fun out entry => entered ⟨out, entry⟩
        rw [kept] at after
        cases answer : (at24c02.exec (passwordSetting keys psw) m).1 with
        | none =>
          rw [answer] at after
          exact .inl (at24c02.cut_ret.mp after)
        | some r =>
          rw [answer] at after
          simp only [zero r answer, ne_eq, not_true_eq_false, if_false] at after
          exact .inl (at24c02.cut_ret.mp after)

/-- A program that only reads leaves everything, wherever it is cut. -/
theorem cut_of_reads {α : Type} {prog : Code α} (reads : prog.Confined fun r => ∃ x, r = .read x) (cut : at24c02.Cut prog m t) : t = m := by
  induction prog with
  | ret a => exact at24c02.cut_ret.mp cut
  | read x k ih => exact ih _ (reads.2 _) (at24c02.cut_read.mp cut)
  | write x v k ih =>
    obtain ⟨⟨_, same⟩, -⟩ := reads
    cases same

end Cut

/-- A call, or one that a power failure cuts off between two byte writes. -/
inductive PowerEvent where
  | called (c : PasswordCall)
  | cut (c : PasswordCall)

namespace PowerEvent

def call : PowerEvent → PasswordCall
  | .called c | .cut c => c

/-- A `password_setting` that was cut off. -/
def CutsSetting : PowerEvent → Prop
  | .cut (.passwordSetting _ _) => True
  | _ => False

end PowerEvent

inductive PowerStep : Eeprom → PowerEvent → Eeprom → Prop
  | called (m : Eeprom) (c : PasswordCall) : PowerStep m (.called c) (at24c02.exec c.code m).2
  | cut {m t : Eeprom} {c : PasswordCall} (cut : at24c02.Cut c.code m t) : PowerStep m (.cut c) t

namespace PasswordCall

/-- The buffer that the call would store. Under a set flag `psw_check` does not ask for one. -/
def entry (m : Eeprom) : PasswordCall → Option CharBuffer
  | .passwordSetting keys psw => acceptedBuffer keys psw
  | .pswCheck keys psw => if m.get pswFlag ≠ 0xaa then acceptedBuffer keys psw else none
  | .matchPsw _ _ => none

/-- The password after a whole call: `psw_check` sets one where there is none, `password_setting` replaces one. -/
def after : PasswordCall → Option (List UInt8) → Option (List UInt8)
  | .pswCheck keys psw, none => (acceptedBuffer keys psw).map pswImage
  | .passwordSetting keys psw, some password => some (((acceptedBuffer keys psw).map pswImage).getD password)
  | _, stored => stored

end PasswordCall

/-- A call is done or, where the power fails, lost. -/
inductive AtomicStep : Option (List UInt8) → PowerEvent → Option (List UInt8) → Prop
  | done (stored : Option (List UInt8)) (e : PowerEvent) : AtomicStep stored e (e.call.after stored)
  | lost (stored : Option (List UInt8)) (c : PasswordCall) : AtomicStep stored (.cut c) stored

namespace Eeprom

/-- The password, where the flag is set. -/
def storedPassword (m : Eeprom) : Option (List UInt8) := if m.get pswFlag = 0xaa then some m.password else none

end Eeprom

section Stored

variable {m m' : Eeprom} {out : CharBuffer} {n : Nat}

theorem putPsw_flag (le : n ≤ 6) : (m.putPsw out n).get pswFlag = m.get pswFlag :=
  get_putPsw_outside le (by decide) (by unfold pswFlag pswAddBase; omega)

theorem storedPassword_set (set : m.get pswFlag = 0xaa) : m.storedPassword = some m.password := if_pos set

theorem storedPassword_unset (unset : m.get pswFlag ≠ 0xaa) : m.storedPassword = none := if_neg unset

/-- Under a set flag the six bytes are the password at once. -/
theorem storedPassword_putPsw (set : m.get pswFlag = 0xaa) : (m.putPsw out 6).storedPassword = some (pswImage out) := by
  rw [storedPassword_set ((putPsw_flag (Nat.le_refl _)).trans set), password_putPsw]

theorem storedPassword_part (unset : m.get pswFlag ≠ 0xaa) (le : n ≤ 6) : (m.putPsw out n).storedPassword = none :=
  storedPassword_unset fun set => unset ((putPsw_flag le).symm.trans set)

/-- The flag comes last. -/
theorem storedPassword_flag : ((m.putPsw out 6).set pswFlag 0xaa).storedPassword = some (pswImage out) := by
  rw [storedPassword_set (get_set_self _ _ _)]
  have bytes : ((m.putPsw out 6).set pswFlag 0xaa).password = (m.putPsw out 6).password :=
    password_congr fun a lower upper => get_set_ne _ _ (by decide) (by omega) (by unfold pswFlag; omega)
  rw [bytes, password_putPsw]

/-- **A whole call** does to the password what it does at once. -/
theorem storedPassword_called (m : Eeprom) (c : PasswordCall) :
    (at24c02.exec c.code m).2.storedPassword = c.after m.storedPassword := by
  cases c with
  | passwordSetting keys psw =>
    show (at24c02.exec (passwordSetting keys psw) m).2.storedPassword = _
    by_cases set : m.get pswFlag = 0xaa
    · rw [storedPassword_set set]
      cases accepted : acceptedBuffer keys psw with
      | none =>
        rw [(exec_passwordSetting_refused m (refused_of_none accepted)).2.1, storedPassword_set set, PasswordCall.after, accepted]
        rfl
      | some out =>
        rw [exec_passwordSetting m (acceptedBuffer_iff.mp accepted), storedPassword_putPsw set, PasswordCall.after, accepted]
        rfl
    · rw [storedPassword_unset set]
      cases accepted : acceptedBuffer keys psw with
      | none =>
        rw [(exec_passwordSetting_refused m (refused_of_none accepted)).2.1, storedPassword_unset set]
        rfl
      | some out =>
        rw [exec_passwordSetting m (acceptedBuffer_iff.mp accepted), storedPassword_part set (Nat.le_refl _)]
        rfl
  | pswCheck keys psw =>
    show (at24c02.exec (PasswordCall.code (.pswCheck keys psw)) m).2.storedPassword = _
    rw [PasswordCall.code, Device.exec_bind]
    show (at24c02.exec (pswCheck keys psw) m).2.storedPassword = _
    by_cases set : m.get pswFlag = 0xaa
    · rw [exec_pswCheck_set m set, storedPassword_set set]
      rfl
    · rw [storedPassword_unset set, PasswordCall.after]
      cases accepted : acceptedBuffer keys psw with
      | none =>
        rw [exec_pswCheck_refused m (refused_of_none accepted), storedPassword_unset set]
        rfl
      | some out =>
        rw [exec_pswCheck_accepted m set (acceptedBuffer_iff.mp accepted), storedPassword_flag]
        rfl
  | matchPsw keys psw =>
    show (at24c02.exec (matchPsw keys psw) m).2.storedPassword = _
    rw [exec_matchPsw]
    rfl

end Stored

section Step

variable {m0 m m' : Eeprom} {e : PowerEvent} {es : List PowerEvent}

/-- A whole call is one that is cut after its last write. -/
theorem PowerStep.isCut (step : PowerStep m e m') : at24c02.Cut e.call.code m m' := by
  cases step with
  | called c => exact at24c02.cut_finish _ _
  | cut cut => exact cut

theorem same_of_matchPsw {keys : List UInt8} {psw : CharBuffer} (cut : at24c02.Cut (matchPsw keys psw) m m') : m' = m :=
  cut_of_reads (confined_matchPsw keys psw fun _ _ => ⟨_, rfl⟩) cut

/-- **Only `password_setting` can be half done.** -/
theorem PowerStep.atomic (step : PowerStep m e m') (whole : ¬ e.CutsSetting) : AtomicStep m.storedPassword e m'.storedPassword := by
  cases step with
  | called c =>
    rw [storedPassword_called]
    exact .done _ (.called c)
  | @cut _ c cut =>
    cases c with
    | passwordSetting keys psw => exact absurd trivial whole
    | pswCheck keys psw =>
      rcases cut_pswCheck (at24c02.cut_map cut) with same | ⟨unset, out, accepted, ⟨n, le, part⟩ | all⟩
      · rw [same]
        exact .lost _ _
      · rw [part, storedPassword_part unset le, storedPassword_unset unset]
        exact .lost _ _
      · have image : PasswordCall.after (.pswCheck keys psw) none = some (pswImage out) := by
          rw [PasswordCall.after, accepted]
          rfl
        rw [all, storedPassword_flag, storedPassword_unset unset, ← image]
        exact .done none (.cut (.pswCheck keys psw))
    | matchPsw keys psw =>
      rw [same_of_matchPsw cut]
      exact .lost _ _

/-- The buffer of an entry that some call of the run asked for and accepted. -/
def AcceptedIn (m0 : Eeprom) (es : List PowerEvent) (out : CharBuffer) : Prop :=
  ∃ e earlier m, (e :: earlier) <:+ es ∧ Runs PowerStep m0 earlier m ∧ e.call.entry m = some out

/-- Each byte of a flagged password is one of the first password's or of an entry that was accepted. -/
def Patchwork (m0 : Eeprom) (es : List PowerEvent) (m : Eeprom) : Prop :=
  m.get pswFlag = 0xaa → ∀ k, k < 6 → (m0.get pswFlag = 0xaa ∧ m.get (pswAddBase + k) = m0.get (pswAddBase + k)) ∨
    ∃ out, AcceptedIn m0 es out ∧ m.get (pswAddBase + k) = out k

theorem AcceptedIn.later {out : CharBuffer} (accepted : AcceptedIn m0 es out) : AcceptedIn m0 (e :: es) out := by
  obtain ⟨e', earlier, m, inside, run, entry⟩ := accepted
  exact ⟨e', earlier, m, inside.trans (List.suffix_cons e es), run, entry⟩

theorem PowerStep.patchwork (run : Runs PowerStep m0 es m) (step : PowerStep m e m') (before : Patchwork m0 es m) :
    Patchwork m0 (e :: es) m' := by
  have older : Patchwork m0 (e :: es) m := fun set k inside =>
    (before set k inside).imp_right fun ⟨out, entered, byte⟩ => ⟨out, entered.later, byte⟩
  have accepted {out : CharBuffer} (entry : e.call.entry m = some out) : AcceptedIn m0 (e :: es) out :=
    ⟨e, es, m, List.suffix_refl _, run, entry⟩
  have cut := step.isCut
  cases call : e.call with
  | passwordSetting keys psw =>
    rw [call] at cut
    rcases cut_passwordSetting cut with rfl | ⟨out, n, entry, le, rfl⟩
    · exact older
    · intro set k inside
      rw [putPsw_flag le] at set
      by_cases stored : k < n
      · exact .inr ⟨out, accepted (by rw [call]; exact entry), get_putPsw_inside le stored⟩
      · rw [get_putPsw_outside le (by unfold pswAddBase; omega) (by omega)]
        exact older set k inside
  | pswCheck keys psw =>
    rw [call] at cut
    rcases cut_pswCheck (at24c02.cut_map cut) with rfl | ⟨unset, out, entry, ⟨n, le, rfl⟩ | rfl⟩
    · exact older
    · intro set
      rw [putPsw_flag le] at set
      exact absurd set unset
    · intro _ k inside
      have asked : e.call.entry m = some out := by
        rw [call]
        exact (if_pos unset).trans entry
      refine .inr ⟨out, accepted asked, ?_⟩
      rw [get_set_ne _ _ (by decide) (by unfold pswAddBase; omega) (by unfold pswFlag pswAddBase; omega)]
      exact get_putPsw_inside (Nat.le_refl _) inside
  | matchPsw keys psw =>
    rw [call] at cut
    rw [same_of_matchPsw cut]
    exact older

/-- **The password over any number of calls and power failures.** As long as no `password_setting` is
cut off, each call is done at once or lost, and only a cut one is lost; in any case each byte of a flagged password is
the first password's or that of an entry which was accepted. -/
theorem password_power_loss (run : Runs PowerStep m0 es m) :
    ((∀ e ∈ es, ¬ e.CutsSetting) → Runs AtomicStep m0.storedPassword es m.storedPassword) ∧ Patchwork m0 es m := by
  constructor
  · intro whole
    induction run with
    | nil => exact .nil
    | snoc before last ih => exact .snoc (ih fun e mem => whole e (.tail _ mem)) (last.atomic (whole _ (.head _)))
  · induction run with
    | nil => exact fun set k _ => .inl ⟨set, rfl⟩
    | snoc before last ih => exact last.patchwork before ih

/-- The password 12, and 34 over it, cut off after one byte: the door's menus open for 32, which nobody entered. -/
theorem password_power_loss_patched :
    let z : CharBuffer := fun _ => 0
    let es : List PowerEvent := [.cut (.passwordSetting [3, 4, 69] z), .called (.pswCheck [1, 2, 69] z)]
    ∃ m, Runs PowerStep .blank es m ∧ (at24c02.exec (matchPsw [3, 2, 69] z) m).1 = some 1 ∧ Patchwork .blank es m := by
  intro z es
  have run : Runs PowerStep .blank es (at24c02.replay ((at24c02.writes (passwordSetting [3, 4, 69] z)
      (at24c02.exec (PasswordCall.code (.pswCheck [1, 2, 69] z)) .blank).2).take 1) (at24c02.exec (PasswordCall.code (.pswCheck [1, 2, 69] z)) .blank).2) :=
    .snoc (.snoc .nil (.called _ _)) (.cut ⟨1, rfl⟩)
  exact ⟨_, run, by decide, (password_power_loss run).2⟩

end Step

end DoorSecurity
