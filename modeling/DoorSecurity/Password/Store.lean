import DoorSecurity.Password.Entry

/-!
# The stored password (`bsp/password.c`)

Six bytes from `PSW_ADD_BASE` and a flag byte before them. Each function takes the
key values that its entry reads and the initial bytes of its buffer, and answers
`none` while the entry still waits for a key.
-/

namespace DoorSecurity
set_option autoImplicit false
open Bus

def pswFlag : Nat := 0xe0
def pswAddBase : Nat := 0xe1

/-- `password_setting`. -/
def passwordSetting (keys : List UInt8) (psw : CharBuffer) : Code (Option UInt8) :=
  match getUserInputPsw keys 0 psw with
  | none => return none
  | some (r, psw) =>
    if r = 1 then do
      Prog.forLoop 0 6 () fun i _ => at24cxxWriteOneByte (pswAddBase + i) (psw i)
      return some 1
    else return some 0

/-- `psw_check`, called at each boot. -/
def pswCheck (keys : List UInt8) (psw : CharBuffer) : Code (Option Unit) := do
  let tem ← at24cxxReadOneByte pswFlag
  if tem ≠ 0xaa then do
    match ← passwordSetting keys psw with
    | none => return none
    | some r =>
      if r ≠ 0 then do
        at24cxxWriteOneByte pswFlag 0xaa
        return some ()
      else return some ()
  else return some ()

/-- `rt_strcmp`; the end of a list stands for its terminator. -/
def rtStrcmp : List UInt8 → List UInt8 → Int
  | a :: cs, b :: ct => if a ≠ 0 ∧ a = b then rtStrcmp cs ct else (a.toNat : Int) - b.toNat
  | cs, ct => ((cs.headD 0).toNat : Int) - (ct.headD 0).toNat

/-- `Match_psw`: 1 for a match, 2 for a mismatch, 0 for a cancelled entry. -/
def matchPsw (keys : List UInt8) (psw : CharBuffer) : Code (Option UInt8) := do
  let eeprpmPsw ← Prog.forLoop 0 6 [] fun i bytes => do
    let b ← at24cxxReadOneByte (pswAddBase + i)
    return bytes ++ [b]
  match getUserInputPsw keys 0 psw with
  | none => return none
  | some (r, psw) =>
    if r = 1 then
      if rtStrcmp (eeprpmPsw ++ [0]) (pswImage psw ++ [0]) = 0 then return some 1 else return some 2
    else return some 0

/-- The bytes that a C string function sees. -/
def cString (s : List UInt8) : List UInt8 := s.takeWhile (· ≠ 0)

theorem cString_cons_zero (s : List UInt8) : cString (0 :: s) = [] := by simp [cString]

theorem cString_cons {c : UInt8} (h : c ≠ 0) (s : List UInt8) : cString (c :: s) = c :: cString s := by simp [cString, h]

theorem cString_append {s : List UInt8} (h : ∀ c ∈ s, c ≠ 0) (t : List UInt8) : cString (s ++ t) = s ++ cString t := by
  induction s with
  | nil => rfl
  | cons c s ih =>
    rw [List.cons_append, cString_cons (h c (by simp)), ih (fun c mem => h c (by simp [mem]))]
    rfl

theorem cString_terminated (s : List UInt8) : cString (s ++ [0]) = cString s := by
  induction s with
  | nil => rfl
  | cons c s ih =>
    rw [List.cons_append]
    by_cases h : c = 0
    · rw [h, cString_cons_zero, cString_cons_zero]
    · rw [cString_cons h, cString_cons h, ih]

theorem toNat_sub_eq_zero {a b : UInt8} : (a.toNat : Int) - b.toNat = 0 ↔ a = b := by
  rw [← UInt8.toNat_inj]
  omega

/-- `rt_strcmp` answers 0 for equal C strings. -/
theorem rtStrcmp_eq_zero (s t : List UInt8) : rtStrcmp s t = 0 ↔ cString s = cString t := by
  induction s generalizing t with
  | nil =>
    cases t with
    | nil => simp [rtStrcmp]
    | cons b t =>
      simp only [rtStrcmp, List.headD_nil, List.headD_cons, toNat_sub_eq_zero]
      by_cases h : b = 0
      · rw [h, cString_cons_zero]; simp [cString]
      · rw [cString_cons h]; simp [cString, Ne.symm h]
  | cons a s ih =>
    cases t with
    | nil =>
      simp only [rtStrcmp, List.headD_nil, List.headD_cons, toNat_sub_eq_zero]
      by_cases h : a = 0
      · rw [h, cString_cons_zero]; simp [cString]
      · rw [cString_cons h]; simp [cString, h]
    | cons b t =>
      simp only [rtStrcmp]
      by_cases same : a ≠ 0 ∧ a = b
      · obtain ⟨nonzero, rfl⟩ := same
        rw [if_pos ⟨nonzero, rfl⟩, ih, cString_cons nonzero, cString_cons nonzero, List.cons.injEq]
        exact ⟨fun h => ⟨rfl, h⟩, fun h => h.2⟩
      · rw [if_neg same, toNat_sub_eq_zero]
        by_cases ha : a = 0
        · rw [ha, cString_cons_zero]
          by_cases hb : b = 0
          · rw [hb, cString_cons_zero]; simp
          · rw [cString_cons hb]; simp [Ne.symm hb]
        · have different : a ≠ b := fun e => same ⟨ha, e⟩
          rw [cString_cons ha]
          by_cases hb : b = 0
          · rw [hb, cString_cons_zero]; simp [ha]
          · rw [cString_cons hb]; simp [different]

namespace Eeprom

variable (m : Eeprom)

/-- The six password bytes. -/
def password : List UInt8 := (List.range 6).map fun i => m.get (pswAddBase + i)

/-- The first `n` characters of a buffer in the password bytes. -/
def putPsw (psw : CharBuffer) : Nat → Eeprom
  | 0 => m
  | n + 1 => (putPsw psw n).set (pswAddBase + n) (psw n)

variable {m}

theorem get_putPsw_outside {psw : CharBuffer} {n a : Nat} (hn : n ≤ 6) (ha : a < 256)
    (outside : ¬ (pswAddBase ≤ a ∧ a < pswAddBase + n)) : (m.putPsw psw n).get a = m.get a := by
  unfold pswAddBase at outside
  induction n with
  | zero => rfl
  | succ n ih =>
    rw [putPsw, get_set_ne _ _ (by unfold pswAddBase; omega) ha (by unfold pswAddBase; omega)]
    exact ih (by omega) (by omega)

theorem get_putPsw_inside {psw : CharBuffer} {n k : Nat} (hn : n ≤ 6) (hk : k < n) :
    (m.putPsw psw n).get (pswAddBase + k) = psw k := by
  induction n with
  | zero => omega
  | succ n ih =>
    rw [putPsw]
    rcases Nat.lt_succ_iff_lt_or_eq.mp hk with before | rfl
    · rw [get_set_ne _ _ (by unfold pswAddBase; omega) (by unfold pswAddBase; omega) (by omega)]
      exact ih (by omega) before
    · exact get_set_self _ _ _

theorem password_putPsw (psw : CharBuffer) : (m.putPsw psw 6).password = pswImage psw := by
  apply List.map_congr_left
  intro k mem
  exact get_putPsw_inside (Nat.le_refl _) (List.mem_range.mp mem)

/-- The password bytes only depend on their own cells. -/
theorem password_congr {m' : Eeprom} (same : ∀ a, 225 ≤ a → a < 231 → m.get a = m'.get a) : m.password = m'.password := by
  apply List.map_congr_left
  intro k mem
  have range := List.mem_range.mp mem
  exact same _ (by unfold pswAddBase; omega) (by unfold pswAddBase; omega)

end Eeprom

open Eeprom

section Exec

variable (m : Eeprom)

/-- An accepted entry is stored, whatever the part held. -/
theorem exec_passwordSetting {keys : List UInt8} {psw out : CharBuffer} (entry : getUserInputPsw keys 0 psw = some (1, out)) :
    at24c02.exec (passwordSetting keys psw) m = (some 1, m.putPsw out 6) := by
  have stored : at24c02.exec (Prog.forLoop 0 6 () fun i _ => at24cxxWriteOneByte (pswAddBase + i) (out i)) m =
      ((), m.putPsw out 6) := by
    apply at24c02.exec_forLoop (fun _ => ()) (m.putPsw out) rfl rfl
    intro i _ upper
    rw [exec_writeOneByte (by unfold pswAddBase; omega)]
    rfl
  simp only [passwordSetting, entry, if_true]
  rw [Device.exec_bind_of _ stored]
  rfl

/-- Without one nothing is written. -/
theorem exec_passwordSetting_refused {keys : List UInt8} {psw : CharBuffer} (refused : ∀ out, getUserInputPsw keys 0 psw ≠ some (1, out)) :
    (at24c02.exec (passwordSetting keys psw) m).1 ≠ some 1 ∧ (at24c02.exec (passwordSetting keys psw) m).2 = m ∧
      ∀ r, (at24c02.exec (passwordSetting keys psw) m).1 = some r → r = 0 := by
  unfold passwordSetting
  cases entry : getUserInputPsw keys 0 psw with
  | none => exact ⟨by rintro ⟨⟩, rfl, by rintro r ⟨⟩⟩
  | some answer =>
    obtain ⟨r, out⟩ := answer
    have other : r ≠ 1 := by rintro rfl; exact refused out entry
    simp only [if_neg other]
    exact ⟨by rintro ⟨⟩, rfl, by rintro r ⟨⟩; rfl⟩

/-- What `Match_psw` answers for stored password bytes. -/
def matchAnswer (password : List UInt8) (keys : List UInt8) (psw : CharBuffer) : Option UInt8 :=
  match getUserInputPsw keys 0 psw with
  | none => none
  | some (r, out) => if r = 1 then if cString password = cString (pswImage out) then some 1 else some 2 else some 0

/-- `Match_psw` compares the password bytes as C strings and writes nothing. -/
theorem exec_matchPsw (keys : List UInt8) (psw : CharBuffer) :
    at24c02.exec (matchPsw keys psw) m = (matchAnswer m.password keys psw, m) := by
  have bytes : at24c02.exec (Prog.forLoop 0 6 ([] : List UInt8) fun i bytes => do
      let b ← at24cxxReadOneByte (pswAddBase + i)
      return bytes ++ [b]) m = (m.password, m) := by
    apply at24c02.exec_forLoop (fun n => (List.range n).map fun i => m.get (pswAddBase + i)) (fun _ => m) rfl rfl
    intro i _ upper
    rw [exec_readOneByte_bind (by unfold pswAddBase; omega), List.range_succ, List.map_append]
    rfl
  unfold matchPsw matchAnswer
  rw [Device.exec_bind_of _ bytes]
  cases getUserInputPsw keys 0 psw with
  | none => rfl
  | some answer =>
    obtain ⟨r, out⟩ := answer
    simp only [rtStrcmp_eq_zero, cString_terminated]
    split
    · split <;> rfl
    · rfl

/-- `psw_check` with the flag set does nothing. -/
theorem exec_pswCheck_set {keys : List UInt8} {psw : CharBuffer} (set : m.get pswFlag = 0xaa) :
    at24c02.exec (pswCheck keys psw) m = (some (), m) := by
  unfold pswCheck
  rw [exec_readOneByte_bind (by decide), if_neg (not_not_intro set)]
  rfl

/-- Without the flag an accepted entry becomes the password. -/
theorem exec_pswCheck_accepted {keys : List UInt8} {psw out : CharBuffer} (unset : m.get pswFlag ≠ 0xaa)
    (entry : getUserInputPsw keys 0 psw = some (1, out)) :
    at24c02.exec (pswCheck keys psw) m = (some (), (m.putPsw out 6).set pswFlag 0xaa) := by
  unfold pswCheck
  rw [exec_readOneByte_bind (by decide), if_pos unset, Device.exec_bind_of _ (exec_passwordSetting m entry)]
  simp only [if_pos (show (1 : UInt8) ≠ 0 by decide)]
  rw [exec_writeOneByte_bind (by decide)]
  rfl

theorem exec_pswCheck_refused {keys : List UInt8} {psw : CharBuffer} (refused : ∀ out, getUserInputPsw keys 0 psw ≠ some (1, out)) :
    (at24c02.exec (pswCheck keys psw) m).2 = m := by
  obtain ⟨-, kept, zero⟩ := exec_passwordSetting_refused m refused
  unfold pswCheck
  rw [exec_readOneByte_bind (by decide)]
  split
  · cases answer : at24c02.exec (passwordSetting keys psw) m with
    | mk r m' =>
      rw [answer] at kept zero
      rw [Device.exec_bind_of _ answer, ← show m' = m from kept]
      cases r with
      | none => rfl
      | some r => simp only [zero r rfl, ne_eq, not_true_eq_false, if_false]; rfl
  · rfl

end Exec

end DoorSecurity
