import DoorSecurity.Password.Store

/-!
# Setting and verifying a password

Six bytes are stored and six are compared, but an entry shorter than six digits
fills only the front of its buffer. Verification therefore decides equality of the
digits exactly when the left-over bytes of the two buffers neither differ where the
digits agree nor supply digits that one of the entries lacks.
-/

namespace DoorSecurity
set_option autoImplicit false
open Bus Eeprom

/-- The left-over bytes of the two buffers leave the decision to the digits. -/
structure LeftOversAgree (set : Draft) (setPsw : CharBuffer) (verify : Draft) (verifyPsw : CharBuffer) : Prop where
  /-- Equal digits are followed by the same bytes up to the first terminator. -/
  same : set.digits = verify.digits → cString (set.leftOver setPsw) = cString (verify.leftOver verifyPsw)
  /-- The bytes after the stored digits do not continue them to the digits verified. -/
  shorter : ∀ x, x ≠ [] → verify.digits = set.digits ++ x →
    cString (set.leftOver setPsw) ≠ x.map keyChar ++ cString (verify.leftOver verifyPsw)
  /-- The bytes after the digits verified do not continue them to the stored ones. -/
  longer : ∀ x, x ≠ [] → set.digits = verify.digits ++ x →
    cString (verify.leftOver verifyPsw) ≠ x.map keyChar ++ cString (set.leftOver setPsw)

theorem keyChar_injective : Function.Injective keyChar := fun _ _ h => (UInt8.add_left_inj 48).mp h

theorem keyChar_ne_zero {key : UInt8} (digit : key ≤ 9) : keyChar key ≠ 0 := by
  intro zero
  have sum := congrArg UInt8.toNat zero
  have small : key.toNat ≤ 9 := UInt8.le_iff_toNat_le.mp digit
  simp only [keyChar, UInt8.toNat_add, UInt8.reduceToNat] at sum
  omega

theorem cString_image {d : Draft} {psw : CharBuffer} (decimal : ∀ key ∈ d.digits, key ≤ 9) :
    cString (d.digits.map keyChar ++ d.leftOver psw) = d.digits.map keyChar ++ cString (d.leftOver psw) := by
  apply cString_append
  intro c mem
  obtain ⟨key, listed, rfl⟩ := List.mem_map.mp mem
  exact keyChar_ne_zero (decimal key listed)

/-- Digits continued to the characters of longer ones: the missing digits lead the rest. -/
theorem continued {s t : List UInt8} {l r : List UInt8} (h : s.map keyChar ++ l = t.map keyChar ++ r) :
    (s = t ∧ l = r) ∨ (∃ x, x ≠ [] ∧ t = s ++ x ∧ l = x.map keyChar ++ r) ∨ ∃ x, x ≠ [] ∧ s = t ++ x ∧ r = x.map keyChar ++ l := by
  rcases List.append_eq_append_iff.mp h with ⟨a, ht, hl⟩ | ⟨a, hs, hr⟩
  · obtain ⟨t1, x, rfl, heads, rfl⟩ := List.map_eq_append_iff.mp ht
    obtain rfl := keyChar_injective.list_map heads
    rcases List.eq_nil_or_concat x with rfl | ⟨_, _, nonempty⟩
    · exact .inl ⟨(List.append_nil _).symm, by simpa using hl⟩
    · exact .inr (.inl ⟨x, by simp [nonempty], rfl, hl⟩)
  · obtain ⟨s1, x, rfl, heads, rfl⟩ := List.map_eq_append_iff.mp hs
    obtain rfl := keyChar_injective.list_map heads
    rcases List.eq_nil_or_concat x with rfl | ⟨_, _, nonempty⟩
    · exact .inl ⟨List.append_nil _, by simpa using hr.symm⟩
    · exact .inr (.inr ⟨x, by simp [nonempty], rfl, hr⟩)

/-- Verification decides the stored image against the verified one. -/
theorem exec_matchPsw_stored {setKeys verifyKeys : List UInt8} {set verify : Draft} (stored : acceptedEntry setKeys = some set)
    (entered : acceptedEntry verifyKeys = some verify) (setPsw verifyPsw : CharBuffer) (m : Eeprom) :
    (at24c02.exec (passwordSetting setKeys setPsw) m).1 = some 1 ∧
      ((at24c02.exec (matchPsw verifyKeys verifyPsw) (at24c02.exec (passwordSetting setKeys setPsw) m).2).1 = some 1 ↔
        set.digits.map keyChar ++ cString (set.leftOver setPsw) = verify.digits.map keyChar ++ cString (verify.leftOver verifyPsw)) := by
  obtain ⟨setOut, setReturned, setImage⟩ := getUserInputPsw_accepted stored setPsw
  obtain ⟨verifyOut, verifyReturned, verifyImage⟩ := getUserInputPsw_accepted entered verifyPsw
  rw [exec_passwordSetting m setReturned, exec_matchPsw]
  refine ⟨rfl, ?_⟩
  simp only [matchAnswer, verifyReturned, if_true, password_putPsw, setImage, verifyImage,
    cString_image (acceptedEntry_digits stored).2.2, cString_image (acceptedEntry_digits entered).2.2]
  split
  · exact iff_of_true rfl ‹_›
  · exact iff_of_false (by decide) ‹_›

/-- **Set/verify agreement, exactly.** Whatever the two key sequences, `Match_psw` decides
equality of the digits if and only if the left-over bytes agree. -/
theorem verify_decides_digits_iff (m : Eeprom) (setKeys verifyKeys : List UInt8) (setPsw verifyPsw : CharBuffer)
    (returned : (at24c02.exec (passwordSetting setKeys setPsw) m).1 = some 1)
    (entry : ∃ out, getUserInputPsw verifyKeys 0 verifyPsw = some (1, out)) :
    ∃ set verify, acceptedEntry setKeys = some set ∧ acceptedEntry verifyKeys = some verify ∧
      (((at24c02.exec (matchPsw verifyKeys verifyPsw) (at24c02.exec (passwordSetting setKeys setPsw) m).2).1 = some 1 ↔
          set.digits = verify.digits) ↔
        LeftOversAgree set setPsw verify verifyPsw) := by
  have setEntry : ∃ out, getUserInputPsw setKeys 0 setPsw = some (1, out) := by
    by_contra none
    exact (exec_passwordSetting_refused m (fun out h => none ⟨out, h⟩)).1 returned
  obtain ⟨set, stored⟩ := acceptedEntry_of_returned setEntry.choose_spec
  obtain ⟨verify, entered⟩ := acceptedEntry_of_returned entry.choose_spec
  refine ⟨set, verify, stored, entered, ?_⟩
  rw [(exec_matchPsw_stored stored entered setPsw verifyPsw m).2]
  constructor
  · intro decides
    refine ⟨fun same => ?_, fun x nonempty longer tail => ?_, fun x nonempty longer tail => ?_⟩
    · have equal := decides.mpr same
      rw [same] at equal
      exact List.append_cancel_left equal
    · have equal := decides.mp (by rw [longer, tail, List.map_append, List.append_assoc])
      rw [longer] at equal
      exact nonempty (List.self_eq_append_right.mp equal)
    · have equal := decides.mp (by rw [longer, tail, List.map_append, List.append_assoc])
      rw [longer] at equal
      exact nonempty (List.self_eq_append_right.mp equal.symm)
  · intro agree
    constructor
    · intro equal
      rcases continued equal with ⟨same, -⟩ | ⟨x, nonempty, longer, tail⟩ | ⟨x, nonempty, longer, tail⟩
      · exact same
      · exact absurd tail (agree.shorter x nonempty longer)
      · exact absurd tail (agree.longer x nonempty longer)
    · intro same
      rw [agree.same same, same]

/-- Two entries of six digits: nothing is left over. -/
theorem leftOversAgree_of_full {set verify : Draft} (six : set.digits.length = 6) (six' : verify.digits.length = 6)
    (setPsw verifyPsw : CharBuffer) : LeftOversAgree set setPsw verify verifyPsw := by
  have noExtra : ∀ {s t x : List UInt8}, t = s ++ x → s.length = 6 → t.length = 6 → x = [] := by
    rintro s _ x rfl hs ht
    rw [List.length_append] at ht
    exact List.length_eq_zero_iff.mp (by omega)
  refine ⟨fun _ => ?_, fun x nonempty longer => absurd (noExtra longer six six') nonempty,
    fun x nonempty longer => absurd (noExtra longer six' six) nonempty⟩
  simp [Draft.leftOver, six, six']

theorem verify_decides_digits_iff_full :
    (at24c02.exec (matchPsw [1, 2, 3, 4, 5, 6, 69] fun _ => 7)
      (at24c02.exec (passwordSetting [1, 2, 3, 4, 5, 5, 67, 6, 69] fun _ => 0) .blank).2).1 = some 1 := by
  obtain ⟨set, verify, stored, entered, decides⟩ := verify_decides_digits_iff .blank [1, 2, 3, 4, 5, 5, 67, 6, 69] [1, 2, 3, 4, 5, 6, 69]
    (fun _ => 0) (fun _ => 7) rfl ⟨_, rfl⟩
  obtain rfl : set = ⟨[1, 2, 3, 4, 5, 6], 6⟩ := Option.some.inj (stored.symm.trans (by decide))
  obtain rfl : verify = ⟨[1, 2, 3, 4, 5, 6], 6⟩ := Option.some.inj (entered.symm.trans (by decide))
  exact (decides.mpr (leftOversAgree_of_full rfl rfl _ _)).mpr rfl

/-- The one-digit password 1 set over a zeroed buffer, verified over one that holds `x`s. -/
theorem same_digit_refused :
    acceptedEntry [1, 69] = some ⟨[1], 1⟩ ∧ (at24c02.exec (passwordSetting [1, 69] fun _ => 0) .blank).1 = some 1 ∧
      (at24c02.exec (matchPsw [1, 69] fun _ => 0x78) (at24c02.exec (passwordSetting [1, 69] fun _ => 0) .blank).2).1 = some 2 := by
  decide

end DoorSecurity
