import DoorSecurity.Eeprom.Device

/-!
# Entering a password (`Get_User_Input_psw`)

The keypad loop fills its caller's buffer in place. `Draft` is the editor it
implements, on digit strings; it also keeps how far the buffer has been
written, because the bytes past the digits reach the EEPROM and the comparison.
A deleted digit leaves a space; a position that no digit has reached keeps
whatever the stack held.
-/

namespace DoorSecurity
set_option autoImplicit false

/-- The bytes from the start of a `char psw[]` on. The clearing loop also writes `psw[6]`. -/
abbrev CharBuffer := Nat → UInt8

/-- A digit key as the character stored for it: `tem+'0'`. -/
def keyChar (tem : UInt8) : UInt8 := tem + 48

/-- `for(k=0;k<=6;k++) psw[k] = ' '`. -/
def blankChars (psw : CharBuffer) : CharBuffer := fun k => if k ≤ 6 then 32 else psw k

/-- `Get_User_Input_psw` on the values that `Get_Touch_KeyValue` returns: 0 to 9, 67 for B/D,
69 for E, `'a'` (97) without a key. `none` while it still waits for a key. -/
def getUserInputPsw : List UInt8 → Nat → CharBuffer → Option (UInt8 × CharBuffer)
  | [], _, _ => none
  | tem :: keys, i, psw =>
    if tem ≤ 9 then
      let psw := Function.update psw i (keyChar tem)
      if i + 1 > 6 then getUserInputPsw keys 0 (blankChars psw) else getUserInputPsw keys (i + 1) psw
    else if tem = 67 then
      if i = 0 then some (0, psw) else getUserInputPsw keys (i - 1) (Function.update psw (i - 1) 32)
    else if tem = 69 then
      if i = 0 then getUserInputPsw keys i psw else some (1, psw)
    else getUserInputPsw keys i psw

/-- An entry being edited: its digits, and how many buffer positions have been written. -/
structure Draft where
  digits : List UInt8
  written : Nat
deriving DecidableEq

namespace Draft

def start : Draft := ⟨[], 0⟩

/-- A digit appends; a seventh one clears all. -/
def digit (d : Draft) (key : UInt8) : Draft :=
  if d.digits.length = 6 then ⟨[], 6⟩ else ⟨d.digits ++ [key], max d.written (d.digits.length + 1)⟩

/-- The draft that E accepts. B/D removes the last digit, and cancels without one. -/
def edit : List UInt8 → Draft → Option Draft
  | [], _ => none
  | key :: keys, d =>
    if key ≤ 9 then edit keys (d.digit key)
    else if key = 67 then if d.digits = [] then none else edit keys ⟨d.digits.dropLast, d.written⟩
    else if key = 69 then if d.digits = [] then edit keys d else some d
    else edit keys d

/-- The bytes after the digits: spaces where a digit or a clearing has been, else the
buffer's initial ones. -/
def leftOver (d : Draft) (psw : CharBuffer) : List UInt8 :=
  (List.range' d.digits.length (6 - d.digits.length)).map fun k => if k < d.written then 32 else psw k

end Draft

/-- The accepted entry of a key sequence. -/
def acceptedEntry (keys : List UInt8) : Option Draft := Draft.edit keys .start

/-- The six bytes that are stored and compared. -/
def pswImage (psw : CharBuffer) : List UInt8 := (List.range 6).map psw

/-- What the loop keeps: `i` counts the digits, which stand at the front of the buffer. -/
structure Draft.Tracks (d : Draft) (initial : CharBuffer) (i : Nat) (psw : CharBuffer) : Prop where
  index : i = d.digits.length
  short : d.digits.length ≤ d.written
  bound : d.written ≤ 6
  decimal : ∀ key ∈ d.digits, key ≤ 9
  front : ∀ k (h : k < d.digits.length), psw k = keyChar d.digits[k]
  back : ∀ k, d.digits.length ≤ k → k < 6 → psw k = if k < d.written then 32 else initial k

namespace Draft.Tracks

variable {d : Draft} {initial psw : CharBuffer} {i : Nat}

theorem start (psw : CharBuffer) : Draft.start.Tracks psw 0 psw where
  index := rfl
  short := Nat.le_refl _
  bound := by decide
  decimal := by simp [Draft.start]
  front k h := absurd h (Nat.not_lt_zero k)
  back _ _ _ := by simp [Draft.start]

theorem append (t : d.Tracks initial i psw) {key : UInt8} (digit : key ≤ 9) (room : ¬ i + 1 > 6) :
    (d.digit key).Tracks initial (i + 1) (Function.update psw i (keyChar key)) := by
  have index := t.index
  have bound := t.bound
  rw [Draft.digit, if_neg (by omega)]
  constructor
  · simp [index]
  · simp
  · simp; omega
  · intro k mem
    rcases List.mem_append.mp mem with old | new
    · exact t.decimal k old
    · rw [List.mem_singleton.mp new]; exact digit
  · intro k h
    simp only [List.length_append, List.length_singleton] at h
    rcases Nat.lt_or_ge k d.digits.length with before | last
    · rw [Function.update_of_ne (by omega), t.front k before, List.getElem_append_left before]
    · obtain rfl : k = i := by omega
      rw [Function.update_self, List.getElem_append_right last]
      simp
  · intro k lower upper
    simp only [List.length_append, List.length_singleton] at lower
    rw [Function.update_of_ne (by omega), t.back k (by omega) upper]
    congr 1
    simp only [lt_sup_iff, eq_iff_iff]
    omega

theorem clear (t : d.Tracks initial i psw) (key : UInt8) (full : i + 1 > 6) :
    (d.digit key).Tracks initial 0 (blankChars (Function.update psw i (keyChar key))) := by
  have index := t.index
  have short := t.short
  have bound := t.bound
  rw [Draft.digit, if_pos (by omega)]
  refine ⟨rfl, by simp, Nat.le_refl _, by simp, fun k h => absurd h (Nat.not_lt_zero k), ?_⟩
  intro k _ upper
  simp only [blankChars, if_pos (show k ≤ 6 by omega), if_pos upper]

theorem remove (t : d.Tracks initial i psw) (filled : i ≠ 0) :
    (Draft.mk d.digits.dropLast d.written).Tracks initial (i - 1) (Function.update psw (i - 1) 32) := by
  have index := t.index
  have short := t.short
  constructor
  · simp [index]
  · simp; omega
  · exact t.bound
  · intro k mem
    exact t.decimal k (List.dropLast_subset _ mem)
  · intro k h
    simp only [List.length_dropLast] at h
    rw [Function.update_of_ne (by omega), t.front k (by omega), List.getElem_dropLast]
  · intro k lower upper
    simp only [List.length_dropLast] at lower
    rcases Nat.lt_or_ge k d.digits.length with removed | behind
    · obtain rfl : k = i - 1 := by omega
      rw [Function.update_self, if_pos (by simp only; omega)]
    · rw [Function.update_of_ne (by omega), t.back k behind upper]

/-- The six bytes are the digits followed by the left-over bytes. -/
theorem image (t : d.Tracks initial i psw) : pswImage psw = d.digits.map keyChar ++ d.leftOver initial := by
  have short := t.short
  have bound := t.bound
  apply List.ext_getElem
  · simp [pswImage, Draft.leftOver]; omega
  · intro k h _
    simp only [pswImage, List.length_map, List.length_range] at h
    simp only [pswImage, List.getElem_map, List.getElem_range]
    rcases Nat.lt_or_ge k d.digits.length with front | back
    · rw [List.getElem_append_left (by simpa using front), List.getElem_map, t.front k front]
    · rw [List.getElem_append_right (by simpa using back), t.back k back h]
      simp [Draft.leftOver, show d.digits.length + (k - d.digits.length) = k by omega]

end Draft.Tracks

/-- **The keypad loop is the editor.** It returns 1 exactly on an accepted draft, with that
draft in the buffer. -/
theorem getUserInputPsw_tracks (keys : List UInt8) :
    ∀ {d : Draft} {initial psw : CharBuffer} {i : Nat}, d.Tracks initial i psw →
      match d.edit keys with
      | some e => ∃ out, getUserInputPsw keys i psw = some (1, out) ∧ e.Tracks initial e.digits.length out ∧ e.digits ≠ []
      | none => ∀ r out, getUserInputPsw keys i psw = some (r, out) → r = 0 := by
  induction keys with
  | nil =>
    intro d initial psw i _ r out returned
    exact absurd returned (by simp [getUserInputPsw])
  | cons key keys ih =>
    intro d initial psw i t
    have empty : d.digits = [] ↔ i = 0 := by rw [← List.length_eq_zero_iff, t.index]
    unfold Draft.edit getUserInputPsw
    by_cases digit : key ≤ 9
    · simp only [if_pos digit]
      by_cases full : i + 1 > 6
      · rw [if_pos full]; exact ih (t.clear key full)
      · rw [if_neg full]; exact ih (t.append digit full)
    · simp only [if_neg digit]
      by_cases back : key = 67
      · simp only [if_pos back, empty]
        by_cases none : i = 0
        · simp only [if_pos none]
          rintro r out ⟨⟩
          rfl
        · simp only [if_neg none]; exact ih (t.remove none)
      · simp only [if_neg back]
        by_cases enter : key = 69
        · simp only [if_pos enter, empty]
          by_cases none : i = 0
          · simp only [if_pos none]; exact ih t
          · simp only [if_neg none]
            exact ⟨psw, rfl, t.index ▸ t, fun c => none (empty.mp c)⟩
        · simp only [if_neg enter]; exact ih t

/-- An accepted key sequence returns 1 with the digits and the left-over bytes in the buffer. -/
theorem getUserInputPsw_accepted {keys : List UInt8} {e : Draft} (accepted : acceptedEntry keys = some e) (psw : CharBuffer) :
    ∃ out, getUserInputPsw keys 0 psw = some (1, out) ∧ pswImage out = e.digits.map keyChar ++ e.leftOver psw := by
  have known := getUserInputPsw_tracks keys (Draft.Tracks.start psw)
  rw [show Draft.start.edit keys = some e from accepted] at known
  obtain ⟨out, returned, tracks, -⟩ := known
  exact ⟨out, returned, tracks.image⟩

theorem acceptedEntry_of_returned {keys : List UInt8} {psw out : CharBuffer} (returned : getUserInputPsw keys 0 psw = some (1, out)) :
    ∃ e, acceptedEntry keys = some e := by
  have known := getUserInputPsw_tracks keys (Draft.Tracks.start psw)
  unfold acceptedEntry
  cases accepted : Draft.start.edit keys with
  | some e => exact ⟨e, rfl⟩
  | none =>
    rw [accepted] at known
    exact absurd (known 1 out returned) (by decide)

/-- An accepted entry has a digit, and its digits are decimal. -/
theorem acceptedEntry_digits {keys : List UInt8} {e : Draft} (accepted : acceptedEntry keys = some e) :
    e.digits ≠ [] ∧ e.digits.length ≤ 6 ∧ ∀ key ∈ e.digits, key ≤ 9 := by
  have known := getUserInputPsw_tracks keys (Draft.Tracks.start fun _ => 0)
  rw [show Draft.start.edit keys = some e from accepted] at known
  obtain ⟨out, -, tracks, filled⟩ := known
  exact ⟨filled, Nat.le_trans tracks.short tracks.bound, tracks.decimal⟩

end DoorSecurity
