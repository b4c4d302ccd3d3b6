import DoorSecurity.Password.Entry
import DoorSecurity.Lts.Machine

/-!
# The keypad loop, key by key

`Get_User_Input_psw` as a machine that answers each key with what it has returned,
nothing while it goes on. Its reference is the editor of strings of at most six
digits, and the loop refines it: the same value after the same key, the index at
the string's length and the digits' characters at the front of the buffer.
-/

namespace DoorSecurity
set_option autoImplicit false
open Lts

/-- The locals of `Get_User_Input_psw` between two keys, and what it has returned. -/
structure Keypad where
  i : Nat
  psw : CharBuffer
  returned : Option UInt8

/-- One round of the `while(1)`. -/
def Keypad.round (s : Keypad) (tem : UInt8) : Keypad :=
  if tem ≤ 9 then
    let psw := Function.update s.psw s.i (keyChar tem)
    if s.i + 1 > 6 then { s with i := 0, psw := blankChars psw } else { s with i := s.i + 1, psw := psw }
  else if tem = 67 then
    if s.i = 0 then { s with returned := some 0 } else { s with i := s.i - 1, psw := Function.update s.psw (s.i - 1) 32 }
  else if tem = 69 then
    if s.i = 0 then s else { s with returned := some 1 }
  else s

/-- At the call, with whatever the caller's buffer holds. -/
def Keypad.start (psw : CharBuffer) : Keypad := ⟨0, psw, none⟩

/-- A loop that has returned takes no more keys. -/
def Keypad.next (s : Keypad) (tem : UInt8) : Keypad := if s.returned = none then s.round tem else s

def keypadLoop : Machine Keypad UInt8 (Option UInt8) where
  step s tem := ((s.next tem).returned, s.next tem)

/-- A string of at most six digits, and the value the editor has returned. -/
@[ext] structure Editor where
  digits : List UInt8
  short : digits.length ≤ 6
  returned : Option UInt8

namespace Editor

def start : Editor := ⟨[], Nat.zero_le _, none⟩

/-- A digit appends; a seventh one clears to empty. -/
def type (e : Editor) (key : UInt8) : Editor :=
  if room : e.digits.length < 6 then ⟨e.digits ++ [key], by simpa using room, e.returned⟩
  else ⟨[], Nat.zero_le _, e.returned⟩

/-- Drop the last digit. -/
def drop (e : Editor) : Editor := ⟨e.digits.dropLast, by have := e.short; simp; omega, e.returned⟩

/-- One key: a digit, B/D (67), E (69), or none of them. -/
def round (e : Editor) (key : UInt8) : Editor :=
  if key ≤ 9 then e.type key
  else if key = 67 then if e.digits = [] then { e with returned := some 0 } else e.drop
  else if key = 69 then if e.digits = [] then e else { e with returned := some 1 }
  else e

def next (e : Editor) (key : UInt8) : Editor := if e.returned = none then e.round key else e

end Editor

def referenceEditor : Machine Editor UInt8 (Option UInt8) where
  step e key := ((e.next key).returned, e.next key)

theorem run_returned (keys : List UInt8) {s : Keypad} (done : s.returned ≠ none) : (keypadLoop.run keys s).2 = s := by
  induction keys with
  | nil => rfl
  | cons tem keys ih =>
    have idle : (keypadLoop.step s tem).2 = s := if_neg done
    rw [Machine.run_cons, idle]
    exact ih

/-- What `Get_User_Input_psw` returns is what the machine has returned after the keys. -/
theorem getUserInputPsw_eq_run (keys : List UInt8) : ∀ (i : Nat) (psw : CharBuffer),
    getUserInputPsw keys i psw = (keypadLoop.run keys ⟨i, psw, none⟩).2.returned.map fun r => (r, (keypadLoop.run keys ⟨i, psw, none⟩).2.psw) := by
  induction keys with
  | nil => intro i psw; rfl
  | cons tem keys ih =>
    intro i psw
    have stays : ∀ (r : UInt8), (keypadLoop.run keys ⟨i, psw, some r⟩).2 = ⟨i, psw, some r⟩ := by
      intro r
      apply run_returned
      simp
    have first : (keypadLoop.step ⟨i, psw, none⟩ tem).2 = Keypad.round ⟨i, psw, none⟩ tem := rfl
    rw [Machine.run_cons, first]
    unfold getUserInputPsw Keypad.round
    by_cases digit : tem ≤ 9
    · simp only [if_pos digit]
      by_cases full : i + 1 > 6
      · simp only [if_pos full]; exact ih 0 _
      · simp only [if_neg full]; exact ih (i + 1) _
    · simp only [if_neg digit]
      by_cases back : tem = 67
      · simp only [if_pos back]
        by_cases none : i = 0
        · simp only [if_pos none, stays]; rfl
        · simp only [if_neg none]; exact ih (i - 1) _
      · simp only [if_neg back]
        by_cases enter : tem = 69
        · simp only [if_pos enter]
          by_cases none : i = 0
          · simp only [if_pos none]; exact ih i psw
          · simp only [if_neg none, stays]; rfl
        · simp only [if_neg enter]; exact ih i psw

/-- The loop shows the editor's string: `Draft.Tracks` for a draft with its digits. -/
structure Shows (e : Editor) (s : Keypad) : Prop where
  returned : s.returned = e.returned
  tracks : ∃ (written : Nat) (initial : CharBuffer), (Draft.mk e.digits written).Tracks initial s.i s.psw

namespace Shows

variable {e : Editor} {s : Keypad}

theorem start (psw : CharBuffer) : Shows .start (.start psw) := ⟨rfl, 0, psw, Draft.Tracks.start psw⟩

theorem index (h : Shows e s) : s.i = e.digits.length := by
  obtain ⟨_, _, tracks⟩ := h.tracks
  exact tracks.index

theorem empty_iff (h : Shows e s) : e.digits = [] ↔ s.i = 0 := by rw [← List.length_eq_zero_iff, h.index]

theorem front (h : Shows e s) (k : Nat) (lt : k < e.digits.length) : s.psw k = keyChar e.digits[k] := by
  obtain ⟨_, _, tracks⟩ := h.tracks
  exact tracks.front k lt

/-- One case a key: digit, B/D, E, none. -/
theorem round (h : Shows e s) (key : UInt8) : Shows (e.round key) (s.round key) := by
  have index := h.index
  obtain ⟨written, initial, tracks⟩ := h.tracks
  unfold Editor.round Keypad.round
  by_cases digit : key ≤ 9
  · simp only [if_pos digit]
    by_cases full : s.i + 1 > 6
    · have cleared := tracks.clear key full
      rw [Draft.digit, if_pos (show e.digits.length = 6 by have := e.short; omega)] at cleared
      rw [Editor.type, dif_neg (by omega), if_pos full]
      exact ⟨h.returned, 6, initial, cleared⟩
    · have appended := tracks.append digit full
      rw [Draft.digit, if_neg (show ¬ e.digits.length = 6 by omega)] at appended
      rw [Editor.type, dif_pos (by omega), if_neg full]
      exact ⟨h.returned, _, initial, appended⟩
  · simp only [if_neg digit]
    by_cases back : key = 67
    · simp only [if_pos back, h.empty_iff]
      by_cases none : s.i = 0
      · rw [if_pos none, if_pos none]
        exact ⟨rfl, written, initial, tracks⟩
      · rw [if_neg none, if_neg none]
        exact ⟨h.returned, written, initial, tracks.remove none⟩
    · simp only [if_neg back]
      by_cases enter : key = 69
      · simp only [if_pos enter, h.empty_iff]
        by_cases none : s.i = 0
        · rw [if_pos none, if_pos none]
          exact h
        · rw [if_neg none, if_neg none]
          exact ⟨rfl, written, initial, tracks⟩
      · simp only [if_neg enter]
        exact h

theorem next (h : Shows e s) (key : UInt8) : Shows (e.next key) (s.next key) := by
  unfold Editor.next Keypad.next
  rw [h.returned]
  split
  · exact h.round key
  · exact h

end Shows

/-- **The keypad loop refines the editor.** -/
theorem keypad_refines_editor : Refinement keypadLoop referenceEditor (fun _ _ => True) Shows where
  answer h _ := (h.next _).returned
  keep h _ := h.next _

/-- After any keys the loop has returned what the editor has, key by key; its index is the length
of the editor's string and the buffer's front holds that string's characters. -/
theorem keypad_follows_editor (keys : List UInt8) (psw : CharBuffer) :
    let s := keypadLoop.run keys (.start psw)
    let e := referenceEditor.run keys .start
    s.1 = e.1 ∧ s.2.i = e.2.digits.length ∧ (∀ k (lt : k < e.2.digits.length), s.2.psw k = keyChar e.2.digits[k]) ∧
      getUserInputPsw keys 0 psw = e.2.returned.map fun r => (r, s.2.psw) := by
  intro s e
  have unconditional : keypadLoop.Within (fun _ _ => True) keys (.start psw) :=
    keypadLoop.within_of_always (fun _ _ => trivial) keys _
  obtain ⟨answers, shows⟩ := keypad_refines_editor.run keys (Shows.start psw) unconditional
  refine ⟨answers, shows.index, shows.front, ?_⟩
  rw [getUserInputPsw_eq_run, ← shows.returned]
  rfl

end DoorSecurity
