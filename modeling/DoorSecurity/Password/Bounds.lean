import DoorSecurity.Password.Editor

/-!
# The password buffer's bounds

`password_setting` passes `psw[6]` and `Match_psw` passes `user_psw[7]`. The loop
writes `psw[6]` with a seventh digit, and `LCD_ShowString` reads from the front
of the buffer up to a byte that is not printable, which neither caller puts there.
A display is therefore within the array only while an unprintable byte of its
initial content is left.
-/

namespace DoorSecurity
set_option autoImplicit false
open Lts

/-- `(*p<='~')&&(*p>=' ')`. -/
def Printable (c : UInt8) : Prop := c ≤ 126 ∧ 32 ≤ c

instance (c : UInt8) : Decidable (Printable c) := inferInstanceAs (Decidable (_ ∧ _))

/-- Where `LCD_ShowString` stands when it tests `p[k]`; `none` once it has left its loop. The
box's corner, width and height are already added up. -/
def lcdShowStringAt (x0 width height size : Nat) (p : CharBuffer) (x y : Nat) : Nat → Option (Nat × Nat)
  | 0 => some (x, y)
  | k + 1 =>
    match lcdShowStringAt x0 width height size p x y k with
    | none => none
    | some (x, y) =>
      if Printable (p k) then
        let (x, y) := if x > width then (x0, (y + size) % 65536) else (x, y)
        if y > height then none else some ((x + size / 2) % 65536, y)
      else none

/-- `LCD_ShowString(x,y,width,height,size,p)` tests `p[k]`. -/
def LcdShowStringReads (x y width height size : Nat) (p : CharBuffer) (k : Nat) : Prop :=
  lcdShowStringAt (x % 256) ((width + x) % 65536) ((height + y) % 65536) size p x y k ≠ none

/-- `LCD_ShowString(0,70,200,24,24,psw)` tests `psw[k]`. -/
def DisplayReads (psw : CharBuffer) (k : Nat) : Prop := LcdShowStringReads 0 70 200 24 24 psw k

/-- The indices of `psw` that a round writes or has displayed. -/
def Keypad.Accesses (s : Keypad) (tem : UInt8) (k : Nat) : Prop :=
  s.returned = none ∧
    if tem ≤ 9 then k = s.i ∨ (s.i + 1 > 6 ∧ k ≤ 6) ∨ DisplayReads (s.round tem).psw k
    else tem = 67 ∧ s.i ≠ 0 ∧ (k = s.i - 1 ∨ DisplayReads (s.round tem).psw k)

/-- The functions that pass a buffer of their own. -/
inductive EntryCaller where
  | passwordSetting
  | matchPsw

/-- The length of the array: `psw[6]`, `user_psw[7]`. -/
def EntryCaller.length : EntryCaller → Nat
  | passwordSetting => 6
  | matchPsw => 7

/-- The round keeps inside an array of length `n`. -/
def InBounds (n : Nat) (s : Keypad) (tem : UInt8) : Prop := ∀ k, s.Accesses tem k → k < n

/-- The longest string a key sequence types, a clearing seventh digit counted. -/
def Editor.longest (e : Editor) : List UInt8 → Nat
  | [] => 0
  | key :: keys =>
    if e.returned = none then max (if key ≤ 9 then e.digits.length + 1 else 0) ((e.round key).longest keys) else 0

/-- No digit is typed, or the array holds an unprintable byte that no digit reaches. -/
def StopsInside (n : Nat) (initial : CharBuffer) (typed : Nat) : Prop :=
  typed = 0 ∨ ∃ k, typed ≤ k ∧ k < n ∧ ¬ Printable (initial k)

/-- Every byte before a tested one is printable. -/
theorem printable_of_lcdShowStringAt {x0 width height size x y : Nat} {p : CharBuffer} {k : Nat}
    (tested : lcdShowStringAt x0 width height size p x y k ≠ none) : ∀ j < k, Printable (p j) := by
  induction k with
  | zero => intro j lt; omega
  | succ k ih =>
    unfold lcdShowStringAt at tested
    cases before : lcdShowStringAt x0 width height size p x y k with
    | none => rw [before] at tested; contradiction
    | some c =>
      rw [before] at tested
      have here : Printable (p k) := by
        by_contra stop
        simp only [if_neg stop] at tested
        contradiction
      intro j lt
      rcases Nat.lt_succ_iff_lt_or_eq.mp lt with earlier | rfl
      · exact ih (by rw [before]; exact Option.some_ne_none c) j earlier
      · exact here

/-- The first seventeen characters of the display stand on one line. -/
theorem lcdShowStringAt_line {psw : CharBuffer} {k : Nat} (line : k ≤ 17) (printable : ∀ j < k, Printable (psw j)) :
    lcdShowStringAt 0 200 94 24 psw 0 70 k = some (12 * k, 70) := by
  induction k with
  | zero => rfl
  | succ k ih =>
    rw [lcdShowStringAt, ih (by omega) fun j lt => printable j (by omega)]
    simp only [if_pos (printable k (by omega)), if_neg (show ¬ 12 * k > 200 by omega), if_neg (show ¬ 70 > 94 by omega)]
    congr 2
    omega

/-- A display of `n` printable bytes goes on to the byte after them. -/
theorem displayReads_bounded {psw : CharBuffer} {n : Nat} (small : n ≤ 17) :
    (∀ k, DisplayReads psw k → k < n) ↔ ∃ k < n, ¬ Printable (psw k) := by
  constructor
  · intro bounded
    by_contra none
    push Not at none
    have tested : DisplayReads psw n := by
      unfold DisplayReads LcdShowStringReads
      rw [lcdShowStringAt_line small none]
      exact Option.some_ne_none _
    exact Nat.lt_irrefl n (bounded n tested)
  · rintro ⟨j, inside, stop⟩ k tested
    by_contra beyond
    exact stop (printable_of_lcdShowStringAt tested j (by omega))

theorem printable_keyChar {key : UInt8} (digit : key ≤ 9) : Printable (keyChar key) := by
  have table : ∀ k : Fin 10, Printable (keyChar (UInt8.ofNat k.val)) := by decide
  have small : key.toNat ≤ 9 := UInt8.le_iff_toNat_le.mp digit
  have known := table ⟨key.toNat, by omega⟩
  rwa [show UInt8.ofNat key.toNat = key from UInt8.ofNat_toNat] at known

/-- The buffer's first `typed` bytes are printable, the others are the initial ones. -/
structure Marked (initial : CharBuffer) (typed : Nat) (psw : CharBuffer) : Prop where
  printable : ∀ k < typed, Printable (psw k)
  kept : ∀ k, typed ≤ k → psw k = initial k

namespace Marked

variable {initial psw : CharBuffer} {typed : Nat}

/-- A printable byte written inside the marked part or next to it. -/
theorem update (h : Marked initial typed psw) {i : Nat} (near : i ≤ typed) {c : UInt8} (printable : Printable c) :
    Marked initial (max typed (i + 1)) (Function.update psw i c) := by
  constructor
  · intro k lt
    by_cases here : k = i
    · rw [here, Function.update_self]
      exact printable
    · rw [Function.update_of_ne here]
      exact h.printable k (by omega)
  · intro k ge
    rw [Function.update_of_ne (by omega)]
    exact h.kept k (by omega)

/-- The clearing loop marks seven bytes. -/
theorem blank (h : Marked initial typed psw) : Marked initial (max typed 7) (blankChars psw) := by
  unfold blankChars
  constructor
  · intro k lt
    by_cases cleared : k ≤ 6
    · simp only [if_pos cleared]
      decide
    · simp only [if_neg cleared]
      exact h.printable k (by omega)
  · intro k ge
    rw [if_neg (by omega)]
    exact h.kept k (by omega)

end Marked

/-- The loop at the editor's string, with `typed` bytes of the buffer written. -/
structure Filled (initial : CharBuffer) (typed : Nat) (e : Editor) (s : Keypad) : Prop where
  index : s.i = e.digits.length
  reached : s.i ≤ typed
  marked : Marked initial typed s.psw

namespace Filled

variable {initial : CharBuffer} {typed : Nat} {e : Editor} {s : Keypad}

theorem start (psw : CharBuffer) : Filled psw 0 .start (.start psw) where
  index := rfl
  reached := Nat.le_refl _
  marked := ⟨fun k h => absurd h (Nat.not_lt_zero k), fun _ _ => rfl⟩

/-- A display within `n` bytes needs an unprintable initial byte past the written ones. -/
theorem display (h : Filled initial typed e s) {n : Nat} (small : n ≤ 17) :
    (∀ k, DisplayReads s.psw k → k < n) ↔ ∃ k, typed ≤ k ∧ k < n ∧ ¬ Printable (initial k) := by
  rw [displayReads_bounded small]
  constructor
  · rintro ⟨k, inside, stop⟩
    have behind : typed ≤ k := by
      by_contra before
      exact stop (h.marked.printable k (by omega))
    exact ⟨k, behind, inside, h.marked.kept k behind ▸ stop⟩
  · rintro ⟨k, behind, inside, stop⟩
    exact ⟨k, inside, (h.marked.kept k behind).symm ▸ stop⟩

/-- A digit: one more byte may have been written; the seventh clears seven. -/
theorem digit (h : Filled initial typed e s) {key : UInt8} (digit : key ≤ 9) :
    Filled initial (max typed (e.digits.length + 1)) (e.round key) (s.round key) := by
  have index := h.index
  have short := e.short
  have written := h.marked.update h.reached (printable_keyChar digit)
  rw [index] at written
  unfold Editor.round Keypad.round
  simp only [if_pos digit, index]
  by_cases full : e.digits.length + 1 > 6
  · have blanked := written.blank
    rw [Nat.max_eq_left (by omega)] at blanked
    rw [if_pos full, Editor.type, dif_neg (by omega)]
    exact ⟨rfl, Nat.zero_le _, blanked⟩
  · rw [if_neg full, Editor.type, dif_pos (by omega)]
    exact ⟨by simp, by simp, written⟩

/-- The other keys write at most a space over a digit. -/
theorem other (h : Filled initial typed e s) {key : UInt8} (digit : ¬ key ≤ 9) :
    Filled initial typed (e.round key) (s.round key) := by
  have index := h.index
  have reached := h.reached
  have empty : e.digits = [] ↔ s.i = 0 := by rw [← List.length_eq_zero_iff, index]
  unfold Editor.round Keypad.round
  simp only [if_neg digit, empty]
  by_cases back : key = 67
  · simp only [if_pos back]
    by_cases none : s.i = 0
    · rw [if_pos none, if_pos none]
      exact ⟨index, reached, h.marked⟩
    · have written := h.marked.update (i := s.i - 1) (c := 32) (by omega) (by decide)
      rw [Nat.max_eq_left (by omega)] at written
      rw [if_neg none, if_neg none]
      exact ⟨by simp [Editor.drop, index], by simp only; omega, written⟩
  · simp only [if_neg back]
    split
    · split
      · exact h
      · exact ⟨index, reached, h.marked⟩
    · exact h

/-- A digit's round is in bounds exactly when its display is. -/
theorem digit_inBounds (h : Filled initial typed e s) (going : s.returned = none) {key : UInt8} (digit : key ≤ 9) {n : Nat}
    (small : n ≤ 7) : InBounds n s key ↔ StopsInside n initial (max typed (e.digits.length + 1)) := by
  have next := h.digit digit
  have index := h.index
  have short := e.short
  have shown := next.display (show n ≤ 17 by omega)
  unfold InBounds Keypad.Accesses StopsInside
  simp only [going, if_pos digit, true_and]
  constructor
  · intro inside
    exact .inr (shown.mp fun k tested => inside k (.inr (.inr tested)))
  · rintro (none | ⟨k, behind, lt, stop⟩)
    · omega
    · rintro j (rfl | ⟨full, le⟩ | tested)
      · omega
      · omega
      · exact shown.mpr ⟨k, behind, lt, stop⟩ j tested

/-- The other keys display the buffer only when a digit has been typed. -/
theorem other_inBounds (h : Filled initial typed e s) {key : UInt8} (digit : ¬ key ≤ 9) {n : Nat} (small : n ≤ 7)
    (stops : StopsInside n initial typed) : InBounds n s key := by
  have next := h.other digit
  have reached := h.reached
  rintro j ⟨-, accessed⟩
  rw [if_neg digit] at accessed
  obtain ⟨-, filled, write | tested⟩ := accessed
  · rcases stops with none | ⟨k, behind, lt, -⟩ <;> omega
  · apply (next.display (show n ≤ 17 by omega)).mpr _ j tested
    exact stops.resolve_left (by omega)

end Filled

theorem StopsInside.mono {n : Nat} {initial : CharBuffer} {typed more : Nat} (le : typed ≤ more) (stops : StopsInside n initial more) :
    StopsInside n initial typed := by
  rcases stops with none | ⟨k, behind, lt, stop⟩
  · exact .inl (by omega)
  · exact .inr ⟨k, by omega, lt, stop⟩

theorem longest_cons {e : Editor} (going : e.returned = none) (key : UInt8) (keys : List UInt8) :
    e.longest (key :: keys) = max (if key ≤ 9 then e.digits.length + 1 else 0) ((e.round key).longest keys) := if_pos going

/-- From a round on, with the displays so far inside the array, the run keeps inside it exactly
when an unprintable byte is left past the longest string. -/
theorem within_iff {n : Nat} (small : n ≤ 7) {initial : CharBuffer} (keys : List UInt8) :
    ∀ {typed : Nat} {e : Editor} {s : Keypad}, Filled initial typed e s → Shows e s → StopsInside n initial typed →
      (keypadLoop.Within (InBounds n) keys s ↔ StopsInside n initial (max typed (e.longest keys))) := by
  induction keys with
  | nil =>
    intro typed e s _ _ stops
    exact iff_of_true trivial (by rwa [Editor.longest, Nat.max_zero])
  | cons key keys ih =>
    intro typed e s filled shows stops
    rw [Machine.within_cons]
    by_cases going : s.returned = none
    · have next : (keypadLoop.step s key).2 = s.round key := if_pos going
      have shown := shows.round key
      rw [next, longest_cons (shows.returned ▸ going), ← Nat.max_assoc]
      by_cases digit : key ≤ 9
      · rw [if_pos digit, filled.digit_inBounds going digit small]
        constructor
        · rintro ⟨here, rest⟩
          exact (ih (filled.digit digit) shown here).mp rest
        · intro later
          have here := later.mono (Nat.le_max_left _ _)
          exact ⟨here, (ih (filled.digit digit) shown here).mpr later⟩
      · rw [if_neg digit, Nat.max_zero, ih (filled.other digit) shown stops]
        exact and_iff_right (filled.other_inBounds digit small stops)
    · have next : (keypadLoop.step s key).2 = s := if_neg going
      have silent : e.longest (key :: keys) = 0 := if_neg (shows.returned ▸ going)
      have idle : e.longest keys = 0 := by
        cases keys with
        | nil => rfl
        | cons _ _ => exact if_neg (shows.returned ▸ going)
      rw [next, silent, ← idle, ih filled shows stops]
      exact and_iff_right fun k accessed => absurd accessed.1 going

/-- **The buffer's bounds are kept exactly when** no digit is typed or the caller's array holds,
past the longest string typed, an unprintable byte. -/
theorem inBounds_iff (caller : EntryCaller) (keys : List UInt8) (psw : CharBuffer) :
    keypadLoop.Within (InBounds caller.length) keys (.start psw) ↔ StopsInside caller.length psw (Editor.start.longest keys) := by
  have small : caller.length ≤ 7 := by cases caller <;> decide
  have known := within_iff small keys (Filled.start psw) (Shows.start psw) (.inl rfl)
  rwa [Nat.zero_max] at known

/-- Seven digits in `password_setting`'s array: the seventh is written to `psw[6]`. -/
theorem seventh_digit_overruns :
    let s := (keypadLoop.run [1, 2, 3, 4, 5, 6] (.start fun _ => 0)).2
    s.i = EntryCaller.passwordSetting.length ∧ s.Accesses 7 6 ∧
      ¬ keypadLoop.Within (InBounds EntryCaller.passwordSetting.length) [1, 2, 3, 4, 5, 6, 7] (.start fun _ => 0) := by
  intro s
  have written : s.Accesses 7 6 := ⟨rfl, .inl rfl⟩
  refine ⟨rfl, written, fun within => ?_⟩
  have last := ((keypadLoop.within_append _ [1, 2, 3, 4, 5, 6] [7] _).mp within).2
  exact absurd (last.1 6 written) (by decide)

end DoorSecurity
