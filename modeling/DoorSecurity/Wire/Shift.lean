import DoorSecurity.Bus.Program

/-!
# Words shifted out and in

A master puts a word on a line by showing the top bit of a register and shifting the
register up, and takes one from a line by shifting samples in at the bottom. Both
loops are programs over any pins and any register type; what crosses the line is
the word's bits, the most significant first (`taps_msb`), and shifting these in gives
the word back whatever the register held before (`pushed_msbs`).
-/

namespace Wire
set_option autoImplicit false
open Bus

section Bits

variable {w : Nat}

/-- The bits of a word, the most significant first. -/
def msbs (x : BitVec w) : List Bool := List.ofFn fun i : Fin w => x.getMsbD i

/-- A register after some bits were shifted in at its bottom. -/
def pushed (r : BitVec w) (bits : List Bool) : BitVec w := bits.foldl BitVec.shiftConcat r

@[simp] theorem length_msbs (x : BitVec w) : (msbs x).length = w := List.length_ofFn

theorem getElem_msbs (x : BitVec w) {i : Nat} (h : i < (msbs x).length) : (msbs x)[i] = x.getMsbD i :=
  List.getElem_ofFn h

theorem pushed_append (r : BitVec w) (bits : List Bool) (b : Bool) : pushed r (bits ++ [b]) = (pushed r bits).shiftConcat b :=
  List.foldl_append

/-- The bits of a register that some bits were shifted into: the last of them at the bottom,
what it held before above. -/
theorem getLsbD_pushed (r : BitVec w) (bits : List Bool) :
    ∀ {i}, i < w → (pushed r bits).getLsbD i = bits.reverse.getD i (r.getLsbD (i - bits.length)) := by
  induction bits using List.reverseRecOn with
  | nil => intro i _; simp [pushed]
  | append_singleton bits b ih =>
    intro i inside
    rw [pushed_append, BitVec.getLsbD_shiftConcat, List.reverse_append, List.reverse_singleton, List.singleton_append,
      List.length_append, List.length_singleton]
    cases i with
    | zero => simp [inside]
    | succ i =>
      rw [if_neg (by omega), Nat.add_sub_cancel, ih (by omega), List.getD_cons_succ, Nat.add_sub_add_right]
      simp [inside]

/-- **A word crosses the line whole**, whatever the register held. -/
theorem pushed_msbs (r x : BitVec w) : pushed r (msbs x) = x := by
  apply BitVec.eq_of_getLsbD_eq
  intro i inside
  rw [getLsbD_pushed r _ inside, List.getD_eq_getElem _ _ (by simpa using inside), List.getElem_reverse, getElem_msbs,
    BitVec.getMsbD_eq_getLsbD, length_msbs]
  rw [show w - 1 - (w - 1 - i) = i by omega, decide_eq_true (show w - 1 - i < w by omega), Bool.true_and]

end Bits

section Out

variable {A V τ R Q : Type} {top : R → Bool} {shl : R → R}

/-- The bits that a register shows at its top while it is shifted up. -/
def taps (top : R → Bool) (shl : R → R) : Nat → R → List Bool
  | 0, _ => []
  | n + 1, r => top r :: taps top shl n (shl r)

@[simp] theorem length_taps (n : Nat) : ∀ r : R, (taps top shl n r).length = n := by
  induction n with
  | zero => intro r; rfl
  | succ n ih =>
    intro r
    rw [taps, List.length_cons, ih]

/-- A register read as another one shows the same bits. -/
theorem taps_map (φ : R → Q) {top' : Q → Bool} {shl' : Q → Q} (tops : ∀ r, top r = top' (φ r)) (shls : ∀ r, φ (shl r) = shl' (φ r))
    (n : Nat) : ∀ r, taps top shl n r = taps top' shl' n (φ r) := by
  induction n with
  | zero => intro r; rfl
  | succ n ih =>
    intro r
    rw [taps, taps, tops, ih, shls]

theorem getElem_taps {w : Nat} (n : Nat) : ∀ (x : BitVec w) {i : Nat} (h : i < (taps BitVec.msb (· <<< 1) n x).length),
    (taps BitVec.msb (· <<< 1) n x)[i] = x.getMsbD i := by
  induction n with
  | zero => intro x i h; exact absurd h (Nat.not_lt_zero i)
  | succ n ih =>
    intro x i h
    cases i with
    | zero => exact BitVec.msb_eq_getMsbD_zero x
    | succ i => exact (ih (x <<< 1) (Nat.lt_of_succ_lt_succ h)).trans (BitVec.getMsbD_shiftLeft x 1)

/-- A word shifted out shows its bits, the most significant first. -/
theorem taps_msb {w : Nat} (x : BitVec w) : taps BitVec.msb (· <<< 1) w x = msbs x := by
  apply List.ext_getElem
  · rw [length_taps, length_msbs]
  · intro i _ _
    rw [getElem_taps, getElem_msbs]

/-- `for (t = 0; t < n; t++)`: show the top bit, clock it, shift the register up. -/
def shiftOut (top : R → Bool) (shl : R → R) (clock : Bool → Prog A V Unit) (n : Nat) (r : R) : Prog A V R :=
  Prog.forLoop 0 n r fun _ r => do
    clock (top r)
    pure (shl r)

/-- **The rule for a word shifted out**: what each clock makes of the bits taken so far. -/
theorem run_shiftOut (h : Handler τ A V) {clock : Bool → Prog A V Unit} {n : Nat} {Taken : List Bool → τ → Prop}
    (clocked : ∀ {b bits t}, bits.length < n → Taken bits t → Taken (bits ++ [b]) (run h (clock b) t).2)
    {r : R} {t : τ} (entry : Taken [] t) : Taken (taps top shl n r) (run h (shiftOut top shl clock n r) t).2 := by
  suffices rounds : ∀ k lo r t bits, bits.length + k = n → Taken bits t →
      Taken (bits ++ taps top shl k r) (run h (Prog.forLoop lo k r fun _ r => do clock (top r); pure (shl r)) t).2 from
    rounds n 0 r t [] (by simp) entry
  intro k
  induction k with
  | zero =>
    intro lo r t bits _ taken
    rw [taps, List.append_nil]
    exact taken
  | succ k ih =>
    intro lo r t bits fits taken
    rw [Prog.forLoop_succ, run_bind, run_bind, taps, List.append_cons]
    exact ih (lo + 1) (shl r) _ _ (by simp; omega) (clocked (by omega) taken)

end Out

section In

variable {A V τ R Q : Type} {push : R → Bool → R}

/-- `for (t = 0; t < n; t++)`: sample the line and shift the sample in. -/
def shiftIn (push : R → Bool → R) (sample : Prog A V Bool) (n : Nat) (r : R) : Prog A V R :=
  Prog.forLoop 0 n r fun _ r => do
    let b ← sample
    pure (push r b)

/-- **The rule for a word shifted in**: each sample takes the first of the bits still to come. -/
theorem run_shiftIn (h : Handler τ A V) {sample : Prog A V Bool} {Given : List Bool → τ → Prop}
    (sampled : ∀ {b bits t}, Given (b :: bits) t → (run h sample t).1 = b ∧ Given bits (run h sample t).2)
    {bits : List Bool} {t : τ} (r : R) (entry : Given bits t) :
    (run h (shiftIn push sample bits.length r) t).1 = bits.foldl push r ∧
      Given [] (run h (shiftIn push sample bits.length r) t).2 := by
  unfold shiftIn
  generalize 0 = lo
  induction bits generalizing lo r t with
  | nil => exact ⟨rfl, entry⟩
  | cons b bits ih =>
    obtain ⟨answer, next⟩ := sampled entry
    rw [List.length_cons, Prog.forLoop_succ, run_bind, run_bind, answer]
    exact ih (push r b) next (lo + 1)

/-- A register read as another one takes the same bits. -/
theorem foldl_push_map (φ : R → Q) {push' : Q → Bool → Q} (pushes : ∀ r b, φ (push r b) = push' (φ r) b) (bits : List Bool) (r : R) :
    φ (bits.foldl push r) = bits.foldl push' (φ r) := by
  induction bits generalizing r with
  | nil => rfl
  | cons b bits ih => exact (ih _).trans (by rw [pushes]; rfl)

end In

section Bytes

/-- The bits of a byte, the most significant first. -/
def byteBits (b : UInt8) : List Bool := msbs b.toBitVec

/-- The byte with these bits. -/
def byteOf (bits : List Bool) : UInt8 := ⟨pushed 0 bits⟩

@[simp] theorem length_byteBits (b : UInt8) : (byteBits b).length = 8 := length_msbs _

@[simp] theorem byteOf_byteBits (b : UInt8) : byteOf (byteBits b) = b :=
  UInt8.toBitVec_inj.mp (pushed_msbs 0 b.toBitVec)

/-- The top bit of a byte, as `x & 0x80` has it. -/
theorem and_0x80 (x : UInt8) : x &&& 0x80 = (if x.toBitVec.msb then 0x80 else 0) := by
  apply UInt8.toBitVec_inj.mp
  have mask := BitVec.and_twoPow x.toBitVec 7
  rw [BitVec.msb_eq_getLsbD_last]
  cases top : x.toBitVec.getLsbD (8 - 1) with
  | false => exact mask.trans (if_neg (by rw [top]; decide))
  | true => exact mask.trans (if_pos top)

/-- The test `x & 0x80`. -/
def byteTop (x : UInt8) : Bool := x &&& 0x80 ≠ 0

theorem byteTop_eq (x : UInt8) : byteTop x = x.toBitVec.msb := by
  unfold byteTop
  rw [and_0x80]
  cases x.toBitVec.msb <;> rfl

/-- A byte shifted up eight times shows its bits. -/
theorem taps_byte {top : UInt8 → Bool} (tops : ∀ x, top x = x.toBitVec.msb) (b : UInt8) : taps top (· <<< 1) 8 b = byteBits b := by
  have same : taps top (· <<< 1) 8 b = taps BitVec.msb (· <<< 1) 8 b.toBitVec := taps_map UInt8.toBitVec tops (fun _ => rfl) 8 b
  exact same.trans (taps_msb b.toBitVec)

/-- The bits of a byte make that byte of any register that they are shifted into. -/
theorem foldl_byteBits {push : UInt8 → Bool → UInt8} (pushes : ∀ x b, (push x b).toBitVec = x.toBitVec.shiftConcat b) (r b : UInt8) :
    (byteBits b).foldl push r = b := by
  apply UInt8.toBitVec_inj.mp
  rw [foldl_push_map UInt8.toBitVec pushes]
  exact pushed_msbs r.toBitVec b.toBitVec

end Bytes

end Wire
