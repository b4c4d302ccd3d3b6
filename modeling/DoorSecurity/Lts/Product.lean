import DoorSecurity.Lts.Machine

/-!
# Machines side by side

Two machines may be given their commands in any order, on one state or each on a state
of its own. On states of their own neither sees the other (`run_par`). On one state
they work as if they had their own, where each is implemented through a relation that the
other's commands keep (`Refinement.shared`).
-/

namespace Lts
set_option autoImplicit false

variable {S A B C D O P : Type}

namespace Machine

/-- Two machines on one state. -/
def shared (M : Machine S C O) (N : Machine S D P) : Machine S (C ⊕ D) (O ⊕ P) where
  step s
    | .inl c => (.inl (M.step s c).1, (M.step s c).2)
    | .inr d => (.inr (N.step s d).1, (N.step s d).2)

/-- Two machines, each on a state of its own. -/
def par (M : Machine A C O) (N : Machine B D P) : Machine (A × B) (C ⊕ D) (O ⊕ P) where
  step s
    | .inl c => (.inl (M.step s.1 c).1, ((M.step s.1 c).2, s.2))
    | .inr d => (.inr (N.step s.2 d).1, (s.1, (N.step s.2 d).2))

variable (M : Machine A C O) (N : Machine B D P)

/-- **Neither machine sees the other**: the answers to each one's commands and its state are those of
its own run. -/
theorem run_par (cs : List (C ⊕ D)) (s : A × B) :
    let r := (M.par N).run cs s
    let left := M.run (cs.filterMap Sum.getLeft?) s.1
    let right := N.run (cs.filterMap Sum.getRight?) s.2
    r.1.filterMap Sum.getLeft? = left.1 ∧ r.1.filterMap Sum.getRight? = right.1 ∧ r.2 = (left.2, right.2) := by
  induction cs generalizing s with
  | nil => exact ⟨rfl, rfl, rfl⟩
  | cons c cs ih =>
    obtain ⟨left, right, final⟩ := ih ((M.par N).step s c).2
    cases c with
    | inl c => exact ⟨congrArg ((M.step s.1 c).1 :: ·) left, right, final⟩
    | inr d => exact ⟨left, congrArg ((N.step s.2 d).1 :: ·) right, final⟩

/-- What the commands of each find is what they find in its own run. -/
theorem within_par {preM : A → C → Prop} {preN : B → D → Prop} (cs : List (C ⊕ D)) (s : A × B) :
    (M.par N).Within (fun s => Sum.elim (preM s.1) (preN s.2)) cs s ↔
      M.Within preM (cs.filterMap Sum.getLeft?) s.1 ∧ N.Within preN (cs.filterMap Sum.getRight?) s.2 := by
  induction cs generalizing s with
  | nil => exact iff_of_true trivial ⟨trivial, trivial⟩
  | cons c cs ih =>
    rw [within_cons, ih]
    cases c with
    | inl c => exact and_assoc.symm
    | inr d => exact and_left_comm

end Machine

variable {M : Machine S C O} {N : Machine S D P} {K : Machine A C O} {L : Machine B D P} {pre : S → C → Prop} {preN : S → D → Prop}
  {R : A → S → Prop} {Q : B → S → Prop}

/-- **Two refinements on one state**, neither of which disturbs the other. -/
theorem Refinement.shared (left : Refinement M K pre R) (right : Refinement N L preN Q)
    (keepsRight : ∀ {a b s c}, R a s → Q b s → pre s c → Q b (M.step s c).2)
    (keepsLeft : ∀ {a b s d}, R a s → Q b s → preN s d → R a (N.step s d).2) :
    Refinement (M.shared N) (K.par L) (fun s => Sum.elim (pre s) (preN s)) (fun ab s => R ab.1 s ∧ Q ab.2 s) where
  answer {ab s c} both meets := by
    cases c with
    | inl c => exact congrArg Sum.inl (left.answer both.1 meets)
    | inr d => exact congrArg Sum.inr (right.answer both.2 meets)
  keep {ab s c} both meets := by
    cases c with
    | inl c => exact ⟨left.keep both.1 meets, keepsRight both.1 both.2 meets⟩
    | inr d => exact ⟨keepsLeft both.1 both.2 meets, right.keep both.2 meets⟩

end Lts
