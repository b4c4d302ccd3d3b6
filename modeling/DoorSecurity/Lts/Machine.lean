import Mathlib

/-!
# Machines that answer commands, and their refinement

A deterministic machine answers each command and moves on. One machine
refines another under a precondition on the commands when each step answers
alike and keeps a relation between the states; the relation and the answers then
carry over to whole runs (`Refinement.run`).
-/

namespace Lts
set_option autoImplicit false

structure Machine (S C O : Type) where
  step : S → C → O × S

variable {S A C O : Type}

namespace Machine

/-- The answers to a list of commands and the state after it. -/
def run (M : Machine S C O) : List C → S → List O × S
  | [], s => ([], s)
  | c :: cs, s => ((M.step s c).1 :: (M.run cs (M.step s c).2).1, (M.run cs (M.step s c).2).2)

/-- Every command of the run meets `pre` in the state that it finds. -/
def Within (M : Machine S C O) (pre : S → C → Prop) : List C → S → Prop
  | [], _ => True
  | c :: cs, s => pre s c ∧ M.Within pre cs (M.step s c).2

theorem run_cons (M : Machine S C O) (c : C) (cs : List C) (s : S) :
    M.run (c :: cs) s = ((M.step s c).1 :: (M.run cs (M.step s c).2).1, (M.run cs (M.step s c).2).2) := rfl

theorem within_cons (M : Machine S C O) (pre : S → C → Prop) (c : C) (cs : List C) (s : S) :
    M.Within pre (c :: cs) s ↔ pre s c ∧ M.Within pre cs (M.step s c).2 := Iff.rfl

theorem within_append (M : Machine S C O) (pre : S → C → Prop) (cs ds : List C) (s : S) :
    M.Within pre (cs ++ ds) s ↔ M.Within pre cs s ∧ M.Within pre ds (M.run cs s).2 := by
  induction cs generalizing s with
  | nil => exact ⟨fun h => ⟨trivial, h⟩, fun h => h.2⟩
  | cons c cs ih => rw [List.cons_append, within_cons, within_cons, ih, and_assoc]; rfl

theorem within_of_always (M : Machine S C O) {pre : S → C → Prop} (always : ∀ s c, pre s c) (cs : List C) :
    ∀ s, M.Within pre cs s := by
  induction cs with
  | nil => intro s; trivial
  | cons c cs ih => exact fun s => ⟨always s c, ih _⟩

/-- **The run rule.** An invariant that every step under `pre` keeps while it meets `post`
gives `post` at every step of a run. -/
theorem within_of_invariant (M : Machine S C O) {pre post : S → C → Prop} {I : S → Prop}
    (step : ∀ s c, I s → pre s c → post s c ∧ I (M.step s c).2) (cs : List C) :
    ∀ {s}, I s → M.Within pre cs s → M.Within post cs s := by
  induction cs with
  | nil => intro s _ _; trivial
  | cons c cs ih =>
    intro s entry within
    obtain ⟨here, next⟩ := step s c entry within.1
    exact ⟨here, ih next within.2⟩

end Machine

/-- `M` implements `N` through `R` on commands that meet `pre`. -/
structure Refinement (M : Machine S C O) (N : Machine A C O) (pre : S → C → Prop) (R : A → S → Prop) : Prop where
  answer : ∀ {a s c}, R a s → pre s c → (M.step s c).1 = (N.step a c).1
  keep : ∀ {a s c}, R a s → pre s c → R (N.step a c).2 (M.step s c).2

/-- **Refinement of runs**, of any length. -/
theorem Refinement.run {M : Machine S C O} {N : Machine A C O} {pre : S → C → Prop} {R : A → S → Prop}
    (refines : Refinement M N pre R) (cs : List C) :
    ∀ {a s}, R a s → M.Within pre cs s → (M.run cs s).1 = (N.run cs a).1 ∧ R (N.run cs a).2 (M.run cs s).2 := by
  induction cs with
  | nil => intro a s related _; exact ⟨rfl, related⟩
  | cons c cs ih =>
    intro a s related within
    obtain ⟨answers, final⟩ := ih (refines.keep related within.1) within.2
    refine ⟨?_, final⟩
    rw [Machine.run_cons, Machine.run_cons, answers, refines.answer related within.1]

/-- A precondition of the abstract run that gives the one of each step gives the one of the run. -/
theorem Refinement.within {M : Machine S C O} {N : Machine A C O} {pre : S → C → Prop} {preN : A → C → Prop} {R : A → S → Prop}
    (refines : Refinement M N pre R) (meets : ∀ {a s c}, R a s → preN a c → pre s c) (cs : List C) :
    ∀ {a s}, R a s → N.Within preN cs a → M.Within pre cs s := by
  induction cs with
  | nil => intro a s _ _; trivial
  | cons c cs ih =>
    intro a s related within
    have here := meets related within.1
    exact ⟨here, ih (refines.keep related here) within.2⟩

end Lts
