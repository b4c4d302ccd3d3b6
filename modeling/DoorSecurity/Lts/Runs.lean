import Mathlib

/-!
# Runs and their past

A run of a step relation carries its events, the newest first. `Since` speaks of
what has gone on ever since something began, and is all the past that the
properties of runs here need.
-/

namespace Lts
set_option autoImplicit false

variable {S E : Type}

/-- The runs of a step relation, with their events, the newest first. -/
inductive Runs (step : S → E → S → Prop) (start : S) : List E → S → Prop
  | nil : Runs step start [] start
  | snoc {es : List E} {s s' : S} {e : E} (before : Runs step start es s) (last : step s e s') : Runs step start (e :: es) s'

/-- An invariant of the events and the state that every step keeps. -/
theorem Runs.invariant {step : S → E → S → Prop} {start s : S} {es : List E} {I : List E → S → Prop} (initially : I [] start)
    (kept : ∀ {es s e s'}, I es s → step s e s' → I (e :: es) s') (run : Runs step start es s) : I es s := by
  induction run with
  | nil => exact initially
  | snoc before last ih => exact kept ih last

theorem Runs.mono {step wider : S → E → S → Prop} {start s : S} {es : List E} (allowed : ∀ s e s', step s e s' → wider s e s')
    (run : Runs step start es s) : Runs wider start es s := by
  induction run with
  | nil => exact .nil
  | snoc before last ih => exact .snoc ih (allowed _ _ _ last)

/-- Some event `began`, after the older ones, and all events since `keep`. -/
def Since (keep : E → Prop) (began : E → List E → Prop) : List E → Prop
  | [] => False
  | e :: es => began e es ∨ (keep e ∧ Since keep began es)

variable {keep : E → Prop} {began : E → List E → Prop} {e : E} {es : List E}

theorem since_cons : Since keep began (e :: es) ↔ began e es ∨ (keep e ∧ Since keep began es) := Iff.rfl

theorem Since.now (here : began e es) : Since keep began (e :: es) := .inl here

theorem Since.still (past : Since keep began es) (kept : keep e) : Since keep began (e :: es) := .inr ⟨kept, past⟩

end Lts
