import DoorSecurity.Bus.Program

/-!
# Programs on a bus that drops transactions

`flaky` numbers the transactions of a run and lets through those that `ack`
accepts. A dropped read answers the idle value, a dropped write changes
nothing. Where everything is let through the run is the direct one.
-/

namespace Bus
set_option autoImplicit false

variable {A V α σ : Type}

namespace Device

variable (d : Device σ A V)

/-- The device behind a bus that loses the transactions `ack` does not accept. -/
def flaky (ack : Nat → Bool) (idle : V) : Handler (Nat × σ) A V where
  read x t := (if ack t.1 then d.read t.2 x else idle, (t.1 + 1, t.2))
  write x v t := (t.1 + 1, if ack t.1 then d.write t.2 x v else t.2)

variable {ack : Nat → Bool} {idle : V}

/-- From a transaction on that nothing is dropped after, the run is the direct one. -/
theorem run_flaky_of_ack (p : Prog A V α) (n : Nat) (s : σ) (acked : ∀ i, n ≤ i → ack i = true) :
    (run (d.flaky ack idle) p (n, s)).1 = (d.exec p s).1 ∧ (run (d.flaky ack idle) p (n, s)).2.2 = (d.exec p s).2 := by
  induction p generalizing n s with
  | ret a => exact ⟨rfl, rfl⟩
  | read x k ih =>
    have here := acked n (Nat.le_refl _)
    simp only [run_read, exec_read, flaky, here, if_true]
    exact ih _ (n + 1) s fun i le => acked i (by omega)
  | write x v k ih =>
    have here := acked n (Nat.le_refl _)
    simp only [run_write, exec_write, flaky, here, if_true]
    exact ih (n + 1) _ fun i le => acked i (by omega)

end Device

end Bus
