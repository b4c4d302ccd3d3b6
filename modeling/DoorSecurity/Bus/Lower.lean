import DoorSecurity.Bus.Program

/-!
# Transactions made of smaller transactions

A driver realises each transaction of one bus by a program over a lower bus, and
`Prog.lower` is a program with its transactions replaced by the driver's code. The
runs of the lowered program are those of the driver's handler (`run_lower`), so a
simulation of one transaction (`Simulates`) carries over to every program
(`Simulates.run`), on runs whose accesses the simulation covers.
-/

namespace Bus
set_option autoImplicit false

variable {A B V W α β τ υ : Type}

/-- Code for the transactions over `A` and `V`, on a bus over `B` and `W`. -/
structure Driver (A V B W : Type) where
  read : A → Prog B W V
  write : A → V → Prog B W Unit

/-- The handler that runs the driver's code. -/
def Handler.drive (h : Handler τ B W) (D : Driver A V B W) : Handler τ A V where
  read x t := run h (D.read x) t
  write x v t := (run h (D.write x v) t).2

/-- A program with the driver's code in the place of its transactions. -/
def Prog.lower (D : Driver A V B W) : Prog A V α → Prog B W α
  | .ret a => .ret a
  | .read x k => D.read x >>= fun v => (k v).lower D
  | .write x v k => D.write x v >>= fun _ => k.lower D

/-- **A lowered program runs as the program does over the driver.** -/
theorem run_lower (h : Handler τ B W) (D : Driver A V B W) (p : Prog A V α) (t : τ) :
    run h (p.lower D) t = run (h.drive D) p t := by
  induction p generalizing t with
  | ret a => rfl
  | read x k ih =>
    rw [Prog.lower, run_bind, ih]
    rfl
  | write x v k ih =>
    rw [Prog.lower, run_bind, ih]
    rfl

/-- A transaction without its data. -/
inductive Request (A : Type) where
  | read (x : A)
  | write (x : A)

def Request.addr : Request A → A
  | .read x => x
  | .write x => x

/-- Every access of the run meets `ok` in the state that it finds. -/
def Handler.Within (h : Handler τ A V) (ok : τ → Request A → Prop) : Prog A V α → τ → Prop
  | .ret _, _ => True
  | .read x k, t => ok t (.read x) ∧ h.Within ok (k (h.read x t).1) (h.read x t).2
  | .write x v k, t => ok t (.write x) ∧ h.Within ok k (h.write x v t)

/-- Every access of the program lies in `area`, whatever its reads answer. -/
def Prog.Confined (area : Request A → Prop) : Prog A V α → Prop
  | .ret _ => True
  | .read x k => area (.read x) ∧ ∀ v, (k v).Confined area
  | .write x _ k => area (.write x) ∧ k.Confined area

section Confined

variable {h : Handler τ A V} {ok : τ → Request A → Prop} {area : Request A → Prop}

theorem Prog.confined_bind {p : Prog A V α} {f : α → Prog A V β} (here : p.Confined area) (after : ∀ a, (f a).Confined area) :
    (p >>= f).Confined area := by
  induction p with
  | ret a => exact after a
  | read x k ih =>
    refine ⟨here.1, fun v => ?_⟩
    exact ih v (here.2 v)
  | write x v k ih =>
    refine ⟨here.1, ?_⟩
    exact ih here.2

theorem Prog.confined_map {p : Prog A V α} (here : p.Confined area) (f : α → β) : (p >>= fun a => pure (f a)).Confined area :=
  confined_bind here fun _ => trivial

theorem Prog.confined_forLoop {n : Nat} {body : Nat → β → Prog A V β} :
    ∀ {lo : Nat} {b : β}, (∀ i b, lo ≤ i → i < lo + n → (body i b).Confined area) → (forLoop lo n b body).Confined area := by
  induction n with
  | zero => intro lo b _; trivial
  | succ n ih =>
    intro lo b round
    rw [forLoop_succ]
    apply confined_bind (round lo b (Nat.le_refl _) (by omega))
    intro b'
    apply ih
    intro i b'' lower upper
    exact round i b'' (by omega) (by omega)

/-- A confined program stays in its area on each of its runs. -/
theorem Prog.Confined.within {p : Prog A V α} (confined : p.Confined area) (covered : ∀ t x, area x → ok t x) (t : τ) :
    h.Within ok p t := by
  induction p generalizing t with
  | ret a => trivial
  | read x k ih => exact ⟨covered t _ confined.1, ih _ (confined.2 _) _⟩
  | write x v k ih => exact ⟨covered t _ confined.1, ih confined.2 _⟩

theorem Handler.within_of_always (always : ∀ t x, ok t x) (p : Prog A V α) : ∀ t, h.Within ok p t := by
  induction p with
  | ret a => intro t; trivial
  | read x k ih => exact fun t => ⟨always t _, ih _ _⟩
  | write x v k ih => exact fun t => ⟨always t _, ih _⟩

theorem Handler.within_bind {p : Prog A V α} {f : α → Prog A V β} {t : τ} :
    h.Within ok (p >>= f) t ↔ h.Within ok p t ∧ h.Within ok (f (run h p t).1) (run h p t).2 := by
  induction p generalizing t with
  | ret a => exact ⟨fun after => ⟨trivial, after⟩, fun both => both.2⟩
  | read x k ih => exact (and_congr_right fun _ => ih _).trans and_assoc.symm
  | write x v k ih => exact (and_congr_right fun _ => ih).trans and_assoc.symm

end Confined

/-- Every result of the program meets `post`, whatever its reads answer. -/
def Prog.Yields (post : α → Prop) : Prog A V α → Prop
  | .ret a => post a
  | .read _ k => ∀ v, (k v).Yields post
  | .write _ _ k => k.Yields post

section Yields

variable {post wider : α → Prop} {done : β → Prop}

theorem Prog.Yields.mono {p : Prog A V α} (yields : p.Yields post) (weakens : ∀ a, post a → wider a) : p.Yields wider := by
  induction p with
  | ret a => exact weakens a yields
  | read x k ih => exact fun v => ih v (yields v)
  | write x v k ih => exact ih yields

theorem Prog.Yields.bind {p : Prog A V α} {f : α → Prog A V β} (yields : p.Yields post) (after : ∀ a, post a → (f a).Yields done) :
    (p >>= f).Yields done := by
  induction p with
  | ret a => exact after a yields
  | read x k ih =>
    intro v
    exact ih v (yields v)
  | write x v k ih => exact ih yields

/-- A sequence yields what its last part does after anything. -/
theorem Prog.yields_bind (p : Prog A V α) {f : α → Prog A V β} (after : ∀ a, (f a).Yields done) : (p >>= f).Yields done := by
  induction p with
  | ret a => exact after a
  | read x k ih => exact fun v => ih v
  | write x v k ih => exact ih

theorem Prog.Yields.run {p : Prog A V α} (yields : p.Yields post) (h : Handler τ A V) : ∀ t, post (Bus.run h p t).1 := by
  induction p with
  | ret a => exact fun _ => yields
  | read x k ih => exact fun t => ih _ (yields _) _
  | write x v k ih => exact fun t => ih yields _

end Yields

/-- The handler `g`, on transactions that meet `ok`, answers as `h` does and stays related
to it by `R`. -/
structure Simulates (h : Handler τ A V) (g : Handler υ A V) (ok : υ → Request A → Prop) (R : υ → τ → Prop) : Prop where
  read : ∀ {x t u}, R u t → ok u (.read x) → (h.read x t).1 = (g.read x u).1 ∧ R (g.read x u).2 (h.read x t).2
  write : ∀ {x v t u}, R u t → ok u (.write x) → R (g.write x v u) (h.write x v t)

/-- **Simulation of programs**: what holds of each transaction holds of the whole run. -/
theorem Simulates.run {h : Handler τ A V} {g : Handler υ A V} {ok : υ → Request A → Prop} {R : υ → τ → Prop}
    (sim : Simulates h g ok R) (p : Prog A V α) :
    ∀ {t u}, R u t → g.Within ok p u → (Bus.run h p t).1 = (Bus.run g p u).1 ∧ R (Bus.run g p u).2 (Bus.run h p t).2 := by
  induction p with
  | ret a => intro t u related _; exact ⟨rfl, related⟩
  | read x k ih =>
    intro t u related within
    obtain ⟨answer, next⟩ := sim.read related within.1
    rw [run_read, run_read, answer]
    exact ih _ next within.2
  | write x v k ih =>
    intro t u related within
    exact ih (sim.write related within.1) within.2

/-- Simulations compose. -/
theorem Simulates.trans {ρ : Type} {h : Handler τ A V} {g : Handler υ A V} {k : Handler ρ A V} {ok : υ → Request A → Prop}
    {ok' : ρ → Request A → Prop} {R : υ → τ → Prop} {R' : ρ → υ → Prop} (lower : Simulates h g ok R) (upper : Simulates g k ok' R')
    (covers : ∀ {s u x}, R' s u → ok' s x → ok u x) : Simulates h k ok' fun s t => ∃ u, R' s u ∧ R u t where
  read {x t s} related meets := by
    obtain ⟨u, above, below⟩ := related
    obtain ⟨answer, next⟩ := lower.read below (covers above meets)
    obtain ⟨answer', next'⟩ := upper.read above meets
    exact ⟨answer.trans answer', _, next', next⟩
  write {x v t s} related meets := by
    obtain ⟨u, above, below⟩ := related
    exact ⟨_, upper.write above meets, lower.write below (covers above meets)⟩

end Bus
