import Mathlib

/-!
# Programs of bus transactions

A program is a tree of single-cell transactions, each a read that continues with
the value the bus answers or a write. The tree is the code; what a transaction
does is a `Handler`, so one program has a plain run, a logged run, a run on a bus
that drops transactions, and the interleavings of `Bus/Interleave.lean`.

Nothing here knows the cells, the device or the code: addresses, values and the
handler's state are parameters.
-/

namespace Bus
set_option autoImplicit false

/-- A tree of transactions over addresses `A` and cell values `V`, with a result. -/
inductive Prog (A V : Type) (α : Type) : Type where
  | ret (a : α) : Prog A V α
  | read (addr : A) (next : V → Prog A V α) : Prog A V α
  | write (addr : A) (v : V) (next : Prog A V α) : Prog A V α

variable {A V α β γ τ σ : Type}

namespace Prog

def bind : Prog A V α → (α → Prog A V β) → Prog A V β
  | .ret a, f => f a
  | .read x k, f => .read x fun v => (k v).bind f
  | .write x v k, f => .write x v (k.bind f)

instance : Monad (Prog A V) where
  pure := .ret
  bind := bind

/-- The value at an address. -/
def get (x : A) : Prog A V V := .read x .ret

/-- Store a value at an address. -/
def put (x : A) (v : V) : Prog A V Unit := .write x v (.ret ())

/-- `for (i = lo; i < lo + n; i++)` with an accumulator. -/
def forLoop : Nat → Nat → β → (Nat → β → Prog A V β) → Prog A V β
  | _, 0, b, _ => pure b
  | lo, n + 1, b, body => do
    let b' ← body lo b
    forLoop (lo + 1) n b' body

@[simp] theorem pure_eq (a : α) : (pure a : Prog A V α) = .ret a := rfl

@[simp] theorem read_bind (x : A) (k : V → Prog A V α) (f : α → Prog A V β) :
    (.read x k >>= f) = .read x fun v => k v >>= f := rfl

@[simp] theorem write_bind (x : A) (v : V) (k : Prog A V α) (f : α → Prog A V β) :
    (.write x v k >>= f) = .write x v (k >>= f) := rfl

@[simp] theorem get_bind (x : A) (f : V → Prog A V β) : (get x >>= f) = .read x f := rfl

@[simp] theorem put_bind (x : A) (v : V) (f : Unit → Prog A V β) : (put x v >>= f) = .write x v (f ()) := rfl

theorem bind_assoc (p : Prog A V α) (f : α → Prog A V β) (g : β → Prog A V γ) :
    (p >>= f >>= g) = p >>= fun a => f a >>= g := by
  induction p with
  | ret a => rfl
  | read x k ih => simp only [read_bind, ih]
  | write x v k ih => simp only [write_bind, ih]

theorem forLoop_succ (lo n : Nat) (b : β) (body : Nat → β → Prog A V β) :
    forLoop lo (n + 1) b body = body lo b >>= fun b' => forLoop (lo + 1) n b' body := rfl

end Prog

/-- What one transaction does to a state of type `τ`. -/
structure Handler (τ A V : Type) where
  read : A → τ → V × τ
  write : A → V → τ → τ

/-- The run of a program: its result and the state it ends in. -/
def run (h : Handler τ A V) : Prog A V α → τ → α × τ
  | .ret a, t => (a, t)
  | .read x k, t => run h (k (h.read x t).1) (h.read x t).2
  | .write x v k, t => run h k (h.write x v t)

section Run

variable (h : Handler τ A V)

@[simp] theorem run_ret (a : α) (t : τ) : run h (.ret a : Prog A V α) t = (a, t) := rfl

@[simp] theorem run_pure (a : α) (t : τ) : run h (pure a : Prog A V α) t = (a, t) := rfl

@[simp] theorem run_read (x : A) (k : V → Prog A V α) (t : τ) :
    run h (.read x k) t = run h (k (h.read x t).1) (h.read x t).2 := rfl

@[simp] theorem run_write (x : A) (v : V) (k : Prog A V α) (t : τ) :
    run h (.write x v k) t = run h k (h.write x v t) := rfl

theorem run_put (x : A) (v : V) (t : τ) : run h (Prog.put x v) t = ((), h.write x v t) := rfl

theorem run_get (x : A) (t : τ) : run h (Prog.get x) t = h.read x t := rfl

theorem run_bind (p : Prog A V α) (f : α → Prog A V β) (t : τ) :
    run h (p >>= f) t = run h (f (run h p t).1) (run h p t).2 := by
  induction p generalizing t with
  | ret a => rfl
  | read x k ih => exact ih _ _
  | write x v k ih => exact ih _

/-- The rule for the end of a sequence whose first part is known. -/
theorem run_bind_of {p : Prog A V α} {f : α → Prog A V β} {t t' : τ} {a : α} (first : run h p t = (a, t')) :
    run h (p >>= f) t = run h (f a) t' := by
  rw [run_bind, first]

/-- **The loop rule.** An indexed invariant that the body carries from `i` to
`i + 1` holds at the end of the loop. -/
theorem run_forLoop (I : Nat → β → τ → Prop) (body : Nat → β → Prog A V β) (n : Nat) :
    ∀ (lo : Nat) (b : β) (t : τ), I lo b t →
      (∀ i b t, lo ≤ i → i < lo + n → I i b t → I (i + 1) (run h (body i b) t).1 (run h (body i b) t).2) →
      I (lo + n) (run h (Prog.forLoop lo n b body) t).1 (run h (Prog.forLoop lo n b body) t).2 := by
  induction n with
  | zero => intro lo b t entry _; exact entry
  | succ n ih =>
    intro lo b t entry step
    rw [Prog.forLoop_succ, run_bind, show lo + (n + 1) = lo + 1 + n by omega]
    apply ih (lo + 1)
    · exact step lo b t (Nat.le_refl _) (by omega) entry
    · intro i b t lower upper
      exact step i b t (by omega) (by omega)

end Run

/-- A store: what a cell holds and what writing a cell makes of the store. -/
structure Device (σ A V : Type) where
  read : σ → A → V
  write : σ → A → V → σ

namespace Device

/-- Every transaction reaches the device. -/
def direct (d : Device σ A V) : Handler σ A V where
  read x s := (d.read s x, s)
  write x v s := d.write s x v

variable (d : Device σ A V)

/-- The plain run of a program on the device. -/
def exec (p : Prog A V α) (s : σ) : α × σ := run d.direct p s

@[simp] theorem exec_read (x : A) (k : V → Prog A V α) (s : σ) : d.exec (.read x k) s = d.exec (k (d.read s x)) s := rfl

@[simp] theorem exec_write (x : A) (v : V) (k : Prog A V α) (s : σ) :
    d.exec (.write x v k) s = d.exec k (d.write s x v) := rfl

theorem exec_bind (p : Prog A V α) (f : α → Prog A V β) (s : σ) :
    d.exec (p >>= f) s = d.exec (f (d.exec p s).1) (d.exec p s).2 := run_bind _ p f s

/-- A loop whose every round is known: the accumulator and the store after `i`. -/
theorem exec_forLoop (acc : Nat → β) (store : Nat → σ) {body : Nat → β → Prog A V β} {lo n : Nat} {b b' : β} {s s' : σ}
    (entry : (acc lo, store lo) = (b, s)) (exit : (acc (lo + n), store (lo + n)) = (b', s'))
    (round : ∀ i, lo ≤ i → i < lo + n → d.exec (body i (acc i)) (store i) = (acc (i + 1), store (i + 1))) :
    d.exec (Prog.forLoop lo n b body) s = (b', s') := by
  obtain ⟨rfl, rfl⟩ := Prod.mk.inj entry
  rw [← exit]
  have known := run_forLoop d.direct (fun i b s => b = acc i ∧ s = store i) body n lo (acc lo) (store lo) ⟨rfl, rfl⟩
  refine Prod.ext_iff.mpr (known ?_)
  rintro i _ _ lower upper ⟨rfl, rfl⟩
  exact Prod.ext_iff.mp (round i lower upper)

theorem exec_bind_of {p : Prog A V α} {f : α → Prog A V β} {s s' : σ} {a : α} (first : d.exec p s = (a, s')) :
    d.exec (p >>= f) s = d.exec (f a) s' := run_bind_of _ first

end Device

end Bus
