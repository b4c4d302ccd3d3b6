import DoorSecurity.Bus.Program

/-!
# Interleaving two programs

The transactions of two programs reach one device in any order that keeps each
program's own. `Interleaved` is such a run to its end, with the log of who accessed
what; the schedule is the run's choice of the party that moves next.
Statements about runs are proved by induction on the log from its front, so a
fact about the rest of the log is a hypothesis of the rest of the run.
-/

namespace Bus
set_option autoImplicit false

variable {A V α β σ : Type}

/-- A logged transaction: by the second party, a write, and where. -/
structure Access (A : Type) where
  second : Bool
  write : Bool
  addr : A

/-- Accesses with these properties occur in this order. -/
def InOrder : List (Access A → Prop) → List (Access A) → Prop
  | [], _ => True
  | _ :: _, [] => False
  | φ :: φs, e :: log => (φ e ∧ InOrder φs log) ∨ InOrder (φ :: φs) log

theorem inOrder_nil (log : List (Access A)) : InOrder [] log := by
  cases log <;> trivial

theorem InOrder.cons {φs : List (Access A → Prop)} {log : List (Access A)} (h : InOrder φs log) (e : Access A) : InOrder φs (e :: log) := by
  cases φs with
  | nil => trivial
  | cons φ φs => exact .inr h

theorem InOrder.hit {φ : Access A → Prop} {φs : List (Access A → Prop)} {log : List (Access A)} {e : Access A} (here : φ e)
    (rest : InOrder φs log) : InOrder (φ :: φs) (e :: log) := .inl ⟨here, rest⟩

theorem InOrder.append_left {φs : List (Access A → Prop)} {log : List (Access A)} (h : InOrder φs log) (before : List (Access A)) :
    InOrder φs (before ++ log) := by
  induction before with
  | nil => exact h
  | cons e before ih => exact ih.cons e

/-- An access found before, and the others after it. -/
theorem InOrder.of_mem {φ : Access A → Prop} {φs : List (Access A → Prop)} {before log : List (Access A)} {e : Access A} (mem : e ∈ before)
    (hit : φ e) (h : InOrder φs log) : InOrder (φ :: φs) (before ++ log) := by
  induction before with
  | nil => cases mem
  | cons e' before ih =>
    rcases List.mem_cons.mp mem with rfl | later
    · exact .inl ⟨hit, h.append_left before⟩
    · exact .inr (ih later)

/-- Dropping the demand for the first access. -/
theorem InOrder.tail {φ : Access A → Prop} {φs : List (Access A → Prop)} {log : List (Access A)} (h : InOrder (φ :: φs) log) : InOrder φs log := by
  induction log with
  | nil => exact False.elim h
  | cons e log ih =>
    rcases h with ⟨-, rest⟩ | rest
    · exact rest.cons e
    · exact (ih rest).cons e

/-- A pattern that starts with an access that the prefix lacks is in the rest. -/
theorem InOrder.of_append {φ : Access A → Prop} {φs : List (Access A → Prop)} {before log : List (Access A)}
    (absent : ∀ e ∈ before, ¬ φ e) (h : InOrder (φ :: φs) (before ++ log)) : InOrder (φ :: φs) log := by
  induction before with
  | nil => exact h
  | cons e before ih =>
    rcases h with ⟨hit, -⟩ | rest
    · exact absurd hit (absent e (by simp))
    · exact ih (fun e mem => absent e (by simp [mem])) rest

theorem InOrder.exists_mem {φ : Access A → Prop} {φs : List (Access A → Prop)} {log : List (Access A)} (h : InOrder (φ :: φs) log) :
    ∃ e ∈ log, φ e := by
  induction log with
  | nil => exact False.elim h
  | cons e log ih =>
    rcases h with ⟨hit, -⟩ | rest
    · exact ⟨e, by simp, hit⟩
    · obtain ⟨e', mem, hit⟩ := ih rest
      exact ⟨e', by simp [mem], hit⟩

theorem inOrder_singleton {φ : Access A → Prop} {log : List (Access A)} : InOrder [φ] log ↔ ∃ e ∈ log, φ e := by
  constructor
  · exact InOrder.exists_mem
  · rintro ⟨e, mem, hit⟩
    have found : InOrder [φ] (log ++ []) := InOrder.of_mem mem hit trivial
    rwa [List.append_nil] at found

namespace Prog

/-- Every transaction of the program, whatever its reads answer. -/
def All (φ : Bool → A → Prop) : Prog A V α → Prop
  | .ret _ => True
  | .read x k => φ false x ∧ ∀ v, All φ (k v)
  | .write x _ k => φ true x ∧ All φ k

theorem All.mono {φ ψ : Bool → A → Prop} {p : Prog A V α} (all : p.All φ) (weaker : ∀ w x, φ w x → ψ w x) : p.All ψ := by
  induction p with
  | ret a => trivial
  | read x k ih => exact ⟨weaker _ _ all.1, fun v => ih v (all.2 v)⟩
  | write x v k ih => exact ⟨weaker _ _ all.1, ih all.2⟩

/-- Every result of the program when its reads answer what `seen` allows. -/
def Answers (seen : A → V → Prop) (post : α → Prop) : Prog A V α → Prop
  | .ret a => post a
  | .read x k => ∀ v, seen x v → Answers seen post (k v)
  | .write _ _ k => Answers seen post k

end Prog

namespace Device

variable (d : Device σ A V)

/-- One transaction of a program. -/
inductive Move : Prog A V α → σ → Bool → A → Prog A V α → σ → Prop
  | read (x : A) (k : V → Prog A V α) (s : σ) : Move (.read x k) s false x (k (d.read s x)) s
  | write (x : A) (v : V) (k : Prog A V α) (s : σ) : Move (.write x v k) s true x k (d.write s x v)

/-- A run of two programs to their ends, with its log. -/
inductive Interleaved : Prog A V α → Prog A V β → σ → List (Access A) → α → β → σ → Prop
  | done (a : α) (b : β) (s : σ) : Interleaved (.ret a) (.ret b) s [] a b s
  | first {p p' : Prog A V α} {q : Prog A V β} {s s' t : σ} {w : Bool} {x : A} {log : List (Access A)} {a : α} {b : β}
      (move : d.Move p s w x p' s') (rest : Interleaved p' q s' log a b t) : Interleaved p q s (⟨false, w, x⟩ :: log) a b t
  | second {p : Prog A V α} {q q' : Prog A V β} {s s' t : σ} {w : Bool} {x : A} {log : List (Access A)} {a : α} {b : β}
      (move : d.Move q s w x q' s') (rest : Interleaved p q' s' log a b t) : Interleaved p q s (⟨true, w, x⟩ :: log) a b t

/-- The second program on its own. -/
inductive Alone : Prog A V β → σ → List (Access A) → Prog A V β → σ → Prop
  | stop (q : Prog A V β) (s : σ) : Alone q s [] q s
  | step {q q' q'' : Prog A V β} {s s' s'' : σ} {w : Bool} {x : A} {log : List (Access A)} (move : d.Move q s w x q' s')
      (rest : Alone q' s' log q'' s'') : Alone q s (⟨true, w, x⟩ :: log) q'' s''

variable {d} {p : Prog A V α} {q : Prog A V β} {s t : σ} {log : List (Access A)} {a : α} {b : β}

theorem Move.all {φ : Bool → A → Prop} {p p' : Prog A V α} {s s' : σ} {w : Bool} {x : A} (move : d.Move p s w x p' s') (all : p.All φ) :
    φ w x ∧ p'.All φ := by
  cases move with
  | read x k s => exact ⟨all.1, all.2 _⟩
  | write x v k s => exact all

/-- The first program's accesses are among those of its tree. -/
theorem Interleaved.all {φ : Bool → A → Prop} (run : d.Interleaved p q s log a b t) (all : p.All φ) :
    ∀ e ∈ log, e.second = false → φ e.write e.addr := by
  induction run with
  | done => intro e mem; cases mem
  | first move rest ih =>
    obtain ⟨here, later⟩ := move.all all
    intro e mem mine
    rcases List.mem_cons.mp mem with rfl | mem
    · exact here
    · exact ih later e mem mine
  | second move rest ih =>
    intro e mem mine
    rcases List.mem_cons.mp mem with rfl | mem
    · contradiction
    · exact ih all e mem mine

theorem Interleaved.all_second {φ : Bool → A → Prop} (run : d.Interleaved p q s log a b t) (all : q.All φ) :
    ∀ e ∈ log, e.second = true → φ e.write e.addr := by
  induction run with
  | done => intro e mem; cases mem
  | first move rest ih =>
    intro e mem theirs
    rcases List.mem_cons.mp mem with rfl | mem
    · contradiction
    · exact ih all e mem theirs
  | second move rest ih =>
    obtain ⟨here, later⟩ := move.all all
    intro e mem theirs
    rcases List.mem_cons.mp mem with rfl | mem
    · exact here
    · exact ih later e mem theirs

/-- With the second program over, the first one runs alone. -/
theorem Interleaved.first_alone (run : d.Interleaved p q s log a b t) {b' : β} (ended : q = .ret b') : d.exec p s = (a, t) := by
  induction run with
  | done => rfl
  | first move rest ih =>
    cases move with
    | read x k s => exact ih ended
    | write x v k s => exact ih ended
  | second move rest ih =>
    subst ended
    cases move

theorem Interleaved.first_result (run : d.Interleaved p q s log a b t) {a' : α} (ended : p = .ret a') : a = a' := by
  induction run with
  | done => cases ended; rfl
  | first move rest ih =>
    subst ended
    cases move
  | second move rest ih => exact ih ended

/-- Before the first program's first transaction, a read, the second one is alone. -/
theorem Interleaved.before_read {x : A} {k : V → Prog A V α} (run : d.Interleaved p q s log a b t) (entry : p = .read x k) :
    ∃ before q' s' after, d.Alone q s before q' s' ∧ log = before ++ ⟨false, false, x⟩ :: after ∧
      d.Interleaved (k (d.read s' x)) q' s' after a b t := by
  induction run with
  | done => cases entry
  | first move rest ih =>
    subst entry
    cases move
    exact ⟨[], _, _, _, .stop _ _, rfl, rest⟩
  | second move rest ih =>
    obtain ⟨before, q', s', after, alone, rfl, later⟩ := ih entry
    exact ⟨_ :: before, q', s', after, .step move alone, rfl, later⟩

theorem Alone.second {before : List (Access A)} {q' : Prog A V β} {s' : σ} (alone : d.Alone q s before q' s') :
    ∀ e ∈ before, e.second = true := by
  induction alone with
  | stop => intro e mem; cases mem
  | step move rest ih =>
    intro e mem
    rcases List.mem_cons.mp mem with rfl | mem
    · rfl
    · exact ih e mem

/-- Moving under a schedule: `true` lets the second program move. A program that is over
stays. -/
def interleave (d : Device σ A V) : List Bool → Prog A V α → Prog A V β → σ → List (Access A) × Prog A V α × Prog A V β × σ
  | [], p, q, s => ([], p, q, s)
  | false :: turns, .read x k, q, s =>
    let r := interleave d turns (k (d.read s x)) q s
    (⟨false, false, x⟩ :: r.1, r.2)
  | false :: turns, .write x v k, q, s =>
    let r := interleave d turns k q (d.write s x v)
    (⟨false, true, x⟩ :: r.1, r.2)
  | true :: turns, p, .read x k, s =>
    let r := interleave d turns p (k (d.read s x)) s
    (⟨true, false, x⟩ :: r.1, r.2)
  | true :: turns, p, .write x v k, s =>
    let r := interleave d turns p k (d.write s x v)
    (⟨true, true, x⟩ :: r.1, r.2)
  | false :: turns, .ret a, q, s => interleave d turns (.ret a) q s
  | true :: turns, p, .ret b, s => interleave d turns p (.ret b) s

/-- A schedule that ends both programs is a run. -/
theorem interleaved_of_schedule (turns : List Bool) : ∀ {p : Prog A V α} {q : Prog A V β} {s : σ},
    d.interleave turns p q s = (log, .ret a, .ret b, t) → d.Interleaved p q s log a b t := by
  induction turns generalizing log with
  | nil =>
    intro p q s ended
    simp only [interleave, Prod.mk.injEq] at ended
    obtain ⟨rfl, rfl, rfl, rfl⟩ := ended
    exact .done a b s
  | cons turn turns ih =>
    intro p q s ended
    cases turn with
    | false =>
      cases p with
      | ret a' => exact ih ended
      | read x k =>
        simp only [interleave, Prod.mk.injEq] at ended
        obtain ⟨rfl, rest⟩ := ended
        exact .first (.read x k s) (ih (Prod.ext rfl rest))
      | write x v k =>
        simp only [interleave, Prod.mk.injEq] at ended
        obtain ⟨rfl, rest⟩ := ended
        exact .first (.write x v k s) (ih (Prod.ext rfl rest))
    | true =>
      cases q with
      | ret b' =>
        rw [interleave] at ended
        · exact ih ended
      | read x k =>
        rw [interleave, Prod.mk.injEq] at ended
        obtain ⟨rfl, rest⟩ := ended
        exact .second (.read x k s) (ih (Prod.ext rfl rest))
      | write x v k =>
        rw [interleave, Prod.mk.injEq] at ended
        obtain ⟨rfl, rest⟩ := ended
        exact .second (.write x v k s) (ih (Prod.ext rfl rest))

end Device

end Bus
