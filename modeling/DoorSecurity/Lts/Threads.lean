import DoorSecurity.Lts.Runs

/-!
# Threads that share a state, and counting semaphores

Each thread walks a graph of control points; an edge carries a label, and the label
acts on the shared state. A run is any interleaving of the threads, with its
events. A thread pairs its takes and releases of a semaphore as soon as every
edge of its graph does (`pairing_inside`), and the semaphore then counts the
threads that are inside (`CountingSem.value_add_inside`).
-/

namespace Lts
set_option autoImplicit false

/-- Threads over control graphs and one shared state. -/
structure Threads (T L S : Type) where
  Pc : T → Type
  control : (t : T) → Pc t → L → Pc t → Prop
  effect : L → S → S → Prop

namespace Threads

variable {T L S : Type} (P : Threads T L S)

/-- Where each thread stands, and the shared state. -/
structure State where
  pc : (t : T) → P.Pc t
  shared : S

variable [DecidableEq T]

/-- One thread moves along an edge. -/
inductive Step : P.State → T × L → P.State → Prop
  | move {s : P.State} {t : T} {l : L} {p : P.Pc t} {shared : S} (edge : P.control t (s.pc t) l p) (acts : P.effect l s.shared shared) :
      Step s (t, l) ⟨Function.update s.pc t p, shared⟩

variable {P}

/-- What a step changes: its own thread's point and the shared state. -/
theorem Step.spec {s s' : P.State} {t : T} {l : L} (step : P.Step s (t, l) s') :
    P.control t (s.pc t) l (s'.pc t) ∧ P.effect l s.shared s'.shared ∧ ∀ u, u ≠ t → s'.pc u = s.pc u := by
  cases step with
  | move edge acts =>
    refine ⟨?_, acts, fun u other => Function.update_of_ne other _ _⟩
    show P.control t (s.pc t) l (Function.update s.pc t _ t)
    rw [Function.update_self]
    exact edge

end Threads

inductive SemOp where
  | take | release
  deriving DecidableEq, Repr

/-- Where a thread stands after these operations, the newest first: inside (`some true`),
outside (`some false`), or in breach of the pairing. -/
def pairing : List SemOp → Option Bool
  | [] => some false
  | .take :: ops => if pairing ops = some false then some true else none
  | .release :: ops => if pairing ops = some true then some false else none

section Semaphore

variable {T L S : Type} [DecidableEq T] {P : Threads T L S} {op : L → Option SemOp}

/-- The operations of thread `t` on the semaphore that `op` tells apart. -/
def semOps (op : L → Option SemOp) (t : T) (es : List (T × L)) : List SemOp :=
  es.filterMap fun e => if e.1 = t then op e.2 else none

/-- How often any thread did `o`. -/
def semCount (op : L → Option SemOp) (o : SemOp) (es : List (T × L)) : Nat :=
  es.countP fun e => op e.2 = some o

theorem semOps_cons_self (t : T) (l : L) (es : List (T × L)) :
    semOps op t ((t, l) :: es) = (op l).toList ++ semOps op t es := by
  unfold semOps
  cases h : op l <;> simp [h]

theorem semOps_cons_other {t u : T} (other : u ≠ t) (l : L) (es : List (T × L)) :
    semOps op u ((t, l) :: es) = semOps op u es := by
  simp [semOps, Ne.symm other]

/-- How an edge that does `o` may move between inside and outside. -/
def Bracketed : Option SemOp → Bool → Bool → Prop
  | some .take, was, now => was = false ∧ now = true
  | some .release, was, now => was = true ∧ now = false
  | none, was, now => now = was

/-- The graphs take only from outside and release only from inside. -/
def Brackets (P : Threads T L S) (op : L → Option SemOp) (inside : (t : T) → P.Pc t → Bool) : Prop :=
  ∀ {t p l p'}, P.control t p l p' → Bracketed (op l) (inside t p) (inside t p')

/-- The value of a counting semaphore; `take` waits while it is 0. -/
structure CountingSem (P : Threads T L S) (op : L → Option SemOp) (value : S → Nat) : Prop where
  take : ∀ {l sh sh'}, P.effect l sh sh' → op l = some .take → value sh = value sh' + 1
  release : ∀ {l sh sh'}, P.effect l sh sh' → op l = some .release → value sh' = value sh + 1
  other : ∀ {l sh sh'}, P.effect l sh sh' → op l = none → value sh' = value sh

variable {inside : (t : T) → P.Pc t → Bool} {value : S → Nat} {start s : P.State} {es : List (T × L)}

/-- **Pairing.** Each thread's takes and releases alternate, and where it stands in its graph
says whether it is between the two. -/
theorem pairing_inside (brackets : Brackets P op inside) (outside : ∀ t, inside t (start.pc t) = false)
    (run : Runs P.Step start es s) (t : T) : pairing (semOps op t es) = some (inside t (s.pc t)) := by
  induction run with
  | nil => rw [outside]; rfl
  | @snoc es s s' e before last ih =>
    obtain ⟨u, l⟩ := e
    obtain ⟨edge, -, others⟩ := last.spec
    by_cases own : t = u
    · subst own
      rw [semOps_cons_self]
      have bracketed := brackets edge
      cases h : op l with
      | none =>
        rw [h] at bracketed
        rw [show inside t (s'.pc t) = inside t (s.pc t) from bracketed]
        exact ih
      | some o =>
        rw [h] at bracketed
        cases o with
        | take =>
          obtain ⟨was, now⟩ := bracketed
          rw [was] at ih
          rw [now]
          exact if_pos ih
        | release =>
          obtain ⟨was, now⟩ := bracketed
          rw [was] at ih
          rw [now]
          exact if_pos ih
    · rw [semOps_cons_other own, others t own]
      exact ih

/-- **Conservation.** The value and the takes make up the first value and the releases. -/
theorem CountingSem.value_add_takes (sem : CountingSem P op value) (run : Runs P.Step start es s) :
    value s.shared + semCount op .take es = value start.shared + semCount op .release es := by
  induction run with
  | nil => rfl
  | @snoc es s s' e before last ih =>
    obtain ⟨u, l⟩ := e
    obtain ⟨-, acts, -⟩ := last.spec
    unfold semCount at ih ⊢
    rw [List.countP_cons, List.countP_cons]
    cases h : op l with
    | none =>
      have same := sem.other acts h
      simp
      omega
    | some o =>
      cases o with
      | take =>
        have taken := sem.take acts h
        simp
        omega
      | release =>
        have released := sem.release acts h
        simp
        omega

variable [Fintype T]

/-- How many threads are inside. -/
def insideCount (inside : (t : T) → P.Pc t → Bool) (s : P.State) : Nat :=
  (Finset.univ.filter fun t => inside t (s.pc t) = true).card

omit [DecidableEq T] in
theorem insideCount_eq_sum (s : P.State) : insideCount inside s = ∑ t, (inside t (s.pc t)).toNat := by
  unfold insideCount
  rw [Finset.card_filter]
  apply Finset.sum_congr rfl
  intro t _
  cases inside t (s.pc t) <;> rfl

/-- One thread moved: the count changes by that thread alone. -/
theorem insideCount_step {s s' : P.State} {t : T} (others : ∀ u, u ≠ t → s'.pc u = s.pc u) :
    insideCount inside s' + (inside t (s.pc t)).toNat = insideCount inside s + (inside t (s'.pc t)).toNat := by
  rw [insideCount_eq_sum, insideCount_eq_sum, ← Finset.add_sum_erase _ _ (Finset.mem_univ t),
    ← Finset.add_sum_erase Finset.univ (fun t => (inside t (s.pc t)).toNat) (Finset.mem_univ t)]
  have rest : ∑ u ∈ Finset.univ.erase t, (inside u (s'.pc u)).toNat = ∑ u ∈ Finset.univ.erase t, (inside u (s.pc u)).toNat := by
    apply Finset.sum_congr rfl
    intro u mem
    rw [others u (Finset.ne_of_mem_erase mem)]
  omega

/-- **The semaphore counts the threads that are inside.** -/
theorem CountingSem.value_add_inside (sem : CountingSem P op value) (brackets : Brackets P op inside)
    (run : Runs P.Step start es s) :
    value s.shared + insideCount inside s = value start.shared + insideCount inside start := by
  induction run with
  | nil => rfl
  | @snoc es s s' e before last ih =>
    obtain ⟨u, l⟩ := e
    obtain ⟨edge, acts, others⟩ := last.spec
    have moved : insideCount inside s' + (inside u (s.pc u)).toNat = insideCount inside s + (inside u (s'.pc u)).toNat :=
      insideCount_step others
    have bracketed := brackets edge
    cases h : op l with
    | none =>
      rw [h] at bracketed
      have same := sem.other acts h
      rw [show inside u (s'.pc u) = inside u (s.pc u) from bracketed] at moved
      omega
    | some o =>
      rw [h] at bracketed
      cases o with
      | take =>
        obtain ⟨was, now⟩ := bracketed
        have taken := sem.take acts h
        rw [was, now] at moved
        simp only [Bool.toNat_false, Bool.toNat_true] at moved
        omega
      | release =>
        obtain ⟨was, now⟩ := bracketed
        have released := sem.release acts h
        rw [was, now] at moved
        simp only [Bool.toNat_false, Bool.toNat_true] at moved
        omega

omit [DecidableEq T] in
/-- A binary semaphore keeps the threads apart. -/
theorem inside_unique {s : P.State} (most : insideCount inside s ≤ 1) {t u : T} (first : inside t (s.pc t) = true)
    (second : inside u (s.pc u) = true) : t = u :=
  Finset.card_le_one.mp most t (by simp [first]) u (by simp [second])

end Semaphore

end Lts
