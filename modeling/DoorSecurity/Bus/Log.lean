import DoorSecurity.Bus.Program

/-!
# Cutting a program off between its writes

`writes` lists the writes that a program issues; replaying a prefix of the list is
the store that a power failure leaves. `Cut` is the set of these stores, and its
rules follow the program's structure, so a cut of a long program is a cut of
one of its parts.
-/

namespace Bus
set_option autoImplicit false

variable {A V α β σ : Type}

namespace Device

variable (d : Device σ A V)

/-- The writes that a program issues, in order. -/
def writes : Prog A V α → σ → List (A × V)
  | .ret _, _ => []
  | .read x k, s => writes (k (d.read s x)) s
  | .write x v k, s => (x, v) :: writes k (d.write s x v)

/-- The store after a list of writes. -/
def replay (log : List (A × V)) (s : σ) : σ := log.foldl (fun s w => d.write s w.1 w.2) s

/-- `t` is the store when only a prefix of the program's writes has happened. -/
def Cut (p : Prog A V α) (s t : σ) : Prop := ∃ k, d.replay ((d.writes p s).take k) s = t

@[simp] theorem writes_ret (a : α) (s : σ) : d.writes (.ret a : Prog A V α) s = [] := rfl

theorem writes_bind (p : Prog A V α) (f : α → Prog A V β) (s : σ) :
    d.writes (p >>= f) s = d.writes p s ++ d.writes (f (d.exec p s).1) (d.exec p s).2 := by
  induction p generalizing s with
  | ret a => rfl
  | read x k ih => exact ih _ s
  | write x v k ih => exact congrArg ((x, v) :: ·) (ih _)

theorem replay_append (log log' : List (A × V)) (s : σ) : d.replay (log ++ log') s = d.replay log' (d.replay log s) :=
  List.foldl_append

/-- All the writes replayed are the run. -/
theorem replay_writes (p : Prog A V α) (s : σ) : d.replay (d.writes p s) s = (d.exec p s).2 := by
  induction p generalizing s with
  | ret a => rfl
  | read x k ih => exact ih _ s
  | write x v k ih => exact ih _

theorem cut_start (p : Prog A V α) (s : σ) : d.Cut p s s := ⟨0, rfl⟩

theorem cut_ret {a : α} {s t : σ} : d.Cut (.ret a : Prog A V α) s t ↔ t = s := by
  constructor
  · rintro ⟨k, rfl⟩; rw [writes_ret, List.take_nil]; rfl
  · rintro rfl; exact d.cut_start _ _

theorem cut_read {x : A} {k : V → Prog A V α} {s t : σ} : d.Cut (.read x k) s t ↔ d.Cut (k (d.read s x)) s t := Iff.rfl

theorem cut_write {x : A} {v : V} {p : Prog A V α} {s t : σ} :
    d.Cut (.write x v p) s t ↔ t = s ∨ d.Cut p (d.write s x v) t := by
  constructor
  · rintro ⟨k, rfl⟩
    cases k with
    | zero => exact .inl rfl
    | succ k => exact .inr ⟨k, rfl⟩
  · rintro (rfl | ⟨k, rfl⟩)
    · exact d.cut_start _ _
    · exact ⟨k + 1, rfl⟩

/-- A sequence is cut in its first part or in its second. -/
theorem cut_bind {p : Prog A V α} {f : α → Prog A V β} {s t : σ} (cut : d.Cut (p >>= f) s t) :
    d.Cut p s t ∨ d.Cut (f (d.exec p s).1) (d.exec p s).2 t := by
  obtain ⟨k, rfl⟩ := cut
  rw [writes_bind, List.take_append]
  rcases Nat.le_total k (d.writes p s).length with first | second
  · rw [Nat.sub_eq_zero_of_le first, List.take_zero, List.append_nil]
    exact .inl ⟨k, rfl⟩
  · right
    refine ⟨k - (d.writes p s).length, ?_⟩
    rw [List.take_of_length_le second, replay_append, replay_writes]

theorem cut_bind_of {p : Prog A V α} {f : α → Prog A V β} {s s' t : σ} {a : α} (first : d.exec p s = (a, s'))
    (cut : d.Cut (p >>= f) s t) : d.Cut p s t ∨ d.Cut (f a) s' t := by
  have split := d.cut_bind cut
  rwa [first] at split

/-- What is done with the result writes nothing. -/
theorem cut_map {p : Prog A V α} {f : α → β} {s t : σ} (cut : d.Cut (p >>= fun a => pure (f a)) s t) : d.Cut p s t := by
  obtain ⟨k, rfl⟩ := cut
  refine ⟨k, ?_⟩
  rw [writes_bind, Prog.pure_eq, writes_ret, List.append_nil]

/-- The power may fail after the last write. -/
theorem cut_finish (p : Prog A V α) (s : σ) : d.Cut p s (d.exec p s).2 :=
  ⟨(d.writes p s).length, by rw [List.take_length, replay_writes]⟩

/-- A loop whose every round is known is cut in one of its rounds, or is over. -/
theorem cut_forLoop (acc : Nat → β) (store : Nat → σ) {body : Nat → β → Prog A V β} {n lo : Nat} {b : β} {s t : σ}
    (entry : (acc lo, store lo) = (b, s))
    (round : ∀ i, lo ≤ i → i < lo + n → d.exec (body i (acc i)) (store i) = (acc (i + 1), store (i + 1)))
    (cut : d.Cut (Prog.forLoop lo n b body) s t) :
    (∃ i, lo ≤ i ∧ i < lo + n ∧ d.Cut (body i (acc i)) (store i) t) ∨ t = store (lo + n) := by
  induction n generalizing lo b s with
  | zero =>
    obtain ⟨rfl, rfl⟩ := Prod.mk.inj entry
    exact .inr (d.cut_ret.mp cut)
  | succ n ih =>
    obtain ⟨rfl, rfl⟩ := Prod.mk.inj entry
    rw [Prog.forLoop_succ] at cut
    rcases d.cut_bind_of (round lo (Nat.le_refl _) (by omega)) cut with here | later
    · exact .inl ⟨lo, Nat.le_refl _, by omega, here⟩
    · rcases ih rfl (fun i lower upper => round i (by omega) (by omega)) later with ⟨i, lower, upper, inside⟩ | finished
      · exact .inl ⟨i, by omega, by omega, inside⟩
      · right
        rw [finished, show lo + 1 + n = lo + (n + 1) by omega]

end Device

end Bus
