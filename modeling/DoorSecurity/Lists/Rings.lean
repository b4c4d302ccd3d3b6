import DoorSecurity.Lts.Machine

/-!
# Rings of linked nodes

Intrusive doubly linked lists: every list is a ring through its head, a member
is a node of at most one ring, and a node of none is a ring by itself. The pointer
operations of such lists are small sequences of assignments; `Represents` relates the
pointers to a family of lists, and each operation to what it does to the lists.

The heads and the members are parameters.
-/

namespace Rings
set_option autoImplicit false

section Paths

variable {N : Type} [DecidableEq N]

/-- The two pointers of every node. -/
structure Links (N : Type) where
  next : N → N
  prev : N → N

namespace Links

def setNext (k : Links N) (x y : N) : Links N := { k with next := Function.update k.next x y }

def setPrev (k : Links N) (x y : N) : Links N := { k with prev := Function.update k.prev x y }

/-- The node `n` goes in front of `l`. -/
def insertBefore (k : Links N) (l n : N) : Links N :=
  let k := k.setNext (k.prev l) n
  let k := k.setPrev n (k.prev l)
  let k := k.setPrev l n
  k.setNext n l

/-- The node `n` goes behind `l`. -/
def insertAfter (k : Links N) (l n : N) : Links N :=
  let k := k.setPrev (k.next l) n
  let k := k.setNext n (k.next l)
  let k := k.setNext l n
  k.setPrev n l

/-- The node `n` leaves its ring. -/
def remove (k : Links N) (n : N) : Links N :=
  let k := k.setPrev (k.next n) (k.prev n)
  let k := k.setNext (k.prev n) (k.next n)
  let k := k.setPrev n n
  k.setNext n n

end Links

/-- The nodes `l` lead from `a` to `b`, both ways. -/
def Path (k : Links N) : N → List N → N → Prop
  | a, [], b => k.next a = b ∧ k.prev b = a
  | a, x :: l, b => (k.next a = x ∧ k.prev x = a) ∧ Path k x l b

variable {k k' : Links N} {a b x n : N} {l m : List N}

omit [DecidableEq N] in
theorem path_append : Path k a (l ++ x :: m) b ↔ Path k a l x ∧ Path k x m b := by
  induction l generalizing a with
  | nil => exact Iff.rfl
  | cons y l ih => rw [List.cons_append, Path, Path, ih, ← and_assoc]

omit [DecidableEq N] in
/-- A path only reads the forward pointers up to its end and the backward ones from its start. -/
theorem Path.congr (path : Path k a l b) (next : ∀ y ∈ a :: l, k'.next y = k.next y) (prev : ∀ y ∈ b :: l, k'.prev y = k.prev y) :
    Path k' a l b := by
  induction l generalizing a with
  | nil => exact ⟨(next a (by simp)).trans path.1, (prev b (by simp)).trans path.2⟩
  | cons y l ih =>
    refine ⟨⟨(next a (by simp)).trans path.1.1, (prev y (by simp)).trans path.1.2⟩, ih path.2 (fun z inside => ?_) fun z inside => ?_⟩
    · exact next z (List.mem_cons_of_mem a inside)
    · exact prev z (by rcases List.mem_cons.mp inside with rfl | inside <;> simp [*])

omit [DecidableEq N] in
/-- The node before the end of a path, if it is not the start, is on the path. -/
theorem Path.prev_mem (path : Path k a l b) : k.prev b ∈ a :: l := by
  induction l generalizing a with
  | nil => rw [path.2]; exact List.mem_cons_self
  | cons y l ih => exact List.mem_cons_of_mem a (ih path.2)

omit [DecidableEq N] in
theorem Path.next_mem (path : Path k a l b) : k.next a ∈ b :: l := by
  cases l with
  | nil => rw [path.1]; exact List.mem_cons_self
  | cons y l => rw [path.1.1]; simp

/-- The forward pointers after an insertion. -/
theorem insertBefore_next (y : N) :
    (k.insertBefore b n).next y = if y = n then b else if y = k.prev b then n else k.next y := by
  have pointers : (k.insertBefore b n).next = Function.update (Function.update k.next (k.prev b) n) n b := rfl
  rw [pointers, Function.update_apply, Function.update_apply]

/-- The backward pointers after an insertion. -/
theorem insertBefore_prev (y : N) : (k.insertBefore b n).prev y = if y = b then n else if y = n then k.prev b else k.prev y := by
  have pointers : (k.insertBefore b n).prev = Function.update (Function.update k.prev n (k.prev b)) b n := rfl
  rw [pointers, Function.update_apply, Function.update_apply]

/-- Behind a node is in front of the next one. -/
theorem insertAfter_eq (back : k.prev (k.next a) = a) (newA : a ≠ n) (newNext : k.next a ≠ n) :
    k.insertAfter a n = k.insertBefore (k.next a) n := by
  have next : Function.update (Function.update k.next n (k.next a)) a n = Function.update (Function.update k.next a n) n (k.next a) :=
    Function.update_comm newA.symm _ _ _
  have prev : Function.update (Function.update k.prev (k.next a) n) n a = Function.update (Function.update k.prev n a) (k.next a) n :=
    Function.update_comm newNext _ _ _
  simp only [Links.insertAfter, Links.insertBefore, Links.setNext, Links.setPrev, back, next, prev]

/-- **Insertion at the end of a path.** -/
theorem Path.insertBefore (path : Path k a l b) (new : n ∉ a :: b :: l) (ends : b ∉ l) (fresh : (a :: l).Nodup) :
    Path (k.insertBefore b n) a (l ++ [n]) b := by
  have newA : a ≠ n := fun same => new (by simp [same])
  have newB : b ≠ n := fun same => new (by simp [same])
  induction l generalizing a with
  | nil =>
    obtain ⟨-, back⟩ := path
    refine ⟨⟨?_, ?_⟩, ?_, ?_⟩
    · rw [insertBefore_next, if_neg newA, if_pos back.symm]
    · rw [insertBefore_prev, if_neg newB.symm, if_pos rfl, back]
    · rw [insertBefore_next, if_pos rfl]
    · rw [insertBefore_prev, if_pos rfl]
  | cons y l ih =>
    obtain ⟨⟨forth, back⟩, rest⟩ := path
    have last : k.prev b ≠ a := fun same => (List.nodup_cons.mp fresh).1 (same ▸ rest.prev_mem)
    have newY : y ≠ n := fun same => new (by simp [same])
    have yB : y ≠ b := fun same => ends (by simp [same])
    refine ⟨⟨?_, ?_⟩, ih rest ?_ ?_ (List.nodup_cons.mp fresh).2 newY⟩
    · rw [insertBefore_next, if_neg newA, if_neg last.symm, forth]
    · rw [insertBefore_prev, if_neg yB, if_neg newY, back]
    · intro inside
      exact new (by simp only [List.mem_cons] at inside ⊢; tauto)
    · exact fun inside => ends (List.mem_cons_of_mem y inside)

/-- The forward pointers after a removal. -/
theorem remove_next (apart : k.next x ≠ x) (y : N) :
    (k.remove x).next y = if y = x then x else if y = k.prev x then k.next x else k.next y := by
  have pointers : (k.remove x).next =
      Function.update (Function.update k.next (Function.update k.prev (k.next x) (k.prev x) x) (k.next x)) x x := rfl
  rw [pointers, Function.update_of_ne apart.symm, Function.update_apply, Function.update_apply]

/-- The backward pointers after a removal. -/
theorem remove_prev (y : N) : (k.remove x).prev y = if y = x then x else if y = k.next x then k.prev x else k.prev y := by
  have pointers : (k.remove x).prev = Function.update (Function.update k.prev (k.next x) (k.prev x)) x x := rfl
  rw [pointers, Function.update_apply, Function.update_apply]

/-- **Removal** of a node between two paths. -/
theorem Path.remove (before : Path k a l x) (after : Path k x m b) (outside : x ∉ a :: b :: (l ++ m)) (start : (a :: (l ++ m)).Nodup)
    (finish : (b :: (l ++ m)).Nodup) : Path (k.remove x) a (l ++ m) b := by
  have aX : a ≠ x := fun same => outside (by simp [same])
  have bX : b ≠ x := fun same => outside (by simp [same])
  have apart : k.next x ≠ x := fun same => outside (by have next := after.next_mem; simp only [same, List.mem_cons, List.mem_append] at next ⊢; tauto)
  induction l generalizing a with
  | nil =>
    obtain ⟨-, back⟩ := before
    cases m with
    | nil =>
      obtain ⟨forth, -⟩ := after
      refine ⟨?_, ?_⟩
      · rw [remove_next apart, if_neg aX, if_pos back.symm, forth]
      · rw [remove_prev, if_neg bX, if_pos forth.symm, back]
    | cons y m =>
      obtain ⟨⟨forth, -⟩, rest⟩ := after
      have yX : y ≠ x := fun same => outside (by simp [same])
      refine ⟨⟨?_, ?_⟩, rest.congr (fun z inside => ?_) fun z inside => ?_⟩
      · rw [remove_next apart, if_neg aX, if_pos back.symm, forth]
      · rw [remove_prev, if_neg yX, if_pos forth.symm, back]
      · have zX : z ≠ x := fun same => outside (by simp only [← same, List.nil_append, List.mem_cons] at inside ⊢; tauto)
        have zA : z ≠ k.prev x := fun same => (List.nodup_cons.mp start).1 (by rw [← back, ← same]; exact inside)
        rw [remove_next apart, if_neg zX, if_neg zA]
      · have zX : z ≠ x := fun same => outside (by simp only [← same, List.nil_append, List.mem_cons] at inside ⊢; tauto)
        have zY : z ≠ k.next x := by
          rintro rfl
          rw [forth] at inside
          rcases List.mem_cons.mp inside with same | inside
          · exact (List.nodup_cons.mp finish).1 (by simp [← same])
          · exact (List.nodup_cons.mp (List.nodup_cons.mp finish).2).1 inside
        rw [remove_prev, if_neg zX, if_neg zY]
  | cons z l ih =>
    obtain ⟨⟨forth, back⟩, rest⟩ := before
    have zX : z ≠ x := fun same => outside (by simp [same])
    obtain ⟨aNew, start⟩ := List.nodup_cons.mp start
    have aLast : a ≠ k.prev x := fun same => aNew (by
      have last := rest.prev_mem
      simp only [← same, List.cons_append, List.mem_cons, List.mem_append] at last ⊢
      tauto)
    have zNext : z ≠ k.next x := by
      intro same
      rcases List.mem_cons.mp after.next_mem with end' | inside
      · exact (List.nodup_cons.mp finish).1 (by simp [← end', same])
      · exact (List.nodup_cons.mp start).1 (List.mem_append_right l (same ▸ inside))
    refine ⟨⟨?_, ?_⟩, ih rest ?_ start ?_ zX⟩
    · rw [remove_next apart, if_neg aX, if_neg aLast, forth]
    · rw [remove_prev, if_neg zX, if_neg zNext, back]
    · exact fun inside => outside (by simp only [List.cons_append, List.mem_cons] at inside ⊢; tauto)
    · exact List.nodup_cons.mpr ⟨fun inside => (List.nodup_cons.mp finish).1 (by simp at inside ⊢; tauto),
        (List.nodup_cons.mp (List.nodup_cons.mp finish).2).2⟩

end Paths

section Lists

variable {H T : Type} [DecidableEq T]

/-- A member goes in front of another one. -/
def putBefore (u t : T) : List T → List T
  | [] => []
  | x :: l => if x = u then t :: x :: l else x :: putBefore u t l

variable {u t : T} {l m : List T}

theorem putBefore_split (first : u ∉ l) : putBefore u t (l ++ u :: m) = l ++ t :: u :: m := by
  induction l with
  | nil => exact if_pos rfl
  | cons x l ih =>
    obtain ⟨other, first⟩ := List.ne_and_not_mem_of_not_mem_cons first
    rw [List.cons_append, putBefore, if_neg other.symm, ih first, List.cons_append]

theorem putBefore_of_notMem (none : u ∉ l) : putBefore u t l = l := by
  induction l with
  | nil => rfl
  | cons x l ih =>
    obtain ⟨other, none⟩ := List.ne_and_not_mem_of_not_mem_cons none
    rw [putBefore, if_neg other.symm, ih none]

/-- What the lists make of a member that goes to the end of one. -/
def append [DecidableEq H] (h : H) (t : T) (ls : H → List T) : H → List T := Function.update ls h (ls h ++ [t])

/-- What the lists make of a member that goes to the front of one. -/
def prepend [DecidableEq H] (h : H) (t : T) (ls : H → List T) : H → List T := Function.update ls h (t :: ls h)

/-- What the lists make of a member that goes in front of another one. -/
def insertBefore (u t : T) (ls : H → List T) : H → List T := fun h => putBefore u t (ls h)

/-- What the lists make of a member that leaves. -/
def remove (t : T) (ls : H → List T) : H → List T := fun h => (ls h).erase t

/-- The member is in no list. -/
def Detached (ls : H → List T) (t : T) : Prop := ∀ h, t ∉ ls h

/-- No member is in two places. -/
structure Separate (ls : H → List T) : Prop where
  nodup : ∀ h, (ls h).Nodup
  once : ∀ {t h h'}, t ∈ ls h → t ∈ ls h' → h = h'

variable {ls : H → List T} {h g : H}

omit [DecidableEq T] in
@[simp] theorem append_self [DecidableEq H] (h : H) (t : T) (ls : H → List T) : append h t ls h = ls h ++ [t] := Function.update_self h _ ls

omit [DecidableEq T] in
theorem append_of_ne [DecidableEq H] (other : g ≠ h) (t : T) (ls : H → List T) : append h t ls g = ls g := Function.update_of_ne other _ ls

omit [DecidableEq T] in
@[simp] theorem prepend_self [DecidableEq H] (h : H) (t : T) (ls : H → List T) : prepend h t ls h = t :: ls h := Function.update_self h _ ls

omit [DecidableEq T] in
theorem prepend_of_ne [DecidableEq H] (other : g ≠ h) (t : T) (ls : H → List T) : prepend h t ls g = ls g := Function.update_of_ne other _ ls

theorem mem_putBefore (inside : u ∈ l) (x : T) : x ∈ putBefore u t l ↔ x = t ∨ x ∈ l := by
  induction l with
  | nil => exact absurd inside List.not_mem_nil
  | cons y l ih =>
    rw [putBefore]
    split
    · exact List.mem_cons
    · rename_i other
      have later : u ∈ l := (List.mem_cons.mp inside).resolve_left (Ne.symm other)
      rw [List.mem_cons, ih later, List.mem_cons, or_left_comm]

omit [DecidableEq T] in
theorem mem_append [DecidableEq H] (x : T) : x ∈ append h t ls g ↔ x ∈ ls g ∨ (g = h ∧ x = t) := by
  rcases eq_or_ne g h with rfl | other
  · simp
  · simp [append_of_ne other, other]

omit [DecidableEq T] in
theorem mem_prepend [DecidableEq H] (x : T) : x ∈ prepend h t ls g ↔ x ∈ ls g ∨ (g = h ∧ x = t) := by
  rcases eq_or_ne g h with rfl | other
  · simp [or_comm]
  · simp [prepend_of_ne other, other]

theorem mem_insertBefore (separate : Separate ls) (inside : u ∈ ls h) (x : T) :
    x ∈ insertBefore u t ls g ↔ x ∈ ls g ∨ (g = h ∧ x = t) := by
  rcases eq_or_ne g h with rfl | other
  · rw [insertBefore, mem_putBefore inside]
    simp [or_comm]
  · rw [insertBefore, putBefore_of_notMem fun there => other (separate.once there inside)]
    simp [other]

theorem Separate.mem_remove (separate : Separate ls) (x : T) : x ∈ remove t ls g ↔ x ≠ t ∧ x ∈ ls g :=
  (separate.nodup g).mem_erase_iff

omit [DecidableEq T] in
/-- A detached member that gets a place. -/
theorem Separate.insert (separate : Separate ls) (new : Detached ls t) {ls' : H → List T} (same : ∀ g, g ≠ h → ls' g = ls g)
    (nodup : (ls' h).Nodup) (mem : ∀ x, x ∈ ls' h ↔ x ∈ ls h ∨ x = t) : Separate ls' where
  nodup g := by
    rcases eq_or_ne g h with rfl | other
    · exact nodup
    · rw [same g other]
      exact separate.nodup g
  once := by
    intro x g g' here there
    have place : ∀ {g}, x ∈ ls' g → x ∈ ls g ∨ (g = h ∧ x = t) := by
      intro g here
      rcases eq_or_ne g h with rfl | other
      · exact ((mem x).mp here).imp_right fun new => ⟨rfl, new⟩
      · exact .inl (same g other ▸ here)
    rcases place here with old | ⟨rfl, rfl⟩ <;> rcases place there with old' | ⟨rfl, new'⟩
    · exact separate.once old old'
    · exact absurd (new' ▸ old) (new g)
    · exact absurd old' (new g')
    · rfl

omit [DecidableEq T] in
theorem Separate.append [DecidableEq H] (separate : Separate ls) (new : Detached ls t) (h : H) : Separate (append h t ls) :=
  separate.insert new (fun g other => append_of_ne other t ls)
    (by rw [append_self]; exact List.nodup_middle.mpr (by rw [List.append_nil]; exact List.nodup_cons.mpr ⟨new h, separate.nodup h⟩))
    (by simp)

omit [DecidableEq T] in
theorem Separate.prepend [DecidableEq H] (separate : Separate ls) (new : Detached ls t) (h : H) : Separate (prepend h t ls) :=
  separate.insert new (fun g other => prepend_of_ne other t ls)
    (by rw [prepend_self]; exact List.nodup_cons.mpr ⟨new h, separate.nodup h⟩) (by simp [or_comm])

/-- To the front is in front of the first. -/
theorem prepend_cons [DecidableEq H] (separate : Separate ls) (list : ls h = u :: l) : prepend h t ls = insertBefore u t ls := by
  funext g
  rcases eq_or_ne g h with rfl | other
  · rw [prepend_self, insertBefore, list]
    exact (if_pos rfl).symm
  · have elsewhere : u ∉ ls g := fun there => other (separate.once there (list ▸ List.mem_cons_self))
    rw [prepend_of_ne other, insertBefore, putBefore_of_notMem elsewhere]

theorem Separate.insertBefore (separate : Separate ls) (inside : u ∈ ls h) (new : Detached ls t) : Separate (insertBefore u t ls) := by
  refine separate.insert new (h := h) (fun g other => ?_) ?_ (mem_putBefore inside · |>.trans or_comm)
  · exact putBefore_of_notMem fun there => other (separate.once there inside)
  · obtain ⟨l1, l2, split⟩ := List.append_of_mem inside
    have nodup := separate.nodup h
    have absent := new h
    rw [split] at nodup absent
    have first : u ∉ l1 := fun there => (List.nodup_append.mp nodup).2.2 u there u List.mem_cons_self rfl
    rw [Rings.insertBefore, split, putBefore_split first]
    exact List.nodup_middle.mpr (List.nodup_cons.mpr ⟨absent, nodup⟩)

theorem Separate.remove (separate : Separate ls) (t : T) : Separate (remove t ls) where
  nodup g := (separate.nodup g).erase t
  once here there := separate.once ((separate.mem_remove _).mp here).2 ((separate.mem_remove _).mp there).2

theorem Separate.detached_remove (separate : Separate ls) (t : T) : Detached (Rings.remove t ls) t :=
  fun g => (separate.nodup g).not_mem_erase

end Lists

section Rings

variable {H T : Type} [DecidableEq H] [DecidableEq T]

/-- The nodes of the ring through a head. -/
def nodes (ls : H → List T) (h : H) : List (H ⊕ T) := .inl h :: (ls h).map .inr

/-- The pointers are those of these lists. -/
structure Represents (k : Links (H ⊕ T)) (ls : H → List T) : Prop extends Separate ls where
  ring : ∀ h, Path k (.inl h) ((ls h).map .inr) (.inl h)
  alone : ∀ {t}, Detached ls t → k.next (.inr t) = .inr t ∧ k.prev (.inr t) = .inr t

variable {k : Links (H ⊕ T)} {ls : H → List T} {h : H} {t u : T}

omit [DecidableEq H] [DecidableEq T] in
theorem mem_nodes_inr : Sum.inr t ∈ nodes ls h ↔ t ∈ ls h := by
  simp [nodes]

omit [DecidableEq H] [DecidableEq T] in
theorem Separate.nodes_apart (separate : Separate ls) {h' : H} {y : H ⊕ T} (here : y ∈ nodes ls h) (there : y ∈ nodes ls h') : h = h' := by
  cases y with
  | inl g => simp [nodes] at here there; exact here.symm.trans there
  | inr t => exact separate.once (mem_nodes_inr.mp here) (mem_nodes_inr.mp there)

omit [DecidableEq H] [DecidableEq T] in
theorem Separate.nodup_nodes (separate : Separate ls) (h : H) : (nodes ls h).Nodup :=
  List.nodup_cons.mpr ⟨by simp, (separate.nodup h).map Sum.inr_injective⟩

omit [DecidableEq H] [DecidableEq T] in
/-- A ring that the changed pointers do not touch. -/
theorem Represents.untouched (rep : Represents k ls) {k' : Links (H ⊕ T)} (next : ∀ y ∈ nodes ls h, k'.next y = k.next y)
    (prev : ∀ y ∈ nodes ls h, k'.prev y = k.prev y) : Path k' (.inl h) ((ls h).map .inr) (.inl h) :=
  (rep.ring h).congr next prev

omit [DecidableEq H] [DecidableEq T] in
theorem Represents.prev_mem (rep : Represents k ls) {y : H ⊕ T} (inside : y ∈ nodes ls h) : k.prev y ∈ nodes ls h := by
  rcases List.mem_cons.mp inside with rfl | member
  · exact (rep.ring h).prev_mem
  · obtain ⟨l1, l2, split⟩ := List.append_of_mem member
    have path := rep.ring h
    rw [split, path_append] at path
    rw [nodes, split]
    rcases List.mem_cons.mp path.1.prev_mem with first | before
    · rw [first]
      exact List.mem_cons_self
    · exact List.mem_cons_of_mem _ (List.mem_append_left _ before)

omit [DecidableEq H] [DecidableEq T] in
theorem Represents.next_mem (rep : Represents k ls) {y : H ⊕ T} (inside : y ∈ nodes ls h) : k.next y ∈ nodes ls h := by
  rcases List.mem_cons.mp inside with rfl | member
  · exact (rep.ring h).next_mem
  · obtain ⟨l1, l2, split⟩ := List.append_of_mem member
    have path := rep.ring h
    rw [split, path_append] at path
    rw [nodes, split]
    rcases List.mem_cons.mp path.2.next_mem with last | after
    · rw [last]
      exact List.mem_cons_self
    · exact List.mem_cons_of_mem _ (List.mem_append_right _ (List.mem_cons_of_mem y after))

/-- The rings that an insertion in front of `y` does not touch, and the nodes that stay alone. -/
theorem Represents.insert (rep : Represents k ls) (new : Detached ls t) {y : H ⊕ T} (inside : y ∈ nodes ls h) {ls' : H → List T}
    (separate : Separate ls') (same : ∀ g, g ≠ h → ls' g = ls g) (mem : ∀ x, x ∈ ls' h ↔ x ∈ ls h ∨ x = t)
    (ring : Path (k.insertBefore y (.inr t)) (.inl h) ((ls' h).map .inr) (.inl h)) : Represents (k.insertBefore y (.inr t)) ls' where
  toSeparate := separate
  ring g := by
    rcases eq_or_ne g h with rfl | other
    · exact ring
    · have apart : ∀ {z}, z ∈ nodes ls g → z ≠ .inr t ∧ z ≠ y ∧ z ≠ k.prev y := by
        intro z there
        refine ⟨?_, ?_, ?_⟩ <;> rintro rfl
        · exact new g (mem_nodes_inr.mp there)
        · exact other (rep.nodes_apart there inside)
        · exact other (rep.nodes_apart there (rep.prev_mem inside))
      rw [same g other]
      refine rep.untouched (fun z there => ?_) fun z there => ?_
      · rw [insertBefore_next, if_neg (apart there).1, if_neg (apart there).2.2]
      · rw [insertBefore_prev, if_neg (apart there).2.1, if_neg (apart there).1]
  alone := by
    intro u free
    have old : Detached ls u := by
      intro g there
      rcases eq_or_ne g h with rfl | other
      · exact free g ((mem u).mpr (.inl there))
      · exact free g (same g other ▸ there)
    have apart : ∀ {z}, z ∈ nodes ls h → Sum.inr u ≠ z := by
      rintro z there rfl
      exact old h (mem_nodes_inr.mp there)
    have newer : (Sum.inr u : H ⊕ T) ≠ .inr t := by
      rintro ⟨⟩
      exact free h ((mem t).mpr (.inr rfl))
    refine ⟨?_, ?_⟩
    · rw [insertBefore_next, if_neg newer, if_neg (apart (rep.prev_mem inside)), (rep.alone old).1]
    · rw [insertBefore_prev, if_neg (apart inside), if_neg newer, (rep.alone old).2]

/-- **Insertion in front of a head** puts the member at the end of the list. -/
theorem Represents.append (rep : Represents k ls) (new : Detached ls t) (h : H) :
    Represents (k.insertBefore (.inl h) (.inr t)) (append h t ls) := by
  refine rep.insert new (h := h) List.mem_cons_self (rep.toSeparate.append new h) (fun g other => append_of_ne other t ls) (by simp) ?_
  rw [append_self, List.map_append]
  exact (rep.ring h).insertBefore (by simp; exact new h) (by simp) (rep.nodup_nodes h)

/-- **Insertion in front of a member.** -/
theorem Represents.insertBefore (rep : Represents k ls) (new : Detached ls t) (inside : u ∈ ls h) :
    Represents (k.insertBefore (.inr u) (.inr t)) (insertBefore u t ls) := by
  obtain ⟨l1, l2, split⟩ := List.append_of_mem inside
  have nodup := rep.nodup_nodes h
  have absent := new h
  have path := rep.ring h
  rw [nodes, split, List.map_append, List.map_cons, ← List.cons_append] at nodup
  rw [split, List.map_append, List.map_cons, path_append] at path
  rw [split] at absent
  obtain ⟨nodup1, nodup2, apart⟩ := List.nodup_append.mp nodup
  have first : u ∉ l1 := fun there => apart (.inr u) (by simp [there]) (.inr u) (by simp) rfl
  have place : Rings.insertBefore u t ls h = l1 ++ t :: u :: l2 := by rw [Rings.insertBefore, split, putBefore_split first]
  have front : Path (k.insertBefore (.inr u) (.inr t)) (.inl h) (l1.map .inr ++ [.inr t]) (.inr u) :=
    path.1.insertBefore (by simp at absent ⊢; tauto) (by simpa using first) nodup1
  have back : Path (k.insertBefore (.inr u) (.inr t)) (.inr u) (l2.map .inr) (.inl h) := by
    refine path.2.congr (fun y there => ?_) fun y there => ?_
    · have newer : y ≠ .inr t := by rintro rfl; simp at absent there; tauto
      have before : y ≠ k.prev (.inr u) := by
        rintro rfl
        exact apart _ path.1.prev_mem _ there rfl
      rw [insertBefore_next, if_neg newer, if_neg before]
    · have newer : y ≠ .inr t := by rintro rfl; simp at absent there; tauto
      have other : y ≠ .inr u := by
        rintro rfl
        exact (List.nodup_cons.mp nodup2).1 (by simpa using there)
      rw [insertBefore_prev, if_neg other, if_neg newer]
  refine rep.insert new (mem_nodes_inr.mpr inside) (rep.toSeparate.insertBefore inside new) (fun g other => ?_)
    (mem_putBefore inside · |>.trans or_comm) ?_
  · exact putBefore_of_notMem fun there => other (rep.once there inside)
  · rw [place, List.map_append, List.map_cons, List.append_cons]
    exact path_append.mpr ⟨front, back⟩

/-- **Insertion behind a head** puts the member at the front of the list. -/
theorem Represents.prepend (rep : Represents k ls) (new : Detached ls t) (h : H) :
    Represents (k.insertAfter (.inl h) (.inr t)) (prepend h t ls) := by
  have path := rep.ring h
  cases list : ls h with
  | nil =>
    rw [list] at path
    have forth : k.next (.inl h) = .inl h := path.1
    have behind := insertAfter_eq (k := k) (a := .inl h) (n := .inr t) (by rw [forth, path.2]) (by simp) (by simp [forth])
    have front : Rings.prepend h t ls = Rings.append h t ls := by rw [Rings.prepend, Rings.append, list, List.nil_append]
    rw [behind, forth, front]
    exact rep.append new h
  | cons u l =>
    rw [list] at path
    have forth : k.next (.inl h) = .inr u := path.1.1
    have other : u ≠ t := by
      rintro rfl
      exact new h (list ▸ List.mem_cons_self)
    have behind := insertAfter_eq (k := k) (a := .inl h) (n := .inr t) (by rw [forth, path.1.2]) (by simp) (by simpa [forth] using other)
    rw [behind, forth, prepend_cons rep.toSeparate list]
    exact rep.insertBefore new (list ▸ List.mem_cons_self)

/-- **Removal**, of a member of any list or of none. -/
theorem Represents.remove (rep : Represents k ls) (t : T) : Represents (k.remove (.inr t)) (remove t ls) := by
  have separate := rep.toSeparate.remove t
  by_cases member : ∃ h, t ∈ ls h
  · obtain ⟨h, inside⟩ := member
    obtain ⟨l1, l2, split⟩ := List.append_of_mem inside
    have nodup := rep.nodup_nodes h
    have path := rep.ring h
    rw [nodes, split, List.map_append, List.map_cons] at nodup
    rw [split, List.map_append, List.map_cons, path_append] at path
    have outside : Sum.inr t ∉ (Sum.inl h : H ⊕ T) :: Sum.inl h :: (l1.map .inr ++ l2.map .inr) := by
      have middle := (List.nodup_cons.mp (List.nodup_middle.mp (List.nodup_cons.mp nodup).2)).1
      simpa using middle
    have start : ((Sum.inl h : H ⊕ T) :: (l1.map .inr ++ l2.map .inr)).Nodup :=
      List.nodup_cons.mpr ⟨by simp, (List.nodup_cons.mp (List.nodup_middle.mp (List.nodup_cons.mp nodup).2)).2⟩
    have first : t ∉ l1 := by simp at outside; tauto
    have place : Rings.remove t ls h = l1 ++ l2 := by
      rw [Rings.remove, split, List.erase_append_right _ first, List.erase_cons_head]
    have apart : k.next (.inr t) ≠ .inr t := by
      intro same
      have next := path.2.next_mem
      rw [same] at next
      simp at next outside
      tauto
    exact {
      toSeparate := separate
      ring := fun g => by
        rcases eq_or_ne g h with rfl | other
        · rw [place, List.map_append]
          exact path.1.remove path.2 outside start start
        · have far : ∀ {z}, z ∈ nodes ls g → z ≠ .inr t ∧ z ≠ k.prev (.inr t) ∧ z ≠ k.next (.inr t) := by
            intro z there
            refine ⟨?_, ?_, ?_⟩ <;> rintro rfl
            · exact other (rep.once (mem_nodes_inr.mp there) inside)
            · exact other (rep.nodes_apart there (rep.prev_mem (mem_nodes_inr.mpr inside)))
            · exact other (rep.nodes_apart there (rep.next_mem (mem_nodes_inr.mpr inside)))
          have same : Rings.remove t ls g = ls g := List.erase_of_not_mem fun there => other (rep.once there inside)
          rw [same]
          refine rep.untouched (fun z there => ?_) fun z there => ?_
          · rw [remove_next apart, if_neg (far there).1, if_neg (far there).2.1]
          · rw [remove_prev, if_neg (far there).1, if_neg (far there).2.2]
      alone := fun {u} free => by
        rcases eq_or_ne u t with rfl | other
        · exact ⟨by rw [remove_next apart, if_pos rfl], by rw [remove_prev, if_pos rfl]⟩
        · have old : Detached ls u := fun g there => free g ((rep.toSeparate.mem_remove u).mpr ⟨other, there⟩)
          have far : ∀ {z}, z ∈ nodes ls h → Sum.inr u ≠ z := by
            rintro z there rfl
            exact old h (mem_nodes_inr.mp there)
          have newer : (Sum.inr u : H ⊕ T) ≠ .inr t := fun same => other (Sum.inr.inj same)
          have place := mem_nodes_inr.mpr inside
          exact ⟨by rw [remove_next apart, if_neg newer, if_neg (far (rep.prev_mem place)), (rep.alone old).1],
            by rw [remove_prev, if_neg newer, if_neg (far (rep.next_mem place)), (rep.alone old).2]⟩ }
  · have detached : Detached ls t := fun h there => member ⟨h, there⟩
    obtain ⟨next, prev⟩ := rep.alone detached
    have same : Rings.remove t ls = ls := funext fun h => List.erase_of_not_mem (detached h)
    have pointers : k.remove (.inr t) = k := by
      simp only [Links.remove, Links.setNext, Links.setPrev, next, prev, Function.update_self, Function.update_idem]
      simp only [show Function.update k.next (Sum.inr t) (Sum.inr t) = k.next from Function.update_eq_self_iff.mpr next.symm,
        show Function.update k.prev (Sum.inr t) (Sum.inr t) = k.prev from Function.update_eq_self_iff.mpr prev.symm]
    rw [same, pointers]
    exact rep

omit [DecidableEq H] [DecidableEq T] in
/-- The node after a head is the list's first member. -/
theorem Represents.first (rep : Represents k ls) (h : H) : k.next (.inl h) = ((ls h).head?.elim (.inl h) .inr) := by
  have path := rep.ring h
  cases list : ls h with
  | nil =>
    rw [list] at path
    exact path.1
  | cons t l =>
    rw [list] at path
    exact path.1.1

omit [DecidableEq H] [DecidableEq T] in
/-- A member is in no list just when it is by itself. -/
theorem Represents.detached_iff (rep : Represents k ls) (t : T) : Detached ls t ↔ k.next (.inr t) = .inr t := by
  refine ⟨fun detached => (rep.alone detached).1, fun self h inside => ?_⟩
  obtain ⟨l1, l2, split⟩ := List.append_of_mem inside
  have nodup := rep.nodup h
  have path := rep.ring h
  rw [split, List.map_append, List.map_cons, path_append] at path
  have next := path.2.next_mem
  rw [self] at next
  rw [split] at nodup
  exact (List.nodup_cons.mp (List.nodup_append.mp nodup).2.1).1 (by simpa using next)

end Rings

section Commands

variable {H T : Type} [DecidableEq H] [DecidableEq T]

/-- What a program does to its rings. -/
inductive Command (H T : Type) where
  | append (h : H) (t : T)
  | prepend (h : H) (t : T)
  | insertBefore (u t : T)
  | remove (t : T)
  /-- The node after a head. -/
  | first (h : H)

/-- The commands on the pointers. -/
def pointers : Lts.Machine (Links (H ⊕ T)) (Command H T) (Option T) where
  step
    | k, .append h t => (none, k.insertBefore (.inl h) (.inr t))
    | k, .prepend h t => (none, k.insertAfter (.inl h) (.inr t))
    | k, .insertBefore u t => (none, k.insertBefore (.inr u) (.inr t))
    | k, .remove t => (none, k.remove (.inr t))
    | k, .first h => ((k.next (.inl h)).getRight?, k)

/-- The commands on the lists. -/
def lists : Lts.Machine (H → List T) (Command H T) (Option T) where
  step
    | ls, .append h t => (none, append h t ls)
    | ls, .prepend h t => (none, prepend h t ls)
    | ls, .insertBefore u t => (none, insertBefore u t ls)
    | ls, .remove t => (none, remove t ls)
    | ls, .first h => ((ls h).head?, ls)

/-- Only a node by itself may be inserted, and only in front of one that is not. -/
def Proper (k : Links (H ⊕ T)) : Command H T → Prop
  | .append _ t | .prepend _ t => k.next (.inr t) = .inr t
  | .insertBefore u t => k.next (.inr u) ≠ .inr u ∧ k.next (.inr t) = .inr t
  | _ => True

/-- **The pointers implement the lists.** -/
theorem pointers_refine_lists : Lts.Refinement (pointers : Lts.Machine (Links (H ⊕ T)) (Command H T) (Option T)) lists Proper fun ls k => Represents k ls where
  answer := by
    intro ls k c rep _
    cases c with
    | first h =>
      show (k.next (.inl h)).getRight? = (ls h).head?
      rw [rep.first h]
      cases (ls h).head? <;> rfl
    | _ => rfl
  keep := by
    intro ls k c rep proper
    cases c with
    | append h t => exact rep.append ((rep.detached_iff t).mpr proper) h
    | prepend h t => exact rep.prepend ((rep.detached_iff t).mpr proper) h
    | insertBefore u t =>
      obtain ⟨h, inside⟩ := not_forall_not.mp fun none => proper.1 ((rep.detached_iff u).mp none)
      exact rep.insertBefore ((rep.detached_iff t).mpr proper.2) inside
    | remove t => exact rep.remove t
    | first h => exact rep

/-- `Proper`, as far as the lists show it. -/
def Apart (ls : H → List T) : Command H T → Prop
  | .append _ t | .prepend _ t => Detached ls t
  | .insertBefore u t => (∃ h, u ∈ ls h) ∧ Detached ls t
  | _ => True

/-- The commands are proper and lead from the lists `ls` to `ls'`. -/
structure Rewires (cs : List (Command H T)) (ls ls' : H → List T) : Prop where
  result : (lists.run cs ls).2 = ls'
  apart : lists.Within Apart cs ls

theorem Rewires.nil (ls : H → List T) : Rewires [] ls ls := ⟨rfl, trivial⟩

/-- A node leaves its ring, if any. -/
theorem Rewires.remove (t : T) (ls : H → List T) : Rewires [.remove t] ls (Rings.remove t ls) := ⟨rfl, trivial, trivial⟩

/-- A node leaves its ring, and the next command is about it. -/
theorem Rewires.then {ls : H → List T} (t : T) {c : Command H T} (apart : Apart (Rings.remove t ls) c) :
    Rewires [.remove t, c] ls (lists.step (Rings.remove t ls) c).2 := ⟨rfl, trivial, apart, trivial⟩

/-- A node leaves its ring and goes to the end of another. -/
theorem Rewires.move {ls : H → List T} (separate : Separate ls) (t : T) (h : H) :
    Rewires [.remove t, .append h t] ls (Rings.append h t (Rings.remove t ls)) := .then t (separate.detached_remove t)

/-- **Proper commands on the pointers** lead to pointers that represent the lists. -/
theorem Represents.rewires {k : Links (H ⊕ T)} {ls ls' : H → List T} {cs : List (Command H T)} (rep : Represents k ls) (rewires : Rewires cs ls ls') :
    pointers.Within Proper cs k ∧ Represents (pointers.run cs k).2 ls' := by
  have proper := pointers_refine_lists.within (fun {ls k c} rep apart => by
    cases c with
    | append h t | prepend h t => exact (rep.detached_iff t).mp apart
    | insertBefore u t =>
      obtain ⟨⟨h, inside⟩, detached⟩ := apart
      exact ⟨fun alone => (rep.detached_iff u).mpr alone h inside, (rep.detached_iff t).mp detached⟩
    | _ => trivial) cs rep rewires.apart
  have done := (pointers_refine_lists.run cs rep proper).2
  rw [rewires.result] at done
  exact ⟨proper, done⟩

end Commands

end Rings
