import DoorSecurity.Bus.Fault
import DoorSecurity.Tags.AccessList

/-!
# The list operations on a bus that fails

`IIC_Wait_Ack` reports a missing acknowledge and every caller drops the report, so a
failed read passes for the byte `0xFF` and a failed write for a done one. What
the return values still say depends on which transactions were acknowledged:
the count read, the search reads, the writes.
-/

namespace DoorSecurity
set_option autoImplicit false
open Bus Eeprom

section Transactions

variable (ack : Nat → Bool) (n : Nat) (m : Eeprom)

/-- The part on a bus that acknowledges the transactions `ack`, reads of the others sampling
the pulled-up line. -/
def flakyBus : Handler (Nat × Eeprom) BusAddr UInt8 := at24c02.flaky ack 0xFF

variable {α : Type}

theorem run_readOneByte_bind {a : Nat} (ha : a < 256) (f : UInt8 → Code α) :
    run (flakyBus ack) (at24cxxReadOneByte a >>= f) (n, m) =
      run (flakyBus ack) (f (if ack n then m.get a else 0xFF)) (n + 1, m) := by
  rw [at24cxxReadOneByte, Prog.get_bind, run_read]
  simp only [flakyBus, Device.flaky, at24c02_read ha]

theorem run_writeOneByte_bind {a : Nat} (ha : a < 256) (v : UInt8) (f : Unit → Code α) :
    run (flakyBus ack) (at24cxxWriteOneByte a v >>= f) (n, m) =
      run (flakyBus ack) (f ()) (n + 1, if ack n then m.set a v else m) := by
  rw [at24cxxWriteOneByte, Prog.put_bind, run_write]
  simp only [flakyBus, Device.flaky, at24c02_write ha]

/-- What four reads from transaction `n` on make of a slot. -/
def seenSlot (tagId : TagId) : TagId := fun i => if ack (n + i.val) then tagId i else 0xFF

theorem run_readStoredTagId {j : Nat} (first : 1 ≤ j) (last : j ≤ 63) :
    run (flakyBus ack) (readStoredTagId j) (n, m) = (idString (seenSlot ack n (m.slot j)), (n + 4, m)) := by
  rw [readStoredTagId_eq first (by omega), run_readOneByte_bind _ _ _ (by omega), run_readOneByte_bind _ _ _ (by omega),
    run_readOneByte_bind _ _ _ (by omega), run_readOneByte_bind _ _ _ (by omega)]
  rfl

/-- A byte that is not `0xFF` was read. -/
theorem eq_of_seenSlot {ack : Nat → Bool} {n : Nat} {tagId u : TagId} (seen : seenSlot ack n tagId = u)
    (sure : (∀ i, u i ≠ 0xFF) ∨ ∀ i, i < 4 → ack (n + i) = true) : tagId = u := by
  funext i
  have byte := congrFun seen i
  unfold seenSlot at byte
  rcases sure with proper | acked
  · split at byte
    · exact byte
    · exact absurd byte.symm (proper i)
  · rwa [if_pos (acked i.val i.isLt)] at byte

/-- The bytes of `id` that get through to slot `j`. -/
def Eeprom.putAcked (j : Nat) (id : TagId) (acked : Nat → Bool) : Nat → Eeprom
  | 0 => m
  | c + 1 => if acked c then (putAcked j id acked c).set (4 * j - 3 + c) (id (Fin.ofNat 4 c)) else putAcked j id acked c

theorem run_writeTagBytes {j : Nat} (first : 1 ≤ j) (last : j ≤ 63) (id : TagId) :
    run (flakyBus ack) (writeTagBytes j id) (n, m) = ((), (n + 4, m.putAcked j id (fun c => ack (n + c)) 4)) := by
  have known := run_forLoop (flakyBus ack) (fun i (_ : Unit) t => t = (n + i, m.putAcked j id (fun c => ack (n + c)) i))
    (fun i _ => at24cxxWriteOneByte (uint16 (tagStoredBaseAdd j + i)) (id (Fin.ofNat 4 i))) 4 0 () (n, m) rfl ?_
  · exact Prod.ext rfl known
  · rintro i _ _ _ upper rfl
    rw [uint16_slot first (by omega) (by omega), at24cxxWriteOneByte, Prog.put, run_write, run_ret]
    simp only [flakyBus, Device.flaky, at24c02_write (show 4 * j - 3 + i < 256 by omega)]
    rfl

variable {m}

theorem get_putAcked_outside {j : Nat} (hj : j ≤ 63) (id : TagId) (acked : Nat → Bool) {a : Nat} (ha : a < 256) {c : Nat} (hc : c ≤ 4)
    (outside : ¬ (4 * j - 3 ≤ a ∧ a < 4 * j - 3 + c)) : (m.putAcked j id acked c).get a = m.get a := by
  induction c with
  | zero => rfl
  | succ c ih =>
    rw [putAcked]
    split
    · rw [get_set_ne _ _ (by omega) ha (by omega)]
      exact ih (by omega) (by omega)
    · exact ih (by omega) (by omega)

theorem slot_putAcked_ne {j q : Nat} (hj : j ≤ 63) (hq : q ≤ 63) (first : 1 ≤ j) (firstq : 1 ≤ q) (ne : q ≠ j)
    (id : TagId) (acked : Nat → Bool) : (m.putAcked j id acked 4).slot q = m.slot q := by
  funext i
  exact get_putAcked_outside hj id acked (by omega) (Nat.le_refl _) (by omega)

theorem putAcked_of_ack {j : Nat} (id : TagId) {acked : Nat → Bool} {c : Nat} (all : ∀ i, i < c → acked i = true) :
    m.putAcked j id acked c = m.putBytes j id c := by
  induction c with
  | zero => rfl
  | succ c ih => rw [putAcked, if_pos (all c (by omega)), ih (fun i h => all i (by omega)), putBytes_succ]

end Transactions

variable {ack : Nat → Bool} {m : Eeprom} {l : AccessList TagId}

theorem run_tagMatchFrom (id : TagId) (k : Nat) : ∀ j n, 1 ≤ j → j + k ≤ 64 →
    ((run (flakyBus ack) (tagMatchFrom (idString id) j k) (n, m)).1 = 1 ↔
      ∃ q, j ≤ q ∧ q < j + k ∧ seenSlot ack (n + 4 * (q - j)) (m.slot q) = id) := by
  induction k with
  | zero =>
    intro j n _ _
    apply iff_of_false (show ¬ (0 : UInt8) = 1 by decide)
    rintro ⟨q, lower, upper, -⟩
    omega
  | succ k ih =>
    intro j n first last
    rw [tagMatchFrom, run_bind_of _ (run_readStoredTagId ack n m first (by omega))]
    by_cases here : seenSlot ack n (m.slot j) = id
    · rw [if_pos (idString_inj.mpr here)]
      refine iff_of_true rfl ⟨j, Nat.le_refl _, by omega, ?_⟩
      rwa [Nat.sub_self, Nat.mul_zero, Nat.add_zero]
    · rw [if_neg (fun e => here (idString_inj.mp e)), ih (j + 1) (n + 4) (by omega) (by omega)]
      constructor
      · rintro ⟨q, lower, upper, seen⟩
        refine ⟨q, by omega, by omega, ?_⟩
        rwa [show n + 4 * (q - j) = n + 4 + 4 * (q - (j + 1)) by omega]
      · rintro ⟨q, lower, upper, seen⟩
        rcases Nat.lt_or_ge j q with later | same
        · refine ⟨q, by omega, by omega, ?_⟩
          rwa [show n + 4 + 4 * (q - (j + 1)) = n + 4 * (q - j) by omega]
        · obtain rfl : q = j := by omega
          rw [Nat.sub_self, Nat.mul_zero, Nat.add_zero] at seen
          exact absurd seen here

/-- `tag_match` accepts exactly the IDs that one of the slots it reads looks like: byte `i`
of slot `j` is transaction `4 * j - 3 + i`. -/
theorem run_tagMatch (id : TagId) :
    (run (flakyBus ack) (tagMatch id) (0, m)).1 = 1 ↔
      ∃ j, 1 ≤ j ∧ j ≤ (if ack 0 then m.count else 63) ∧ ∀ i : Fin 4, id i = if ack (4 * j - 3 + i.val) then m.slot j i else 0xFF := by
  have bound := m.count_lt
  unfold tagMatch modCntTagAdd
  rw [run_readOneByte_bind _ _ _ (by omega)]
  set cnt := countOf (if ack 0 then m.get 0 else 0xFF) with hcnt
  have counted : cnt = if ack 0 then m.count else 63 := by
    rw [hcnt]
    split
    · rfl
    · decide
  have small : cnt ≤ 63 := by rw [counted]; split <;> omega
  rw [← counted]
  have slots : (∃ q, 1 ≤ q ∧ q < 1 + cnt ∧ seenSlot ack (1 + 4 * (q - 1)) (m.slot q) = id) ↔
      ∃ j, 1 ≤ j ∧ j ≤ cnt ∧ ∀ i : Fin 4, id i = if ack (4 * j - 3 + i.val) then m.slot j i else 0xFF := by
    constructor
    · rintro ⟨q, lower, upper, seen⟩
      refine ⟨q, lower, by omega, fun i => ?_⟩
      rw [← seen, seenSlot, show 4 * q - 3 = 1 + 4 * (q - 1) by omega]
    · rintro ⟨q, lower, upper, bytes⟩
      refine ⟨q, lower, by omega, funext fun i => ?_⟩
      rw [bytes i, seenSlot, show 4 * q - 3 = 1 + 4 * (q - 1) by omega]
  rw [← slots]
  by_cases empty : cnt = 0
  · rw [if_pos empty]
    apply iff_of_false (show ¬ (0 : UInt8) = 1 by decide)
    rintro ⟨q, lower, upper, -⟩
    omega
  · rw [if_neg empty]
    exact run_tagMatchFrom id cnt 1 1 (Nat.le_refl _) (by omega)

/-- `regist_tag` returns 1, whatever the bus does. -/
theorem registTag_returns {τ : Type} (h : Handler τ BusAddr UInt8) (id : TagId) (t : τ) : (run h (registTag id) t).1 = 1 := by
  unfold registTag
  rw [run_bind, run_bind, run_bind]
  rfl

/-- With the count read, `regist_tag` touches byte 0 and the next slot. -/
theorem run_registTag (id : TagId) (room : m.count < 56) (counted : ack 0 = true) :
    (run (flakyBus ack) (registTag id) (0, m)).2.2 =
      (if ack 1 then m.set 0 (countByte (m.count + 1)) else m).putAcked (m.count + 1) id (fun c => ack (2 + c)) 4 := by
  unfold registTag modCntTagAdd
  rw [run_readOneByte_bind _ _ _ (by omega), if_pos counted]
  simp only [countOf_byte0, if_neg (show ¬ m.count + 1 > 56 by omega)]
  rw [run_writeOneByte_bind _ _ _ (by omega), run_bind_of _ (run_writeTagBytes ack 2 _ (by omega) (by omega) id)]
  rfl

/-- The slots keep their IDs and the count does not go down. -/
theorem mem_tags_of_slots {t : Eeprom} (count : m.count ≤ t.count) (slots : ∀ q, 1 ≤ q → q ≤ m.count → t.slot q = m.slot q)
    {u : TagId} (listed : u ∈ m.tags) : u ∈ t.tags := by
  obtain ⟨q, first, last, rfl⟩ := mem_slots.mp listed
  exact mem_slots.mpr ⟨q, first, by omega, slots q first last⟩

theorem run_registTag_keeps (id : TagId) (room : m.count < 56) (counted : ack 0 = true) {u : TagId} (listed : u ∈ m.tags) :
    u ∈ (run (flakyBus ack) (registTag id) (0, m)).2.2.tags := by
  rw [run_registTag id room counted]
  refine mem_tags_of_slots ?_ ?_ listed
  · have byte := get_putAcked_outside (m := if ack 1 then m.set 0 (countByte (m.count + 1)) else m) (j := m.count + 1) (by omega) id
      (fun c => ack (2 + c)) (a := 0) (by omega) (Nat.le_refl 4) (by omega)
    unfold Eeprom.count at *
    rw [byte]
    split
    · rw [get_set_self, countOf_countByte (by omega)]
      omega
    · exact Nat.le_refl _
  · intro q first last
    rw [slot_putAcked_ne (by omega) (by omega) (by omega) first (by omega)]
    split
    · exact slot_set_zero first (by omega) _
    · rfl

theorem run_registTag_stores (id : TagId) (room : m.count < 56) (acked : ∀ i, i < 6 → ack i = true) :
    id ∈ (run (flakyBus ack) (registTag id) (0, m)).2.2.tags := by
  rw [run_registTag id room (acked 0 (by omega)), if_pos (acked 1 (by omega)),
    putAcked_of_ack id (fun i h => acked (2 + i) (by omega))]
  have count : ((m.set 0 (countByte (m.count + 1))).putBytes (m.count + 1) id 4).count = m.count + 1 := by
    rw [count_putBytes (by omega) (by omega) id (Nat.le_refl _), count_set_zero, countOf_countByte (by omega)]
  exact mem_slots.mpr ⟨m.count + 1, by omega, by rw [count], slot_setSlot_self (by omega) id⟩

/-- What the search loop keeps before slot `j`: no match yet and nothing written, or the one
match behind it. -/
def SearchState (m : Eeprom) (id : TagId) (n j : Nat) (kz : Nat × Nat) (t : Nat × Eeprom) : Prop :=
  (kz.1 = n ∧ t = (4 * j - 3, m)) ∨
    ∃ z, 1 ≤ z ∧ z < j ∧ m.slot z = id ∧ kz = (n - 1, z) ∧ t.1 = 4 * j + 1 ∧
      ∀ q, 1 ≤ q → q ≤ 63 → q ≠ z → t.2.slot q = m.slot q

theorem run_deleteSearchRound {id : TagId} {n j : Nat} (small : n ≤ 62) (distinct : (m.slots n).Nodup)
    (sure : (∀ i, id i ≠ 0xFF) ∨ ∀ i, 1 ≤ i → i < 4 * n + 5 → ack i = true) (first : 1 ≤ j) (last : j ≤ n) {kz : Nat × Nat} {t : Nat × Eeprom}
    (state : SearchState m id n j kz t) :
    SearchState m id n (j + 1) (run (flakyBus ack) (deleteSearchRound (idString id) j kz) t).1
      (run (flakyBus ack) (deleteSearchRound (idString id) j kz) t).2 := by
  have read : ∀ a, 1 ≤ a → a + 4 ≤ 4 * n + 5 → (∀ i, id i ≠ 0xFF) ∨ ∀ i, i < 4 → ack (a + i) = true :=
    fun a lower upper => sure.imp_right fun acked i h => acked (a + i) (by omega) (by omega)
  unfold deleteSearchRound
  rcases state with ⟨none, rfl⟩ | ⟨z, lower, upper, hit, rfl, index, other⟩
  · rw [run_bind_of _ (run_readStoredTagId ack _ m first (by omega))]
    by_cases here : seenSlot ack (4 * j - 3) (m.slot j) = id
    · rw [if_pos (idString_inj.mpr here), run_bind_of _ (run_writeTagBytes ack _ m first (by omega) 0)]
      refine .inr ⟨j, first, by omega, eq_of_seenSlot here (read _ (by omega) (by omega)), ?_, ?_, fun q firstq lastq ne => ?_⟩
      · rw [run_pure, none]
      · show 4 * j - 3 + 4 + 4 = 4 * (j + 1) + 1
        omega
      · exact slot_putAcked_ne (by omega) lastq first firstq ne 0 _
    · rw [if_neg (fun e => here (idString_inj.mp e)), run_pure, show 4 * j - 3 + 4 = 4 * (j + 1) - 3 by omega]
      exact .inl ⟨none, rfl⟩
  · obtain ⟨a, s⟩ := t
    obtain rfl : a = 4 * j + 1 := index
    have unread : s.slot j = m.slot j := other j first (by omega) (by omega)
    rw [run_bind_of _ (run_readStoredTagId ack _ s first (by omega)), unread, if_neg, run_pure]
    · exact .inr ⟨z, lower, by omega, hit, rfl, rfl, other⟩
    · intro same
      have again := eq_of_seenSlot (idString_inj.mp same) (read _ (by omega) (by omega))
      have index := slot_inj distinct lower (by omega) first last (hit.trans again.symm)
      omega

/-- With the search reads trusted and nothing lost after them, a deletion that returns 1 is
the list's. -/
theorem run_deleteRegisteredTag (holds : Holds l m) {id : TagId} (counted : ack 0 = true)
    (sure : (∀ i, id i ≠ 0xFF) ∨ ∀ i, 1 ≤ i → i < 4 * m.count + 5 → ack i = true)
    (acked : ∀ i, 4 * m.count + 5 ≤ i → ack i = true)
    (returned : (run (flakyBus ack) (deleteRegisteredTag id) (0, m)).1 = 1) :
    Holds (l.delete id) (run (flakyBus ack) (deleteRegisteredTag id) (0, m)).2.2 := by
  have bound := holds.bound
  have count := holds.count
  have search := run_forLoop (flakyBus ack) (SearchState m id m.count) (deleteSearchRound (idString id)) m.count 1 (m.count, 0) (1, m)
    (.inl ⟨rfl, rfl⟩) fun j _ _ first last state => run_deleteSearchRound (by omega) holds.nodup sure first (by omega) state
  unfold deleteRegisteredTag modCntTagAdd at returned ⊢
  rw [run_readOneByte_bind _ _ _ (by omega), if_pos counted] at returned ⊢
  simp only [countOf_byte0] at returned ⊢
  by_cases empty : m.count = 0
  · rw [if_pos empty] at returned
    exact absurd returned (by decide : ¬ (0 : UInt8) = 1)
  · rw [if_neg empty, run_bind, deleteSearch] at returned ⊢
    generalize run (flakyBus ack) (Prog.forLoop 1 m.count (m.count, 0) (deleteSearchRound (idString id))) (1, m) = r at *
    obtain ⟨kz, a, t⟩ := r
    rcases search with ⟨none, -⟩ | ⟨z, lower, upper, hit, rfl, rfl, other⟩
    · simp only at none
      simp only [none, if_true] at returned
      exact absurd returned (by decide : ¬ (0 : UInt8) = 1)
    · simp only [if_neg (show ¬ m.count - 1 = m.count by omega)]
      rw [flakyBus, (at24c02.run_flaky_of_ack _ _ _ fun i le => acked i (by omega)).2,
        Device.exec_bind_of _ (exec_deleteCompact t lower (by omega) (by omega)), exec_writeOneByte_bind (by omega)]
      exact holds.of_shiftDown lower (by omega) hit other

/-- **What the return values say on a failing bus**, for every pattern of missing
acknowledges. -/
theorem return_values_on_failing_bus (holds : Holds l m) (small : l.keys.length ≤ 55) (id : TagId) (ack : Nat → Bool) :
    ((run (flakyBus ack) (tagMatch id) (0, m)).1 = 1 ↔
      ∃ j, 1 ≤ j ∧ j ≤ (if ack 0 then l.keys.length else 63) ∧ ∀ i : Fin 4, id i = if ack (4 * j - 3 + i.val) then m.slot j i else 0xFF) ∧
    ((run (flakyBus ack) (registTag id) (0, m)).1 = 1 ∧
      (ack 0 = true → ∀ u ∈ l.keys, u ∈ (run (flakyBus ack) (registTag id) (0, m)).2.2.tags) ∧
      ((∀ i, i < 6 → ack i = true) → id ∈ (run (flakyBus ack) (registTag id) (0, m)).2.2.tags)) ∧
    ((run (flakyBus ack) (deleteRegisteredTag id) (0, m)).1 = 1 → ack 0 = true →
      ((∀ i, id i ≠ 0xFF) ∨ ∀ i, 1 ≤ i → i < 4 * l.keys.length + 5 → ack i = true) →
      (∀ i, 4 * l.keys.length + 5 ≤ i → ack i = true) →
      id ∉ (run (flakyBus ack) (deleteRegisteredTag id) (0, m)).2.2.tags ∧
        ∀ u ∈ l.keys, u ≠ id → u ∈ (run (flakyBus ack) (deleteRegisteredTag id) (0, m)).2.2.tags) := by
  have count := holds.count
  rw [← count]
  refine ⟨run_tagMatch id, ⟨registTag_returns _ id _, fun counted u listed => ?_, fun acked => ?_⟩, ?_⟩
  · exact run_registTag_keeps id (by omega) counted (holds.mem.mpr listed)
  · exact run_registTag_stores id (by omega) acked
  · intro returned counted sure acked
    have after := run_deleteRegisteredTag holds counted sure acked returned
    constructor
    · intro listed
      exact (AccessList.mem_delete.mp (after.mem.mp listed)).1 rfl
    · intro u listed ne
      exact after.mem.mpr (AccessList.mem_delete.mpr ⟨ne, listed⟩)

/-- A part that holds the cards 01020304 and 05060708. -/
def twoCards : Eeprom := ((Eeprom.blank.set 0 0x82).setSlot 1 ![1, 2, 3, 4]).setSlot 2 ![5, 6, 7, 8]

theorem twoCards_holds : Holds ⟨[![1, 2, 3, 4], ![5, 6, 7, 8]], by decide⟩ twoCards := .of_slots (n := 2) (by decide) (by decide) (by decide)

/-- The first read of the search is not acknowledged: the second card is still deleted, and only that. -/
theorem return_values_on_failing_bus_twoCards :
    ![5, 6, 7, 8] ∉ (run (flakyBus (· != 1)) (deleteRegisteredTag ![5, 6, 7, 8]) (0, twoCards)).2.2.tags ∧
      ![1, 2, 3, 4] ∈ (run (flakyBus (· != 1)) (deleteRegisteredTag ![5, 6, 7, 8]) (0, twoCards)).2.2.tags := by
  have deleted := (return_values_on_failing_bus twoCards_holds (by decide) ![5, 6, 7, 8] (· != 1)).2.2 (by decide) rfl (.inl (by decide))
    fun i late => by simpa using (show i ≠ 1 by rintro rfl; contradiction)
  exact ⟨deleted.1, deleted.2 ![1, 2, 3, 4] (by decide) (by decide)⟩

/-- With the count read alone acknowledged `tag_match` accepts FFFFFFFF; with nothing
acknowledged `regist_tag` returns 1 and stores nothing. -/
theorem dropped_transactions_accepted :
    (run (flakyBus fun n => n == 0) (tagMatch fun _ => 0xFF) (0, oneCard)).1 = 1 ∧ (fun _ => 0xFF) ∉ oneCard.tags ∧
      (run (flakyBus fun _ => false) (registTag ![5, 6, 7, 8]) (0, oneCard)).1 = 1 ∧
      ![5, 6, 7, 8] ∉ (run (flakyBus fun _ => false) (registTag ![5, 6, 7, 8]) (0, oneCard)).2.2.tags := by
  decide

end DoorSecurity
