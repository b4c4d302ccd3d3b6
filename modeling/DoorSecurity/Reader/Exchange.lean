import DoorSecurity.Reader.Rc522

/-!
# One exchange with a card

What `PcdComMF522` does on every sequence of register values: how often it polls,
when it reports success and what it has then stored. The FIFO level is the chip's
word for how much has arrived; the length is computed from it before it is cut to
`MAXRLEN`, and from zero it wraps.
-/

namespace DoorSecurity
set_option autoImplicit false
open Bus

/-- No bit of `ComIrqReg` that ends the poll of a transceive. -/
def Quiet (irq : UInt8) : Prop := irq &&& 0x01 = 0 ∧ irq &&& 0x30 = 0

instance (irq : UInt8) : Decidable (Quiet irq) := inferInstanceAs (Decidable (_ ∧ _))

/-- `n` with register `r` read `k` more times. -/
def ReadCounts.more (n : ReadCounts) (r : Reg) (k : Nat) : ReadCounts := Function.update n r (n r + k)

namespace ReadCounts

variable (n : ReadCounts) {r s : Reg}

@[simp] theorem more_self (k : Nat) : n.more r k r = n r + k := Function.update_self ..

@[simp] theorem more_ne (ne : s ≠ r) (k : Nat) : n.more r k s = n s := Function.update_of_ne ne ..

@[simp] theorem more_zero : n.more r 0 = n := Function.update_eq_self ..

@[simp] theorem more_more (j k : Nat) : (n.more r j).more r k = n.more r (j + k) := by
  simp only [more, Function.update_self, Function.update_idem, Nat.add_assoc]

end ReadCounts

section Run

variable (chip : Chip) (n : ReadCounts) {α : Type}

theorem run_readRawRC_bind (r : Reg) (f : UInt8 → ReaderCode α) :
    run (rc522 chip) (readRawRC r >>= f) n = run (rc522 chip) (f (chip r (n r))) (n.more r 1) := rfl

theorem run_writeRawRC_bind (r : Reg) (v : UInt8) (f : Unit → ReaderCode α) :
    run (rc522 chip) (writeRawRC r v >>= f) n = run (rc522 chip) (f ()) n := rfl

theorem run_setBitMask_bind (r : Reg) (mask : UInt8) (f : Unit → ReaderCode α) :
    run (rc522 chip) (setBitMask r mask >>= f) n = run (rc522 chip) (f ()) (n.more r 1) := rfl

theorem run_clearBitMask_bind (r : Reg) (mask : UInt8) (f : Unit → ReaderCode α) :
    run (rc522 chip) (clearBitMask r mask >>= f) n = run (rc522 chip) (f ()) (n.more r 1) := rfl

theorem run_writeFifo (pInData : List UInt8) : run (rc522 chip) (writeFifo pInData) n = ((), n) := by
  induction pInData with
  | nil => rfl
  | cons b pInData ih => rw [writeFifo, run_writeRawRC_bind, ih]

theorem pollComIrq_succ (ul : Nat) : pollComIrq 0x30 (ul + 1) =
    (readRawRC .comIrqReg >>= fun ucN => if Quiet ucN then pollComIrq 0x30 ul else return (ucN, ul + 1)) := rfl

/-- The poll loop: the number of rounds, all quiet but the last, which is not unless the budget is spent. -/
theorem run_pollComIrq (ul : Nat) : ∀ n : ReadCounts, ∃ k ≤ ul,
    run (rc522 chip) (pollComIrq 0x30 ul) n = ((chip .comIrqReg (n .comIrqReg + k), ul - k), n.more .comIrqReg (k + 1)) ∧
      (∀ j < k, Quiet (chip .comIrqReg (n .comIrqReg + j))) ∧ (k < ul → ¬ Quiet (chip .comIrqReg (n .comIrqReg + k))) := by
  induction ul with
  | zero => intro n; exact ⟨0, Nat.le_refl 0, rfl, fun j h => absurd h (Nat.not_lt_zero j), fun h => absurd h (Nat.not_lt_zero 0)⟩
  | succ ul ih =>
    intro n
    rw [pollComIrq_succ, run_readRawRC_bind]
    by_cases quiet : Quiet (chip .comIrqReg (n .comIrqReg))
    · obtain ⟨k, le, run, before, last⟩ := ih (n.more .comIrqReg 1)
      simp only [ReadCounts.more_self, ReadCounts.more_more] at run before last
      refine ⟨k + 1, Nat.succ_le_succ le, ?_, ?_, ?_⟩
      · rw [if_pos quiet, run, Nat.add_assoc, Nat.add_comm 1 k, Nat.add_sub_add_right, Nat.add_comm 1 (k + 1)]
      · intro j lt
        cases j with
        | zero => exact quiet
        | succ j =>
          have later := before j (Nat.lt_of_succ_lt_succ lt)
          rwa [Nat.add_assoc, Nat.add_comm 1 j] at later
      · intro lt
        have found := last (Nat.lt_of_succ_lt_succ lt)
        rwa [Nat.add_assoc, Nat.add_comm 1 k] at found
    · rw [if_neg quiet]
      exact ⟨0, Nat.zero_le _, rfl, fun j h => absurd h (Nat.not_lt_zero j), fun _ => quiet⟩

/-- The FIFO is read in order. -/
theorem run_readFifo (k : Nat) : run (rc522 chip) (readFifo k) n =
    ((List.range k).map fun i => chip .fifoDataReg (n .fifoDataReg + i), n.more .fifoDataReg k) := by
  have read := run_forLoop (rc522 chip)
    (fun i out t => out = (List.range i).map (fun i => chip .fifoDataReg (n .fifoDataReg + i)) ∧ t = n.more .fifoDataReg i)
    (fun _ pOutData => do
      let b ← readRawRC .fifoDataReg
      return pOutData ++ [b]) k 0 [] n ⟨rfl, (n.more_zero).symm⟩
  rw [Nat.zero_add] at read
  apply Prod.ext_iff.mpr
  apply read
  rintro i _ _ - - ⟨rfl, rfl⟩
  rw [run_readRawRC_bind]
  exact ⟨by rw [List.range_succ, List.map_append]; simp, ReadCounts.more_more ..⟩

/-- The answer of a transceive: the level, the last byte's bits and the FIFO's bytes. -/
theorem run_readAnswer (cStatus : UInt8) : run (rc522 chip) (readAnswer cStatus) n =
    (⟨cStatus, (List.range (fifoBytes (chip .fifoLevelReg (n .fifoLevelReg)))).map fun i => chip .fifoDataReg (n .fifoDataReg + i),
        some (outLenBit (chip .fifoLevelReg (n .fifoLevelReg)) (chip .controlReg (n .controlReg) &&& 0x07))⟩,
      ((n.more .fifoLevelReg 1).more .controlReg 1).more .fifoDataReg (fifoBytes (chip .fifoLevelReg (n .fifoLevelReg)))) := by
  unfold readAnswer
  rw [run_readRawRC_bind, run_readRawRC_bind, run_bind_of _ (run_readFifo chip _ _)]
  rfl

end Run

/-- The bytes that the chip says it has received in an exchange: `FIFOLevelReg` as `PcdComMF522` reads it,
after the read of `SetBitMask`. -/
def received (chip : Chip) : Nat := (chip .fifoLevelReg 1).toNat

/-- The valid bits of the last byte, zero for all. -/
def lastBits (chip : Chip) : UInt8 := chip .controlReg 0 &&& 0x07

/-- The loop polls `k` times: all polls but the last are quiet, and so is that one only when the
budget is spent. -/
structure PolledTo (chip : Chip) (k : Nat) : Prop where
  first : 1 ≤ k
  budget : k ≤ 1000
  before : ∀ j, 1 ≤ j → j < k → Quiet (chip .comIrqReg j)
  ends : k < 1000 → ¬ Quiet (chip .comIrqReg k)

theorem PolledTo.unique {chip : Chip} {j k : Nat} (hj : PolledTo chip j) (hk : PolledTo chip k) : j = k := by
  rcases Nat.lt_trichotomy j k with lt | same | gt
  · have inTime := Nat.lt_of_lt_of_le lt hk.budget
    exact absurd (hk.before j hj.first lt) (hj.ends inTime)
  · exact same
  · have inTime := Nat.lt_of_lt_of_le gt hj.budget
    exact absurd (hj.before k hk.first gt) (hk.ends inTime)

/-- The exchange succeeds: a poll ends in time, without the timer's bit, and `ErrorReg` shows no error. -/
def Succeeds (chip : Chip) : Prop :=
  ∃ k, PolledTo chip k ∧ k < 1000 ∧ chip .comIrqReg k &&& 0x01 = 0 ∧ chip .errorReg 0 &&& 0x1B = 0

/-- No register has been read. -/
def unread : ReadCounts := fun _ => 0

/-- The registers whose values an exchange depends on have not been read. -/
structure Unread (n : ReadCounts) : Prop where
  comIrqReg : n .comIrqReg = 0
  errorReg : n .errorReg = 0
  fifoDataReg : n .fifoDataReg = 0
  fifoLevelReg : n .fifoLevelReg = 0
  controlReg : n .controlReg = 0

/-- What an answered transceive leaves. -/
def answer (chip : Chip) (cStatus : UInt8) : Exchange :=
  ⟨cStatus, (List.range (fifoBytes (chip .fifoLevelReg 1))).map (chip .fifoDataReg),
    some (outLenBit (chip .fifoLevelReg 1) (lastBits chip))⟩

/-- What a transceive leaves after `k` polls. -/
def transceived (chip : Chip) (k : Nat) : Exchange :=
  if k < 1000 ∧ chip .errorReg 0 &&& 0x1B = 0 then answer chip (if chip .comIrqReg k &&& 0x01 ≠ 0 then miNotagerr else miOk)
  else ⟨miErr, [], none⟩

/-- The timer's bit through the mask of enabled interrupts. -/
theorem timer_bit (irq : UInt8) : irq &&& ucIrqEn pcdTransceive &&& 0x01 = irq &&& 0x01 := by
  rw [UInt8.and_assoc]
  rfl

/-- The block after the poll. -/
theorem run_readResult (chip : Chip) {n : ReadCounts} (error : n .errorReg = 0) (data : n .fifoDataReg = 0)
    (level : n .fifoLevelReg = 1) (control : n .controlReg = 0) (ucN : UInt8) (ul : Nat) :
    (run (rc522 chip) (readResult pcdTransceive ucN ul) n).1 =
        (if ul ≠ 0 ∧ chip .errorReg 0 &&& 0x1B = 0 then answer chip (if ucN &&& 0x01 ≠ 0 then miNotagerr else miOk)
          else ⟨miErr, [], none⟩) ∧
      (run (rc522 chip) (readResult pcdTransceive ucN ul) n).2 .comIrqReg = n .comIrqReg := by
  unfold readResult
  by_cases spent : ul = 0
  · rw [if_neg (not_not_intro spent), if_neg fun c => c.1 spent]
    exact ⟨rfl, rfl⟩
  · rw [if_pos spent, run_readRawRC_bind, error]
    by_cases errors : chip .errorReg 0 &&& 0x1B = 0
    · have answered : ul ≠ 0 ∧ chip .errorReg 0 &&& 0x1B = 0 := ⟨spent, errors⟩
      rw [if_pos errors, if_pos answered, timer_bit]
      simp only [if_true, run_readAnswer]
      simp [answer, lastBits, data, level, control]
    · rw [if_neg errors, if_neg fun c => errors c.2]
      exact ⟨rfl, by simp⟩

/-- `PcdComMF522` with `PCD_TRANSCEIVE`: the polls it makes and what it leaves. -/
theorem run_pcdComMF522 (chip : Chip) {n : ReadCounts} (start : Unread n) (pInData : List UInt8) :
    ∃ k, PolledTo chip k ∧
      (run (rc522 chip) (pcdComMF522 pcdTransceive pInData) n).2 .comIrqReg = k + 1 ∧
      (run (rc522 chip) (pcdComMF522 pcdTransceive pInData) n).1 = transceived chip k := by
  obtain ⟨irq, error, data, level, control⟩ := start
  set n' := ((n.more .comIrqReg 1).more .fifoLevelReg 1).more .bitFramingReg 1 with sent
  obtain ⟨k, le, polls, before, last⟩ := run_pollComIrq chip 999 n'
  have first : n' .comIrqReg = 1 := by simp [n', irq]
  rw [first] at polls before last
  change run (rc522 chip) (pollComIrq (ucWaitFor pcdTransceive) 999) n' = _ at polls
  refine ⟨1 + k, ⟨Nat.le_add_right 1 k, by omega, ?_, fun inTime => last (by omega)⟩, ?_⟩
  · intro j lower upper
    have quiet := before (j - 1) (by omega)
    rwa [Nat.add_sub_cancel' lower] at quiet
  have start : run (rc522 chip) (startSend pcdTransceive) ((n.more .comIrqReg 1).more .fifoLevelReg 1) = ((), n') := rfl
  obtain ⟨result, kept⟩ := run_readResult chip (n := (n'.more .comIrqReg (k + 1)).more .bitFramingReg 1) (by simp [n', error])
    (by simp [n', data]) (by simp [n', level]) (by simp [n', control]) (chip .comIrqReg (1 + k)) (999 - k)
  unfold pcdComMF522
  rw [run_writeRawRC_bind, run_clearBitMask_bind, run_writeRawRC_bind, run_setBitMask_bind, run_bind_of _ (run_writeFifo chip _ _),
    run_writeRawRC_bind, run_bind_of _ start, run_bind_of _ polls, run_clearBitMask_bind, run_bind, run_setBitMask_bind,
    run_writeRawRC_bind, run_pure]
  constructor
  · simp [kept, first]
    omega
  · show (run (rc522 chip) (readResult pcdTransceive _ _) _).1 = _
    rw [result, transceived]
    have budget : 999 - k ≠ 0 ↔ 1 + k < 1000 := by omega
    simp only [budget]

/-- Success is reported exactly for a successful exchange. -/
theorem transceived_ok_iff {chip : Chip} {k : Nat} (polled : PolledTo chip k) :
    (transceived chip k).cStatus = miOk ↔ Succeeds chip := by
  unfold transceived
  by_cases answered : k < 1000 ∧ chip .errorReg 0 &&& 0x1B = 0
  · rw [if_pos answered]
    by_cases timer : chip .comIrqReg k &&& 0x01 = 0
    · rw [if_neg (not_not_intro timer)]
      exact iff_of_true rfl ⟨k, polled, answered.1, timer, answered.2⟩
    · rw [if_pos timer]
      apply iff_of_false
      · show ¬ miNotagerr = miOk
        decide
      · rintro ⟨j, other, -, quiet, -⟩
        rw [other.unique polled] at quiet
        exact timer quiet
  · rw [if_neg answered]
    apply iff_of_false
    · show ¬ miErr = miOk
      decide
    · rintro ⟨j, other, inTime, -, errors⟩
      rw [other.unique polled] at inTime
      exact answered ⟨inTime, errors⟩

theorem transceived_of_ok {chip : Chip} {k : Nat} (ok : (transceived chip k).cStatus = miOk) : transceived chip k = answer chip miOk := by
  unfold transceived at ok ⊢
  by_cases answered : k < 1000 ∧ chip .errorReg 0 &&& 0x1B = 0
  · rw [if_pos answered] at ok ⊢
    rw [show (if chip .comIrqReg k &&& 0x01 ≠ 0 then miNotagerr else miOk) = miOk from ok]
  · rw [if_neg answered] at ok
    exact absurd ok (show ¬ miErr = miOk by decide)

/-- The bytes read: the level, but one for zero and 18 past it. -/
theorem answer_length (chip : Chip) (cStatus : UInt8) :
    (answer chip cStatus).pOutData.length = if received chip = 0 then 1 else min (received chip) 18 := by
  have zero : chip .fifoLevelReg 1 = 0 ↔ received chip = 0 := by
    unfold received
    rw [← UInt8.toNat_inj]
    rfl
  simp only [answer, List.length_map, List.length_range, fifoBytes, maxrlen, zero]
  split
  · rfl
  · split
    · rename_i more; exact (Nat.min_eq_right (Nat.le_of_lt more)).symm
    · rename_i fits; exact (Nat.min_eq_left (Nat.le_of_not_lt fits)).symm

/-- The length reported, rounded up to bytes: the level, but for an empty FIFO with a partial byte. -/
theorem outLenBit_bytes (level last : UInt8) (small : last.toNat < 8) :
    (outLenBit level last + 7) / 8 = if level.toNat = 0 ∧ last ≠ 0 then 536870912 else level.toNat := by
  have bound := level.toNat_lt
  have zero : last ≠ 0 ↔ last.toNat ≠ 0 := by
    rw [ne_eq, ← UInt8.toNat_inj]
    rfl
  unfold outLenBit uint32
  by_cases cut : last ≠ 0
  · have positive := zero.mp cut
    rw [if_pos cut]
    by_cases empty : level.toNat = 0
    · rw [if_pos ⟨empty, cut⟩, empty]
      omega
    · rw [if_neg fun c => empty c.1]
      omega
  · rw [if_neg cut, if_neg fun c => cut c.2]
    omega

theorem lastBits_lt (chip : Chip) : (lastBits chip).toNat < 8 := by
  unfold lastBits
  rw [UInt8.toNat_and]
  exact Nat.and_lt_two_pow (n := 3) _ (by decide)

/-- The contract of a transceive on a chip: at most 1000 polls (`ComIrqReg` is read once before them)
and 18 output bytes, success only without an error, in time and without the timer's bit, and then a
length that rounds up to the received bytes that were stored. -/
structure ExchangeContract (chip : Chip) (pInData : List UInt8) : Prop where
  polls : (run (rc522 chip) (pcdComMF522 pcdTransceive pInData) unread).2 .comIrqReg - 1 ≤ 1000
  stored : (run (rc522 chip) (pcdComMF522 pcdTransceive pInData) unread).1.pOutData.length ≤ maxrlen
  ok : (run (rc522 chip) (pcdComMF522 pcdTransceive pInData) unread).1.cStatus = miOk →
    chip .errorReg 0 &&& 0x1B = 0 ∧
      (run (rc522 chip) (pcdComMF522 pcdTransceive pInData) unread).2 .comIrqReg - 1 < 1000 ∧
      chip .comIrqReg ((run (rc522 chip) (pcdComMF522 pcdTransceive pInData) unread).2 .comIrqReg - 1) &&& 0x01 = 0
  length : (run (rc522 chip) (pcdComMF522 pcdTransceive pInData) unread).1.cStatus = miOk →
    ∃ bits, (run (rc522 chip) (pcdComMF522 pcdTransceive pInData) unread).1.pOutLenBit = some bits ∧
      (bits + 7) / 8 = min (received chip) (run (rc522 chip) (pcdComMF522 pcdTransceive pInData) unread).1.pOutData.length

theorem unread_unread : Unread unread := ⟨rfl, rfl, rfl, rfl, rfl⟩

/-- The length reported and the bytes stored agree for 1 to 18 bytes received, and for nothing at all. -/
theorem reported_eq_stored_iff (chip : Chip) (cStatus : UInt8) :
    (outLenBit (chip .fifoLevelReg 1) (lastBits chip) + 7) / 8 = min (received chip) (answer chip cStatus).pOutData.length ↔
      (1 ≤ received chip ∧ received chip ≤ maxrlen) ∨ (received chip = 0 ∧ lastBits chip = 0) := by
  rw [outLenBit_bytes _ _ (lastBits_lt chip), answer_length]
  change (if received chip = 0 ∧ lastBits chip ≠ 0 then 536870912 else received chip) = _ ↔ _
  unfold maxrlen
  by_cases empty : received chip = 0
  · by_cases whole : lastBits chip = 0
    · simp [empty, whole]
    · simp [empty, whole]
  · rw [if_neg fun c => empty c.1, if_neg empty]
    omega

/-- No answer is longer than the caller's buffer. -/
theorem transceived_length (chip : Chip) (k : Nat) : (transceived chip k).pOutData.length ≤ maxrlen := by
  unfold transceived
  split
  · rw [answer_length]
    unfold maxrlen
    split <;> omega
  · exact Nat.zero_le _

/-- **The contract holds exactly when** a successful exchange receives 1 to 18 bytes, or nothing at all. -/
theorem exchangeContract_iff (chip : Chip) (pInData : List UInt8) :
    ExchangeContract chip pInData ↔
      (Succeeds chip → (1 ≤ received chip ∧ received chip ≤ maxrlen) ∨ (received chip = 0 ∧ lastBits chip = 0)) := by
  obtain ⟨k, polled, polls, result⟩ := run_pcdComMF522 chip unread_unread pInData
  have budget := polled.budget
  constructor
  · intro contract success
    have ok := (transceived_ok_iff polled).mpr success
    obtain ⟨bits, reported, rounded⟩ := contract.length (by rw [result]; exact ok)
    rw [result, transceived_of_ok ok] at reported rounded
    obtain rfl := Option.some.inj reported
    exact (reported_eq_stored_iff chip miOk).mp rounded
  · intro fits
    refine ⟨?_, ?_, ?_, ?_⟩
    · rw [polls]
      omega
    · rw [result]
      exact transceived_length chip k
    · intro ok
      rw [result] at ok
      obtain ⟨j, other, inTime, timer, errors⟩ := (transceived_ok_iff polled).mp ok
      rw [other.unique polled] at inTime timer
      rw [polls, Nat.add_sub_cancel]
      exact ⟨errors, inTime, timer⟩
    · intro ok
      rw [result] at ok
      have success := (transceived_ok_iff polled).mp ok
      rw [result, transceived_of_ok ok]
      exact ⟨_, rfl, (reported_eq_stored_iff chip miOk).mpr (fits success)⟩

/-- A chip that answers at the first poll with a given FIFO level, and with zeros otherwise. -/
def answersWith (level : UInt8) : Chip
  | .comIrqReg, _ => 0x20
  | .fifoLevelReg, _ => level
  | _, _ => 0

/-- Nineteen bytes received: 152 bits are reported and 18 bytes stored. -/
theorem nineteen_bytes_reported :
    let r := (run (rc522 (answersWith 19)) (pcdComMF522 pcdTransceive [0x93, 0x20]) unread).1
    r.cStatus = miOk ∧ r.pOutLenBit = some 152 ∧ r.pOutData.length = 18 ∧ ¬ ExchangeContract (answersWith 19) [0x93, 0x20] := by
  intro r
  have known : r.cStatus = miOk ∧ r.pOutLenBit = some 152 ∧ r.pOutData.length = 18 := by decide
  obtain ⟨ok, bits, stored⟩ := known
  refine ⟨ok, bits, stored, fun contract => ?_⟩
  obtain ⟨n, reported, rounded⟩ := contract.length ok
  rw [show r.pOutLenBit = some 152 from bits] at reported
  obtain rfl := Option.some.inj reported
  change (152 + 7) / 8 = min 19 r.pOutData.length at rounded
  omega

end DoorSecurity
