import DoorSecurity.Reader.Exchange

/-!
# The anticollision's UID

`PcdAnticoll` takes the UID and its checksum from the front of its buffer, whatever
the exchange has stored there. It does not look at the length, so with fewer than
five bytes received it compares what an earlier call left on the stack.
-/

namespace DoorSecurity
set_option autoImplicit false
open Bus

/-- `PcdAnticoll`'s buffer after the exchange. -/
def anticollBuf (chip : Chip) (ucComMF522Buf : Nat → UInt8) : Nat → UInt8 :=
  storeAt (storeAt ucComMF522Buf [0x93, 0x20]) (answer chip miOk).pOutData

/-- The XOR of the first four bytes: `ucSnr_check`. -/
def snrCheck (b : Nat → UInt8) : UInt8 := 0 ^^^ b 0 ^^^ b 1 ^^^ b 2 ^^^ b 3

/-- `PcdAnticoll` on a chip: its checksum over the buffer, after a successful exchange only. -/
theorem run_pcdAnticoll (chip : Chip) (pSnr : Fin 4 → UInt8) :
    (Succeeds chip ∧ ∀ ucComMF522Buf, (run (rc522 chip) (pcdAnticoll ucComMF522Buf pSnr) unread).1 =
        (if snrCheck (anticollBuf chip ucComMF522Buf) ≠ anticollBuf chip ucComMF522Buf 4 then miErr else miOk,
          fun i => anticollBuf chip ucComMF522Buf i.val)) ∨
      (¬ Succeeds chip ∧ ∃ cStatus, cStatus ≠ miOk ∧
        ∀ ucComMF522Buf, (run (rc522 chip) (pcdAnticoll ucComMF522Buf pSnr) unread).1 = (cStatus, pSnr)) := by
  have start : Unread ((unread.more .status2Reg 1).more .collReg 1) := ⟨rfl, rfl, rfl, rfl, rfl⟩
  obtain ⟨k, polled, -, result⟩ := run_pcdComMF522 chip start [0x93, 0x20]
  have exchange : ∀ ucComMF522Buf : Nat → UInt8,
      (run (rc522 chip) (pcdComMF522 pcdTransceive [storeAt ucComMF522Buf [0x93, 0x20] 0, storeAt ucComMF522Buf [0x93, 0x20] 1])
        ((unread.more .status2Reg 1).more .collReg 1)).1 = transceived chip k := fun _ => result
  by_cases success : Succeeds chip
  · left
    refine ⟨success, fun buf => ?_⟩
    have ok := (transceived_ok_iff polled).mpr success
    unfold pcdAnticoll
    rw [run_clearBitMask_bind, run_writeRawRC_bind, run_clearBitMask_bind, run_bind, exchange, transceived_of_ok ok]
    rfl
  · right
    have failed : (transceived chip k).cStatus ≠ miOk := fun ok => success ((transceived_ok_iff polled).mp ok)
    refine ⟨success, (transceived chip k).cStatus, failed, fun buf => ?_⟩
    unfold pcdAnticoll
    rw [run_clearBitMask_bind, run_writeRawRC_bind, run_clearBitMask_bind, run_bind, exchange, if_neg failed]
    rfl

/-- What `Read_ID` relies on: the result depends on the chip alone, and a success means five received
bytes, the UID and its checksum. -/
structure AnticollSound (chip : Chip) (pSnr : Fin 4 → UInt8) : Prop where
  same : ∀ buf buf' : Nat → UInt8,
    (run (rc522 chip) (pcdAnticoll buf pSnr) unread).1 = (run (rc522 chip) (pcdAnticoll buf' pSnr) unread).1
  sound : ∀ buf : Nat → UInt8, (run (rc522 chip) (pcdAnticoll buf pSnr) unread).1.1 = miOk →
    5 ≤ received chip ∧
      (∀ i, (run (rc522 chip) (pcdAnticoll buf pSnr) unread).1.2 i = chip .fifoDataReg i.val) ∧
      chip .fifoDataReg 0 ^^^ chip .fifoDataReg 1 ^^^ chip .fifoDataReg 2 ^^^ chip .fifoDataReg 3 = chip .fifoDataReg 4

theorem anticollBuf_congr (chip : Chip) {buf buf' : Nat → UInt8} {k : Nat} (same : buf k = buf' k) :
    anticollBuf chip buf k = anticollBuf chip buf' k := by
  unfold anticollBuf storeAt
  rw [same]

/-- Received bytes replace the buffer's. -/
theorem anticollBuf_received {chip : Chip} (enough : 5 ≤ received chip) (buf : Nat → UInt8) {k : Nat} (small : k < 5) :
    anticollBuf chip buf k = chip .fifoDataReg k := by
  have length := answer_length chip miOk
  rw [if_neg (by omega)] at length
  unfold anticollBuf storeAt
  rw [List.getD_eq_getElem _ _ (by omega)]
  simp [answer]

/-- With fewer bytes the checksum is compared with the buffer's old fifth byte. -/
theorem anticollBuf_stale {chip : Chip} (few : received chip < 5) (buf : Nat → UInt8) : anticollBuf chip buf 4 = buf 4 := by
  have length := answer_length chip miOk
  unfold anticollBuf
  rw [storeAt, List.getD_eq_default _ _ (by split at length <;> omega)]
  rfl

/-- For any answer of fewer bytes there is an old buffer whose fifth byte is the checksum of the rest. -/
theorem exists_matching_buf {chip : Chip} (few : received chip < 5) :
    ∃ buf : Nat → UInt8, snrCheck (anticollBuf chip buf) = anticollBuf chip buf 4 := by
  let check := snrCheck (anticollBuf chip fun _ => 0)
  let buf : Nat → UInt8 := fun k => if k = 4 then check else 0
  have fifth : anticollBuf chip buf 4 = check := anticollBuf_stale few buf
  have front : ∀ k < 4, anticollBuf chip buf k = anticollBuf chip (fun _ => 0) k := fun k lt =>
    anticollBuf_congr chip (if_neg (by omega))
  refine ⟨buf, ?_⟩
  rw [fifth, snrCheck, front 0 (by omega), front 1 (by omega), front 2 (by omega), front 3 (by omega)]
  rfl

/-- Of five received bytes `PcdAnticoll` sees no older one. -/
theorem snrCheck_received {chip : Chip} (enough : 5 ≤ received chip) (buf : Nat → UInt8) :
    snrCheck (anticollBuf chip buf) = snrCheck (chip .fifoDataReg) := by
  simp only [snrCheck, anticollBuf_received enough buf (show 0 < 5 by omega), anticollBuf_received enough buf (show 1 < 5 by omega),
    anticollBuf_received enough buf (show 2 < 5 by omega), anticollBuf_received enough buf (show 3 < 5 by omega)]

/-- **The anticollision result is sound exactly when** a successful exchange receives five bytes. -/
theorem anticollSound_iff (chip : Chip) (pSnr : Fin 4 → UInt8) :
    AnticollSound chip pSnr ↔ (Succeeds chip → 5 ≤ received chip) := by
  rcases run_pcdAnticoll chip pSnr with ⟨success, result⟩ | ⟨failed, cStatus, notOk, result⟩
  · constructor
    · intro h _
      by_contra few
      obtain ⟨buf, matching⟩ := exists_matching_buf (Nat.lt_of_not_le few)
      apply few
      apply (h.sound buf _).1
      rw [result]
      exact if_neg (not_not_intro matching)
    · intro enough
      have five := enough success
      have uid : ∀ buf : Nat → UInt8, (run (rc522 chip) (pcdAnticoll buf pSnr) unread).1 =
          (if snrCheck (chip .fifoDataReg) ≠ chip .fifoDataReg 4 then miErr else miOk, fun i => chip .fifoDataReg i.val) := by
        intro buf
        have bytes : ∀ i : Fin 4, anticollBuf chip buf i.val = chip .fifoDataReg i.val := fun i =>
          anticollBuf_received five buf (by omega)
        rw [result, snrCheck_received five buf, anticollBuf_received five buf (show 4 < 5 by omega), funext bytes]
      refine ⟨fun buf buf' => ?_, fun buf ok => ?_⟩
      · rw [uid, uid]
      · rw [uid] at ok ⊢
        refine ⟨five, fun i => rfl, ?_⟩
        by_cases matching : snrCheck (chip .fifoDataReg) = chip .fifoDataReg 4
        · rwa [snrCheck, UInt8.zero_xor] at matching
        · rw [if_pos matching] at ok
          exact absurd ok (show ¬ miErr = miOk by decide)
  · constructor
    · intro _ success
      exact absurd success failed
    · intro _
      refine ⟨fun buf buf' => ?_, fun buf ok => ?_⟩
      · rw [result, result]
      · rw [result] at ok
        exact absurd ok notOk

/-- No byte received: the outcome is that of the buffer's old fifth byte. -/
theorem empty_answer_accepted :
    let buf : UInt8 → Nat → UInt8 := fun fifth k => if k = 4 then fifth else 0
    received (answersWith 0) = 0 ∧
      (run (rc522 (answersWith 0)) (pcdAnticoll (buf 0x20) 0) unread).1 = (miOk, ![0, 0x20, 0, 0]) ∧
      (run (rc522 (answersWith 0)) (pcdAnticoll (buf 0) 0) unread).1.1 = miErr ∧
      ¬ AnticollSound (answersWith 0) 0 := by
  intro buf
  have accepted : (run (rc522 (answersWith 0)) (pcdAnticoll (buf 0x20) 0) unread).1 = (miOk, ![0, 0x20, 0, 0]) := by decide
  refine ⟨rfl, accepted, by decide, fun sound => ?_⟩
  have received := (sound.sound (buf 0x20) (by rw [accepted])).1
  exact absurd received (by decide)

end DoorSecurity
