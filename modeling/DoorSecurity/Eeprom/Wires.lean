import DoorSecurity.Bus.Fault
import DoorSecurity.Bus.Lower
import DoorSecurity.Eeprom.Device
import DoorSecurity.Eeprom.Iic

/-!
# The EEPROM on its two wires (`bsp/24cxx.c`)

The driver's two transactions down to the pins, and the AT24C02 as its data sheet has
it: a part that takes its bytes bit by bit from the edges of the lines, acknowledges
its own select byte, programs at a stop and is busy after that. A call of the
driver makes of the part what one transaction makes of the memory and the part's
address counter (`wires_simulate_calls`), so the programs over the bus are programs over the
pins.
-/

namespace DoorSecurity
set_option autoImplicit false
open Bus Wire TwoWire

/-- `Delay_ms(10)`. -/
def delayMs10 : IicCode Unit := Prog.put .pause true

/-- `AT24CXX_ReadOneByte` for a part of up to 2 Kbytes (`EE_TYPE` is `AT24C02`). -/
def at24cxxReadPins (x : BusAddr) : IicCode UInt8 := do
  iicStart
  iicSendByte (UInt8.ofNat x.select)
  let _ ← iicWaitAck
  iicSendByte (UInt8.ofNat x.word)
  let _ ← iicWaitAck
  iicStart
  iicSendByte 0xA1
  let _ ← iicWaitAck
  let temp ← iicReadByte 0
  iicStop
  return temp

/-- `AT24CXX_WriteOneByte`, likewise. -/
def at24cxxWritePins (x : BusAddr) (dataToWrite : UInt8) : IicCode Unit := do
  iicStart
  iicSendByte (UInt8.ofNat x.select)
  let _ ← iicWaitAck
  iicSendByte (UInt8.ofNat x.word)
  let _ ← iicWaitAck
  iicSendByte dataToWrite
  let _ ← iicWaitAck
  iicStop
  delayMs10

def at24cxxPins : Driver BusAddr UInt8 Pin Bool := ⟨at24cxxReadPins, at24cxxWritePins⟩

/-- The bytes that the part takes. -/
inductive Field where
  | select
  | word
  | data
deriving DecidableEq

/-- What the part does between two edges: wait for a start, take a byte, acknowledge one
and then take the next or give its own, give a byte, hear the master's acknowledge. -/
inductive PartPhase where
  | standby
  | take (field : Field) (bits : List Bool)
  | ack (next : Option Field)
  | give (bits : List Bool)
  | listen (more : Bool)

/-- The part: its memory, its address counter, the bytes that wait for the stop. `awake` is
whether it answers at all, `busy` whether it is programming. -/
structure At24c02 where
  mem : Eeprom
  pointer : UInt8
  page : List (UInt8 × UInt8)
  phase : PartPhase
  awake : Bool
  busy : Bool

namespace At24c02

/-- The counter after a written byte stays in the page of eight bytes. -/
def pageNext (p : UInt8) : UInt8 := (p &&& 0xF8) ||| ((p + 1) &&& 0x07)

/-- A byte is complete. -/
def taken (d : At24c02) (b : UInt8) : Field → At24c02
  | .select => { d with phase := if b = 0xA0 then .ack (some .word) else if b = 0xA1 then .ack none else .standby }
  | .word => { d with pointer := b, phase := .ack (some .data) }
  | .data => { d with page := d.page ++ [(d.pointer, b)], pointer := pageNext d.pointer, phase := .ack (some .data) }

/-- The byte at the counter is given next. -/
def load (d : At24c02) : At24c02 := { d with pointer := d.pointer + 1, phase := .give (byteBits (d.mem.get d.pointer.toNat)) }

/-- Only the stop that follows an acknowledged data byte programs; its own clock has put one bit in. -/
def stopped (d : At24c02) : At24c02 :=
  match d.phase with
  | .take .data [_] =>
    { d with mem := d.page.foldl (fun m w => m.set w.1.toNat w.2) d.mem, page := [], phase := .standby, busy := !d.page.isEmpty }
  | _ => { d with page := [], phase := .standby }

def fell (d : At24c02) : At24c02 :=
  match d.phase with
  | .standby => d
  | .take f bits => if bits.length = 8 then d.taken (byteOf bits) f else d
  | .ack (some f) => { d with phase := .take f [] }
  | .ack none => d.load
  | .give (_ :: b :: bits) => { d with phase := .give (b :: bits) }
  | .give _ => { d with phase := .listen false }
  | .listen more => if more then d.load else { d with phase := .standby }

def rose (d : At24c02) (bit : Bool) : At24c02 :=
  match d.phase with
  | .take f bits => { d with phase := .take f (bits ++ [bit]) }
  | .listen _ => { d with phase := .listen !bit }
  | _ => d

/-- The data sheet's part. -/
def part : TwoWireChip At24c02 where
  releases d :=
    match d.phase with
    | .ack _ => false
    | .give (b :: _) => b
    | _ => true
  hear d e :=
    match e with
    | .start => { d with page := [], phase := if d.awake && !d.busy then .take .select [] else .standby }
    | .stop => d.stopped
    | .rise bit => d.rose bit
    | .fall => d.fell
    | .pause => { d with busy := false }

/-- The part between two calls. -/
def resting (awake : Bool) (m : Eeprom) (p : UInt8) : At24c02 := ⟨m, p, [], .standby, awake, false⟩

variable {d : At24c02} {o s : Bool} {f : Field} {m : Eeprom} {p : UInt8}

theorem silent_of_standby (phase : d.phase = .standby) (page : d.page = []) : Silent part d := by
  obtain ⟨mem, pointer, _, _, awake, busy⟩ := d
  subst phase page
  exact ⟨rfl, fun _ => rfl, rfl, rfl⟩

theorem silent_resting {awake : Bool} : Silent part (resting awake m p) := silent_of_standby rfl rfl

/-- The bits of a byte so far, or the whole byte. -/
theorem feed_take (phase : d.phase = .take f []) (bits : List Bool) :
    (bits.length < 8 → feed part d bits = { d with phase := .take f bits }) ∧
      (bits.length = 8 → feed part d bits = d.taken (byteOf bits) f) := by
  induction bits using List.reverseRecOn with
  | nil =>
    constructor
    · intro _
      rw [← phase]
      rfl
    · intro h
      contradiction
  | append_singleton bits b ih =>
    rw [List.length_append, List.length_singleton, feed_append]
    have clocked : bits.length < 8 →
        part.hear (part.hear (feed part d bits) (.rise b)) .fall =
          if (bits ++ [b]).length = 8 then ({ d with phase := .take f (bits ++ [b]) } : At24c02).taken (byteOf (bits ++ [b])) f
          else { d with phase := .take f (bits ++ [b]) } := by
      intro short
      rw [ih.1 short]
      rfl
    constructor
    · intro short
      rw [clocked (by omega), if_neg (by simp; omega)]
    · intro whole
      rw [clocked (by omega), if_pos (by simpa using whole)]
      cases f <;> rfl

/-- A byte sent to a part that takes one. -/
theorem run_send (phase : d.phase = .take f []) (txd : UInt8) :
    ∃ s', run (bus part) (iicSendByte txd) ⟨o, s, false, d⟩ = ((), ⟨true, s', false, d.taken txd f⟩) := by
  have free : ∀ bits, bits.length < 8 → part.releases (feed part d bits) = true := by
    intro bits short
    rw [(feed_take phase bits).1 short]
    rfl
  obtain ⟨s', final⟩ := run_iicSendByte (c := part) (d := d) (w := ⟨o, s, false, d⟩) rfl free txd
  rw [(feed_take phase _).2 (length_byteBits txd), byteOf_byteBits] at final
  exact ⟨s', Prod.ext rfl final⟩

/-- A byte that the part acknowledges. -/
theorem run_send_acked {α : Type} (phase : d.phase = .take f []) {txd : UInt8} {next : Option Field} (acks : (d.taken txd f).phase = .ack next)
    (k : UInt8 → IicCode α) : run (bus part) (iicSendByte txd >>= fun _ => iicWaitAck >>= k) ⟨o, s, false, d⟩ =
      run (bus part) (k 0) ⟨false, true, false, (d.taken txd f).fell⟩ := by
  obtain ⟨s', sent⟩ := run_send (o := o) (s := s) phase txd
  have pulls : part.releases (d.taken txd f) = false := by simp only [part, acks]
  have still : ∀ b, part.hear (d.taken txd f) (.rise b) = d.taken txd f := by
    intro b
    simp only [part, rose, acks]
  rw [run_bind_of _ sent, run_bind_of _ (run_iicWaitAck_pulled (by rw [still, pulls])), still]
  rfl

/-- A select byte of another part. -/
theorem run_send_refused {α : Type} (phase : d.phase = .take .select []) (page : d.page = []) {txd : UInt8} (other : txd ≠ 0xA0 ∧ txd ≠ 0xA1)
    (k : UInt8 → IicCode α) : run (bus part) (iicSendByte txd >>= fun _ => iicWaitAck >>= k) ⟨o, s, false, d⟩ =
      run (bus part) (k 1) (atRest { d with phase := .standby }) := by
  obtain ⟨s', sent⟩ := run_send (o := o) (s := s) phase txd
  have refused : d.taken txd .select = { d with phase := .standby } := by
    rw [taken, if_neg other.1, if_neg other.2]
  have silent : Silent part (d.taken txd .select) := by
    rw [refused]
    exact silent_of_standby rfl page
  rw [run_bind_of _ sent, run_bind_of _ (silent.waitAck (.inl ⟨true, s', rfl⟩)), refused]

/-- The part with the byte at its counter on the line, these bits of it to go. -/
def giving (d : At24c02) (bits : List Bool) : At24c02 := { d with pointer := d.pointer + 1, phase := .give bits }

/-- From a repeated start to the stop: the byte at the counter. -/
theorem run_readTail (phase : d.phase = .take .select []) (page : d.page = []) :
    run (bus part) (do
      iicSendByte 0xA1
      let _ ← iicWaitAck
      let temp ← iicReadByte 0
      iicStop
      return temp) ⟨o, s, false, d⟩ =
      (d.mem.get d.pointer.toNat, atRest { d with pointer := d.pointer + 1, phase := .standby }) := by
  rw [run_send_acked phase (show (d.taken 0xA1 .select).phase = .ack none from rfl)]
  generalize byte : d.mem.get d.pointer.toNat = b
  obtain ⟨s', last, sampled⟩ : ∃ s' last, run (bus part) (shiftIn receivePush sampleBit 8 0) ⟨false, true, false, d.giving (byteBits b)⟩ =
      (b, ⟨false, s', true, d.giving [last]⟩) :=
    run_shiftIn_showing (fun _ _ => rfl) (fun _ _ => rfl) (fun _ _ _ => rfl) b
  have acked : d.taken 0xA1 .select = { d with phase := .ack none } := rfl
  have loaded : ({ d with phase := .ack none } : At24c02).fell = d.giving (byteBits b) := by
    rw [← byte]
    rfl
  rw [acked, loaded]
  have silent : Silent part { d with pointer := d.pointer + 1, phase := .standby } := silent_of_standby rfl page
  have turned : run (bus part) sdaIn ⟨false, true, false, d.giving (byteBits b)⟩ = ((), ⟨false, true, false, d.giving (byteBits b)⟩) := rfl
  have read : run (bus part) (iicReadByte 0) ⟨false, true, false, d.giving (byteBits b)⟩ =
      (b, ⟨true, true, false, { d with pointer := d.pointer + 1, phase := .standby }⟩) :=
    run_iicReadByte turned sampled (show { d with pointer := d.pointer + 1, phase := .listen false } = part.hear (d.giving [last]) .fall from rfl)
  rw [run_bind_of _ read, run_bind_of _ (silent.stopped (.inl ⟨true, true, rfl⟩))]
  rfl

/-- What one call makes of the memory and the counter, on a part that answers. -/
def callRead (x : BusAddr) (m : Eeprom) (p : UInt8) : UInt8 × Eeprom × UInt8 :=
  if x.select = 0xA0 then (m.get x.word, m, UInt8.ofNat x.word + 1) else (m.get p.toNat, m, p + 1)

def callWrite (x : BusAddr) (v : UInt8) (m : Eeprom) (p : UInt8) : Eeprom × UInt8 :=
  if x.select = 0xA0 then (m.set x.word v, pageNext (UInt8.ofNat x.word)) else (m, p)

/-- An address that the driver can put on the bus: an even select byte and a byte. -/
def OnBus (x : BusAddr) : Prop := x.select < 256 ∧ x.select % 2 = 0 ∧ x.word < 256

theorem onBus_busAddr (a : Nat) : OnBus (busAddr a) := by
  unfold OnBus busAddr
  simp only
  omega

theorem run_start (a : Bool) : run (bus part) iicStart (atRest (resting a m p)) =
    ((), ⟨true, false, false, { resting a m p with phase := if a then .take .select [] else .standby }⟩) := by
  rw [atRest, run_iicStart_high rfl]
  cases a <;> rfl

/-- No other select byte on the bus is one that the part answers. -/
theorem refused_of_onBus {x : BusAddr} (onBus : OnBus x) (other : x.select ≠ 0xA0) :
    UInt8.ofNat x.select ≠ 0xA0 ∧ UInt8.ofNat x.select ≠ 0xA1 := by
  obtain ⟨small, even, -⟩ := onBus
  constructor <;> intro same <;> have value := congrArg UInt8.toNat same <;> simp at value <;> omega

theorem Eeprom.set_ofNat (w : Nat) (v : UInt8) : m.set (UInt8.ofNat w).toNat v = m.set w v := by
  have same : Fin.ofNat 256 (UInt8.ofNat w).toNat = Fin.ofNat 256 w := by
    apply Fin.ext
    simp
  rw [Eeprom.set, same, Eeprom.set]

theorem Eeprom.get_ofNat (w : Nat) : m.get (UInt8.ofNat w).toNat = m.get w := by
  have same : Fin.ofNat 256 (UInt8.ofNat w).toNat = Fin.ofNat 256 w := by
    apply Fin.ext
    simp
  rw [Eeprom.get, same, Eeprom.get]

section Addressed

variable {α : Type} {x : BusAddr}

/-- The start, the select byte and the word address, with which both transactions begin. -/
def address (x : BusAddr) (k : UInt8 → IicCode α) : IicCode α := do
  iicStart
  iicSendByte (UInt8.ofNat x.select)
  let _ ← iicWaitAck
  iicSendByte (UInt8.ofNat x.word)
  let ack ← iicWaitAck
  k ack

theorem writePins_eq (x : BusAddr) (v : UInt8) :
    at24cxxWritePins x v = address x fun _ => iicSendByte v >>= fun _ => iicWaitAck >>= fun _ => iicStop >>= fun _ => delayMs10 := rfl

theorem readPins_eq (x : BusAddr) : at24cxxReadPins x = address x fun _ => iicStart >>= fun _ => do
    iicSendByte 0xA1
    let _ ← iicWaitAck
    let temp ← iicReadByte 0
    iicStop
    return temp := rfl

/-- The part's own select byte: the counter is set, and the part takes data. -/
theorem run_address_own (own : x.select = 0xA0) (k : UInt8 → IicCode α) :
    run (bus part) (address x k) (atRest (resting true m p)) =
      run (bus part) (k 0) ⟨false, true, false, { resting true m (UInt8.ofNat x.word) with phase := .take .data [] }⟩ := by
  have selected : ({ resting true m p with phase := .take .select [] } : At24c02).taken (UInt8.ofNat 0xA0) .select =
    { resting true m p with phase := .ack (some .word) } := rfl
  rw [address, run_bind_of _ (run_start true), if_pos rfl, own, run_send_acked rfl (by rw [selected]), selected]
  exact run_send_acked rfl (show (At24c02.taken _ _ .word).phase = .ack (some .data) from rfl) k

/-- Another part's: nothing is answered. -/
theorem run_address_other (onBus : OnBus x) (other : x.select ≠ 0xA0) (k : UInt8 → IicCode α) :
    run (bus part) (address x k) (atRest (resting true m p)) = run (bus part) (k 1) (atRest (resting true m p)) := by
  have silent : Silent part (resting true m p) := silent_resting
  rw [address, run_bind_of _ (run_start true), if_pos rfl, run_send_refused rfl rfl (refused_of_onBus onBus other)]
  exact silent.sendAck (unanswered_atRest _) _ k

/-- A part that does not answer at all. -/
theorem run_address_deaf (k : UInt8 → IicCode α) :
    run (bus part) (address x k) (atRest (resting false m p)) = run (bus part) (k 1) (atRest (resting false m p)) := by
  have silent : Silent part (resting false m p) := silent_resting
  have started : Unanswered (resting false m p) ⟨true, false, false, resting false m p⟩ := .inl ⟨true, false, rfl⟩
  rw [address, run_bind_of _ (run_start false), if_neg (by decide)]
  rw [show ({ resting false m p with phase := .standby } : At24c02) = resting false m p from rfl, silent.sendAck started]
  exact silent.sendAck (unanswered_atRest _) _ k

end Addressed

theorem run_writePins_awake {x : BusAddr} (onBus : OnBus x) (v : UInt8) :
    run (bus part) (at24cxxWritePins x v) (atRest (resting true m p)) =
      ((), atRest (resting true (callWrite x v m p).1 (callWrite x v m p).2)) := by
  rw [writePins_eq, callWrite]
  by_cases own : x.select = 0xA0
  · rw [run_address_own own, run_send_acked rfl (show (At24c02.taken _ _ .data).phase = .ack (some .data) from rfl), if_pos own]
    rw [run_bind_of _ (run_iicStop_low rfl), delayMs10, run_put, ← Eeprom.set_ofNat]
    rfl
  · have silent : Silent part (resting true m p) := silent_resting
    rw [run_address_other onBus own, silent.sendAck (unanswered_atRest _), if_neg own, run_bind_of _ (silent.stopped (unanswered_atRest _))]
    rfl

theorem run_readPins_awake {x : BusAddr} (onBus : OnBus x) :
    run (bus part) (at24cxxReadPins x) (atRest (resting true m p)) =
      ((callRead x m p).1, atRest (resting true (callRead x m p).2.1 (callRead x m p).2.2)) := by
  rw [readPins_eq, callRead]
  by_cases own : x.select = 0xA0
  · have restarted : run (bus part) iicStart ⟨false, true, false, { resting true m (UInt8.ofNat x.word) with phase := .take .data [] }⟩ =
        ((), ⟨true, false, false, { resting true m (UInt8.ofNat x.word) with phase := .take .select [] }⟩) := run_iicStart_low rfl rfl
    rw [run_address_own own, run_bind_of _ restarted, run_readTail rfl rfl, if_pos own, ← Eeprom.get_ofNat x.word]
    rfl
  · rw [run_address_other onBus own, run_bind_of _ (run_start true), if_pos rfl, run_readTail rfl rfl, if_neg own]
    rfl

theorem run_writePins_deaf (x : BusAddr) (v : UInt8) :
    run (bus part) (at24cxxWritePins x v) (atRest (resting false m p)) = ((), atRest (resting false m p)) := by
  have silent : Silent part (resting false m p) := silent_resting
  rw [writePins_eq, run_address_deaf, silent.sendAck (unanswered_atRest _), run_bind_of _ (silent.stopped (unanswered_atRest _))]
  rfl

theorem run_readPins_deaf (x : BusAddr) :
    run (bus part) (at24cxxReadPins x) (atRest (resting false m p)) = (0xFF, atRest (resting false m p)) := by
  have silent : Silent part (resting false m p) := silent_resting
  have started : Unanswered (resting false m p) ⟨true, false, false, resting false m p⟩ := .inl ⟨true, false, rfl⟩
  rw [readPins_eq, run_address_deaf, run_bind_of _ (run_start false), if_neg (by decide)]
  rw [show ({ resting false m p with phase := .standby } : At24c02) = resting false m p from rfl, silent.sendAck started,
    run_bind_of _ (silent.readByte (unanswered_atRest _)), run_bind_of _ (silent.stopped (.inl ⟨true, true, rfl⟩))]
  rfl

end At24c02

open At24c02

variable {α : Type}

/-- The part answers from here on, or does not. -/
def answering (a : Bool) (w : TwoWire At24c02) : TwoWire At24c02 := { w with chip := { w.chip with awake := a } }

/-- The calls of the driver on the wires; the part answers in the calls `ack`. -/
def wired (ack : Nat → Bool) : Handler (Nat × TwoWire At24c02) BusAddr UInt8 where
  read x t :=
    let r := run (bus part) (at24cxxReadPins x) (answering (ack t.1) t.2)
    (r.1, (t.1 + 1, r.2))
  write x v t := (t.1 + 1, (run (bus part) (at24cxxWritePins x v) (answering (ack t.1) t.2)).2)

/-- The calls as transactions on the memory and the address counter. -/
def calls (ack : Nat → Bool) : Handler (Nat × Eeprom × UInt8) BusAddr UInt8 where
  read x u := if ack u.1 then ((callRead x u.2.1 u.2.2).1, (u.1 + 1, (callRead x u.2.1 u.2.2).2)) else (0xFF, (u.1 + 1, u.2))
  write x v u := (u.1 + 1, if ack u.1 then callWrite x v u.2.1 u.2.2 else u.2)

/-- Both lines are high, and the part waits with this memory and counter. -/
def Rests (u : Nat × Eeprom × UInt8) (t : Nat × TwoWire At24c02) : Prop :=
  ∃ awake, t = (u.1, atRest (resting awake u.2.1 u.2.2))

/-- **One call on the wires is one transaction.** -/
theorem wires_simulate_calls (ack : Nat → Bool) : Simulates (wired ack) (calls ack) (fun _ a => OnBus a.addr) Rests where
  read {x t u} rests onBus := by
    obtain ⟨n, m, p⟩ := u
    obtain ⟨awake, rfl⟩ := rests
    have woken : answering (ack n) (atRest (resting awake m p)) = atRest (resting (ack n) m p) := rfl
    simp only [wired, calls, woken]
    cases ack n with
    | false =>
      rw [run_readPins_deaf]
      exact ⟨rfl, false, rfl⟩
    | true =>
      rw [run_readPins_awake (show OnBus x from onBus)]
      exact ⟨rfl, true, rfl⟩
  write {x v t u} rests onBus := by
    obtain ⟨n, m, p⟩ := u
    obtain ⟨awake, rfl⟩ := rests
    have woken : answering (ack n) (atRest (resting awake m p)) = atRest (resting (ack n) m p) := rfl
    simp only [wired, calls, woken]
    cases ack n with
    | false =>
      rw [run_writePins_deaf]
      exact ⟨false, rfl⟩
    | true =>
      rw [run_writePins_awake (show OnBus x from onBus)]
      exact ⟨true, rfl⟩

/-- **Every program over the bus runs on the wires as on the calls**, whichever calls the part
answers, and leaves the bus at rest. -/
theorem run_wired (ack : Nat → Bool) {prog : Code α} (confined : prog.Confined fun a => OnBus a.addr) {u : Nat × Eeprom × UInt8}
    {t : Nat × TwoWire At24c02} (rests : Rests u t) :
    (run (wired ack) prog t).1 = (run (calls ack) prog u).1 ∧ Rests (run (calls ack) prog u).2 (run (wired ack) prog t).2 :=
  (wires_simulate_calls ack).run prog rests (confined.within (fun _ _ onBus => onBus) u)

/-- A byte copied in the part, and a call that it does not answer. -/
theorem run_wired_copy :
    let prog : Code UInt8 := do
      let b ← at24cxxReadOneByte 7
      at24cxxWriteOneByte 9 b
      at24cxxReadOneByte 300
    (run (wired fun n => n ≠ 2) prog (0, atRest (resting true (Eeprom.blank.set 7 0x5A) 0))).1 = 0xFF := by
  intro prog
  have confined : prog.Confined fun a => OnBus a.addr := ⟨onBus_busAddr 7, fun _ => ⟨onBus_busAddr 9, onBus_busAddr 300, fun _ => trivial⟩⟩
  exact (run_wired (fun n => n ≠ 2) confined (u := (0, Eeprom.blank.set 7 0x5A, 0)) ⟨true, rfl⟩).1.trans rfl

/-- An answered read is one of the part's own addresses. -/
def InPart (ack : Nat → Bool) (u : Nat × Eeprom) (a : Request BusAddr) : Prop :=
  OnBus a.addr ∧ ∀ x, a = .read x → ack u.1 = true → x.select = 0xA0

/-- A read outside the part would answer the byte at the counter; all others are those of the
memory on a bus that drops the calls. -/
theorem calls_simulate_flaky (ack : Nat → Bool) :
    Simulates (calls ack) (at24c02.flaky ack 0xFF) (InPart ack) fun u t => (t.1, t.2.1) = u where
  read {x t u} same inPart := by
    obtain ⟨n, m, p⟩ := t
    subst same
    simp only [calls, Device.flaky]
    cases answers : ack n with
    | false => exact ⟨rfl, rfl⟩
    | true =>
      have own : x.select = 0xA0 := inPart.2 x rfl answers
      simp only [callRead, at24c02, own, if_true, and_self]
  write {x v t u} same inPart := by
    obtain ⟨n, m, p⟩ := t
    subst same
    simp only [calls, Device.flaky]
    cases answers : ack n with
    | false => rfl
    | true =>
      by_cases own : x.select = 0xA0
      · simp only [callWrite, at24c02, own, if_true]
      · simp only [callWrite, at24c02, own, if_false, if_true]

/-- **The bus that drops calls** is the wires with a part that does not answer. -/
theorem wires_simulate_flaky (ack : Nat → Bool) :
    Simulates (wired ack) (at24c02.flaky ack 0xFF) (InPart ack) fun u t => ∃ v, (v.1, v.2.1) = u ∧ Rests v t :=
  (wires_simulate_calls ack).trans (calls_simulate_flaky ack) fun _ inPart => inPart.1

/-- Where every call is answered. -/
def inPart (a : Request BusAddr) : Prop := OnBus a.addr ∧ ∀ x, a = .read x → x.select = 0xA0

/-- The memory on the wires between two calls. -/
def OnWires (m : Eeprom) (w : TwoWire At24c02) : Prop := ∃ p, w = atRest (resting true m p)

theorem wires_simulate_memory : Simulates ((bus part).drive at24cxxPins) at24c02.direct (fun _ => inPart) OnWires where
  read {x w m} onWires inside := by
    obtain ⟨p, rfl⟩ := onWires
    have own : x.select = 0xA0 := inside.2 x rfl
    have call := run_readPins_awake (m := m) (p := p) (show OnBus x from inside.1)
    simp only [callRead, own, if_true] at call
    simp only [Handler.drive, at24cxxPins, call, Device.direct, at24c02, own, if_true, true_and]
    exact ⟨_, rfl⟩
  write {x v w m} onWires inside := by
    obtain ⟨p, rfl⟩ := onWires
    have call := run_writePins_awake (m := m) (p := p) (show OnBus x from inside.1) v
    simp only [Handler.drive, at24cxxPins, call, Device.direct, at24c02, callWrite]
    by_cases own : x.select = 0xA0
    · simp only [own, if_true]
      exact ⟨_, rfl⟩
    · simp only [own, if_false]
      exact ⟨_, rfl⟩

/-- **A program run on the pins** leaves the memory that its transactions do, both lines high. -/
theorem run_pins {prog : Code α} {m : Eeprom} {w : TwoWire At24c02} (onWires : OnWires m w)
    (within : at24c02.direct.Within (fun _ => inPart) prog m) :
    (run (bus part) (prog.lower at24cxxPins) w).1 = (at24c02.exec prog m).1 ∧
      OnWires (at24c02.exec prog m).2 (run (bus part) (prog.lower at24cxxPins) w).2 := by
  rw [run_lower]
  exact wires_simulate_memory.run prog onWires within

end DoorSecurity
