import DoorSecurity.Clock.Display
import DoorSecurity.Reader.Spi
import DoorSecurity.Tags.Functions
import DoorSecurity.Threads.Control

/-!
# `Read_ID` down to the lines

`PcdRequest` and `Read_ID` over the chip's register numbers, of which
`TxControlReg` is one that the exchange itself does not use. Along the graph that the threads'
model gives `Read_ID`, the call at each point is run on the chip as the one before left it, and
the label has to tell what that call returned and stored. On any chip `Read_ID` returns and
leaves what such a path ends with, and there is no other (`readId_follows_graph`).
-/

namespace DoorSecurity
set_option autoImplicit false
open Bus Wire Serial

/-- The numbers of the registers (`rc522_config.h`). -/
def Reg.number : Reg → Fin 64
  | .commandReg => 0x01
  | .comIEnReg => 0x02
  | .comIrqReg => 0x04
  | .errorReg => 0x06
  | .status2Reg => 0x08
  | .fifoDataReg => 0x09
  | .fifoLevelReg => 0x0A
  | .controlReg => 0x0C
  | .bitFramingReg => 0x0D
  | .collReg => 0x0E

def txControlReg : Fin 64 := 0x14

/-- The registers by their numbers. -/
def byNumber : Driver Reg UInt8 (Fin 64) UInt8 := ⟨fun r => Prog.get r.number, fun r v => Prog.put r.number v⟩

def piccReqall : UInt8 := 0x52

/-- `PcdRequest`, on the initial content of `ucComMF522Buf` and of `pTagType`. `ulLen` has been
written when the exchange reports `MI_OK`. -/
def pcdRequest (ucReqCode : UInt8) (ucComMF522Buf : Nat → UInt8) (pTagType : TagId) : RegCode (UInt8 × TagId) := do
  (clearBitMask .status2Reg 0x08).lower byNumber
  (writeRawRC .bitFramingReg 0x07).lower byNumber
  let ucTemp ← Prog.get txControlReg
  Prog.put txControlReg (ucTemp ||| 0x03)
  let ucComMF522Buf := storeAt ucComMF522Buf [ucReqCode]
  let r ← (pcdComMF522 pcdTransceive [ucComMF522Buf 0]).lower byNumber
  let ucComMF522Buf := storeAt ucComMF522Buf r.pOutData
  if r.cStatus = miOk ∧ r.pOutLenBit = some 0x10 then
    return (miOk, Function.update (Function.update pTagType 0 (ucComMF522Buf 0)) 1 (ucComMF522Buf 1))
  else return (miErr, pTagType)

/-- The two tries of `Read_ID`. -/
def requestTwice (stack : ReadPc → Nat → UInt8) (ucArrayId : TagId) : RegCode (UInt8 × TagId) := do
  let r ← pcdRequest piccReqall (stack .request) ucArrayId
  if r.1 ≠ miOk then pcdRequest piccReqall (stack .requestAgain) r.2 else return r

/-- The `sprintf` to `cStr`, an array of 30. -/
def sprintfCardId (ucArrayId : TagId) : Written :=
  ⟨30, "The Card ID is: ".toList ++ idString ucArrayId ++ "       ".toList ++ [Char.ofNat 0]⟩

/-- What `Read_ID` returns and leaves in `ucArray_ID`, and what its `sprintf` wrote if it came to it. -/
structure ReadIdResult where
  ucStatusReturn : UInt8
  ucArrayId : TagId
  cStr : Option Written

/-- `Read_ID`. `stack` is what each call finds in its buffer. -/
def readId (stack : ReadPc → Nat → UInt8) (ucArrayId : TagId) : RegCode ReadIdResult := do
  let r ← requestTwice stack ucArrayId
  if r.1 = miOk then do
    let r ← (pcdAnticoll (stack .anticoll) r.2).lower byNumber
    if r.1 = miOk then return ⟨miOk, r.2, some (sprintfCardId r.2)⟩ else return ⟨miErr, r.2, none⟩
  else return ⟨miNotagerr, r.2, none⟩

section Paths

/-- The call that `Read_ID` makes at a point. -/
def ReadPc.call (stack : ReadPc → Nat → UInt8) (ucArrayId : TagId) : ReadPc → RegCode (UInt8 × TagId)
  | .request => pcdRequest piccReqall (stack .request) ucArrayId
  | .requestAgain => pcdRequest piccReqall (stack .requestAgain) ucArrayId
  | .anticoll => (pcdAnticoll (stack .anticoll) ucArrayId).lower byNumber

/-- The label is that of a call which returned `cStatus`. -/
def Label.Tells (cStatus : UInt8) : Label → Prop
  | .pcdRequest tagType => tagType.isSome = true ↔ cStatus = miOk
  | .pcdAnticoll _ ok => ok = true ↔ cStatus = miOk
  | _ => False

/-- What `Read_ID` returns after its last call. -/
def Label.returns : Label → UInt8
  | .pcdAnticoll _ ok => if ok then miOk else miErr
  | _ => miNotagerr

variable {σ : Type} (H : Handler σ (Fin 64) UInt8) (stack : ReadPc → Nat → UInt8)

/-- The call at `p`, on `ucArray_ID` and the chip as they are, returns and stores what the label says. -/
structure Calls (p : ReadPc) (l : Label) (x x' : TagId × σ) : Prop where
  runs : ∃ cStatus, run H (p.call stack x.1) x.2 = ((cStatus, x'.1), x'.2) ∧ l.Tells cStatus
  stores : ∀ value, l.effect ⟨value, x.1⟩ ⟨value, x'.1⟩

/-- A path of `Read_ID`'s graph to its end, call by call; with the card read, if any, and the value returned. -/
inductive CallPath : ReadPc → TagId × σ → Option TagId → UInt8 → TagId × σ → Prop
  | finish {p l out x x'} (edge : ReadStep p l (.inr out)) (call : Calls H stack p l x x') : CallPath p x out l.returns x'
  | next {p l p' x x' out r x''} (edge : ReadStep p l (.inl p')) (call : Calls H stack p l x x') (rest : CallPath p' x' out r x'') :
      CallPath p x out r x''

variable {H stack} {id : TagId} {s : σ} {out : Option TagId} {status : UInt8} {x x' : TagId × σ} {p : ReadPc} {l : Label}
  {r : (UInt8 × TagId) × σ}

/-- `PcdRequest` stores two bytes or none. -/
theorem pcdRequest_yields (ucReqCode : UInt8) (buf : Nat → UInt8) (id : TagId) :
    (pcdRequest ucReqCode buf id).Yields fun r =>
      (∃ b0 b1, r = (miOk, Function.update (Function.update id 0 b0) 1 b1)) ∨ r = (miErr, id) := by
  refine Prog.yields_bind _ fun _ => Prog.yields_bind _ fun _ => Prog.yields_bind _ fun _ => Prog.yields_bind _ fun _ =>
    Prog.yields_bind _ fun r => ?_
  split
  · exact .inl ⟨_, _, rfl⟩
  · exact .inr rfl

/-- The state after a call, and the status that its label tells. -/
theorem Calls.result (call : Calls H stack p l x x') (ran : run H (p.call stack x.1) x.2 = r) : x' = (r.1.2, r.2) ∧ l.Tells r.1.1 := by
  obtain ⟨cStatus, result, tells⟩ := call.runs
  rw [← ran, result]
  exact ⟨rfl, tells⟩

/-- A request has a label. -/
theorem calls_request {buf : Nat → UInt8} (request : p.call stack id = pcdRequest piccReqall buf id) (ran : run H (p.call stack id) s = r) :
    (r.1.1 = miOk ∧ ∃ tagType, Calls H stack p (.pcdRequest (some tagType)) (id, s) (r.1.2, r.2)) ∨
      (r.1.1 ≠ miOk ∧ Calls H stack p (.pcdRequest none) (id, s) (r.1.2, r.2)) := by
  have yields := (pcdRequest_yields piccReqall buf id).run H s
  rw [← request, ran] at yields
  obtain ⟨⟨cStatus, id'⟩, s'⟩ := r
  rcases yields with ⟨b0, b1, found⟩ | none
  · obtain ⟨rfl, rfl⟩ := Prod.mk.inj found
    exact .inl ⟨rfl, (b0, b1), ⟨_, ran, iff_of_true rfl rfl⟩, fun _ => rfl⟩
  · obtain ⟨rfl, rfl⟩ := Prod.mk.inj none
    have failed : miErr ≠ miOk := by decide
    exact .inr ⟨failed, ⟨_, ran, iff_of_false Bool.false_ne_true failed⟩, fun _ => rfl⟩

/-- From the anticollision on. -/
theorem callPath_anticoll (ran : run H (ReadPc.call stack id .anticoll) s = r) : CallPath H stack .anticoll (id, s) out status x ↔
    (if r.1.1 = miOk then out = some r.1.2 ∧ status = miOk else out = none ∧ status = miErr) ∧ x = (r.1.2, r.2) := by
  constructor
  · intro path
    cases path with
    | finish edge call =>
      obtain ⟨rfl, tells⟩ := call.result ran
      cases edge with
      | read serial =>
        have stored : r.1.2 = serial := congrArg Shared.ucArrayId (call.stores fun _ => 0)
        rw [if_pos (tells.mp rfl), stored]
        exact ⟨⟨rfl, rfl⟩, rfl⟩
      | failed serial =>
        rw [if_neg fun ok => Bool.false_ne_true (tells.mpr ok)]
        exact ⟨⟨rfl, rfl⟩, rfl⟩
    | next edge => cases edge
  · rintro ⟨ends, rfl⟩
    by_cases ok : r.1.1 = miOk
    · rw [if_pos ok] at ends
      obtain ⟨rfl, rfl⟩ := ends
      exact .finish (.read r.1.2) ⟨⟨r.1.1, ran, iff_of_true rfl ok⟩, fun _ => rfl⟩
    · rw [if_neg ok] at ends
      obtain ⟨rfl, rfl⟩ := ends
      exact .finish (.failed (some r.1.2)) ⟨⟨r.1.1, ran, iff_of_false Bool.false_ne_true ok⟩, fun _ => rfl⟩

/-- From the second try on. -/
theorem callPath_requestAgain (ran : run H (ReadPc.call stack id .requestAgain) s = r) :
    CallPath H stack .requestAgain (id, s) out status x ↔
      if r.1.1 = miOk then CallPath H stack .anticoll (r.1.2, r.2) out status x
      else (out = none ∧ status = miNotagerr) ∧ x = (r.1.2, r.2) := by
  constructor
  · intro path
    cases path with
    | finish edge call =>
      obtain ⟨rfl, tells⟩ := call.result ran
      cases edge with
      | noTag =>
        rw [if_neg fun ok => Bool.false_ne_true (tells.mpr ok)]
        exact ⟨⟨rfl, rfl⟩, rfl⟩
    | next edge call rest =>
      obtain ⟨rfl, tells⟩ := call.result ran
      cases edge with
      | foundAgain tagType =>
        rw [if_pos (tells.mp rfl)]
        exact rest
  · intro goes
    rcases calls_request rfl ran with ⟨ok, tagType, call⟩ | ⟨failed, call⟩
    · rw [if_pos ok] at goes
      exact .next (.foundAgain tagType) call goes
    · rw [if_neg failed] at goes
      obtain ⟨⟨rfl, rfl⟩, rfl⟩ := goes
      exact .finish .noTag call

theorem callPath_request (ran : run H (ReadPc.call stack id .request) s = r) :
    CallPath H stack .request (id, s) out status x ↔
      if r.1.1 = miOk then CallPath H stack .anticoll (r.1.2, r.2) out status x
      else CallPath H stack .requestAgain (r.1.2, r.2) out status x := by
  constructor
  · intro path
    cases path with
    | finish edge => cases edge
    | next edge call rest =>
      obtain ⟨rfl, tells⟩ := call.result ran
      cases edge with
      | found tagType =>
        rw [if_pos (tells.mp rfl)]
        exact rest
      | retry =>
        rw [if_neg fun ok => Bool.false_ne_true (tells.mpr ok)]
        exact rest
  · intro goes
    rcases calls_request rfl ran with ⟨ok, tagType, call⟩ | ⟨failed, call⟩
    · rw [if_pos ok] at goes
      exact .next (.found tagType) call goes
    · rw [if_neg failed] at goes
      exact .next .retry call goes

/-- What a run of `Read_ID` has come to. -/
structure Returned (r : ReadIdResult × σ) (out : Option TagId) (status : UInt8) (x : TagId × σ) : Prop where
  card : out = if r.1.ucStatusReturn = miOk then some r.1.ucArrayId else none
  status : status = r.1.ucStatusReturn
  state : x = (r.1.ucArrayId, r.2)

theorem returned_iff {res : ReadIdResult} {s' : σ} : Returned (res, s') out status x ↔
    ((out = if res.ucStatusReturn = miOk then some res.ucArrayId else none) ∧ status = res.ucStatusReturn) ∧ x = (res.ucArrayId, s') :=
  ⟨fun h => ⟨⟨h.card, h.status⟩, h.state⟩, fun h => ⟨h.1.1, h.1.2, h.2⟩⟩

/-- The two tries, and what the second finds. -/
theorem run_requestTwice (ran : run H (ReadPc.call stack id .request) s = r) :
    run H (requestTwice stack id) s = if r.1.1 = miOk then r else run H (ReadPc.call stack r.1.2 .requestAgain) r.2 := by
  have first : run H (pcdRequest piccReqall (stack .request) id) s = r := ran
  rw [requestTwice, run_bind, first]
  by_cases ok : r.1.1 = miOk
  · rw [if_neg (not_not.mpr ok), if_pos ok]
    rfl
  · rw [if_pos ok, if_neg ok]
    rfl

/-- After a request that found a card: the paths from the anticollision end with what `Read_ID` returns. -/
theorem callPath_found {id' : TagId} {s' : σ} (found : run H (requestTwice stack id) s = ((miOk, id'), s')) :
    CallPath H stack .anticoll (id', s') out status x ↔ Returned (run H (readId stack id) s) out status x := by
  obtain ⟨⟨⟨cStatus, serial⟩, s''⟩, ran⟩ : ∃ r, run H (ReadPc.call stack id' .anticoll) s' = r := ⟨_, rfl⟩
  have call : run H ((pcdAnticoll (stack .anticoll) id').lower byNumber) s' = ((cStatus, serial), s'') := ran
  rw [callPath_anticoll ran, readId, run_bind, found, if_pos rfl, run_bind, call]
  by_cases ok : cStatus = miOk
  · rw [if_pos ok, if_pos ok, run_pure, returned_iff, if_pos rfl]
  · have failed : miErr ≠ miOk := by decide
    rw [if_neg ok, if_neg ok, run_pure, returned_iff, if_neg failed]

/-- After two tries without one. -/
theorem returned_notFound {cStatus : UInt8} {id' : TagId} {s' : σ} (none : run H (requestTwice stack id) s = ((cStatus, id'), s'))
    (failed : cStatus ≠ miOk) :
    Returned (run H (readId stack id) s) out status x ↔ (out = .none ∧ status = miNotagerr) ∧ x = (id', s') := by
  have noTag : miNotagerr ≠ miOk := by decide
  rw [readId, run_bind, none, if_neg failed, run_pure, returned_iff, if_neg noTag]

/-- **The paths of `Read_ID`'s graph, call by call, are its runs.** -/
theorem callPath_iff (H : Handler σ (Fin 64) UInt8) (stack : ReadPc → Nat → UInt8) (id : TagId) (s : σ) :
    CallPath H stack .request (id, s) out status x ↔ Returned (run H (readId stack id) s) out status x := by
  obtain ⟨⟨⟨first, id₁⟩, s₁⟩, ran⟩ : ∃ r, run H (ReadPc.call stack id .request) s = r := ⟨_, rfl⟩
  have twice := run_requestTwice ran
  rw [callPath_request ran]
  by_cases ok : first = miOk
  · subst ok
    rw [if_pos rfl] at twice ⊢
    exact callPath_found twice
  · rw [if_neg ok] at twice ⊢
    obtain ⟨⟨⟨second, id₂⟩, s₂⟩, again⟩ : ∃ r, run H (ReadPc.call stack id₁ .requestAgain) s₁ = r := ⟨_, rfl⟩
    rw [callPath_requestAgain again]
    by_cases okAgain : second = miOk
    · subst okAgain
      rw [if_pos rfl]
      exact callPath_found (twice.trans again)
    · rw [if_neg okAgain]
      exact (returned_notFound (twice.trans again) okAgain).symm

/-- `sprintf` is called just where `MI_OK` is returned. -/
theorem readId_cStr (stack : ReadPc → Nat → UInt8) (id : TagId) : (readId stack id).Yields fun r =>
    r.cStr = if r.ucStatusReturn = miOk then some (sprintfCardId r.ucArrayId) else none := by
  have errors : miErr ≠ miOk ∧ miNotagerr ≠ miOk := by decide
  refine Prog.yields_bind _ fun r => ?_
  split
  · refine Prog.yields_bind _ fun r => ?_
    split
    · exact (if_pos rfl).symm
    · exact (if_neg errors.1).symm
  · exact (if_neg errors.2).symm

theorem idString_length (id : TagId) : (idString id).length = 8 := rfl

/-- 31 characters and the end of the string. -/
theorem sprintfCardId_length (id : TagId) : (sprintfCardId id).bytes.length = 32 := by
  simp [sprintfCardId, idString_length]

end Paths

/-- **`Read_ID` on the lines follows its graph.** Whatever chip is on the serial lines and whatever the driver's
variables and buffers hold: the paths of `ReadStep` whose labels tell what the calls along them did end with
the value that `Read_ID` returns, the card's ID if it is `MI_OK`, and what it leaves in `ucArray_ID` and the chip, and
one such path exists; `Read_ID` returns what it does on the chip's registers, and leaves the chip deselected; and
where it returns `MI_OK`, its `sprintf` has written two bytes past the end of `cStr`. -/
theorem readId_follows_graph {ρ : Type} (H : Handler ρ (Fin 64) UInt8) (garbage : Nat → UInt8) (stack : ReadPc → Nat → UInt8)
    (id : TagId) (n : Nat) (k o : Bool) (t : ρ) :
    let r := run (onLines H garbage) (readId stack id) (n, released k o t)
    (∀ out status x, CallPath (onLines H garbage) stack .request (id, (n, released k o t)) out status x ↔ Returned r out status x) ∧
      r.1 = (run H (readId stack id) t).1 ∧ Released (run H (readId stack id) t).2 r.2 ∧
      (r.1.cStr.isSome = true ↔ r.1.ucStatusReturn = miOk) ∧ ∀ w ∈ r.1.cStr, w.bytes.length = w.size + 2 := by
  intro r
  obtain ⟨same, free⟩ := run_onLines H garbage (readId stack id) n k o t
  have written : r.1.cStr = _ := (readId_cStr stack id).run (onLines H garbage) (n, released k o t)
  refine ⟨fun out status x => callPath_iff _ stack id _, same, free, ?_⟩
  by_cases ok : r.1.ucStatusReturn = miOk
  · rw [written, if_pos ok]
    refine ⟨iff_of_true rfl ok, fun w here => ?_⟩
    obtain rfl := Option.some.inj here
    exact sprintfCardId_length r.1.ucArrayId
  · rw [written, if_neg ok]
    exact ⟨iff_of_false Bool.false_ne_true ok, nofun⟩

/-- A chip that a card answers: two bytes to the request, five to the anticollision. -/
def cardChip : Handler (Fin 64 → Nat) (Fin 64) UInt8 where
  read a n :=
    (if a = Reg.number .comIrqReg then 0x30
      else if a = Reg.number .fifoLevelReg then if n a < 2 then 2 else 5
      else if a = Reg.number .fifoDataReg then [4, 0, 1, 2, 3, 4, 4].getD (n a) 0
      else 0, Function.update n a (n a + 1))
  write _ _ n := n

theorem readId_follows_graph_card : ∃ x, CallPath (onLines cardChip fun _ => 0) (fun _ _ => 0) .request
    (fun _ => 0, (0, released true true fun _ => 0)) (some ![1, 2, 3, 4]) miOk x := by
  obtain ⟨paths, same, -⟩ := readId_follows_graph cardChip (fun _ => 0) (fun _ _ => 0) (fun _ => 0) 0 true true fun _ => 0
  refine ⟨_, (paths _ _ _).mpr ⟨?_, ?_, rfl⟩⟩
  · rw [same]
    decide +kernel
  · rw [same]
    decide +kernel

end DoorSecurity
