import DoorSecurity.Eeprom.Device

/-!
# The card reader's driver (`bsp/rc522.c`)

The RC522 is reached through its registers only, each access a transaction of its
own over SPI. The driver is a program over the registers; a chip is the values that
each register returns, one after the other, so nothing is assumed about what it
answers.
-/

namespace DoorSecurity
set_option autoImplicit false
open Bus

/-- The registers that the driver uses (`rc522_config.h`). -/
inductive Reg where
  | commandReg
  | comIEnReg
  | comIrqReg
  | errorReg
  | status2Reg
  | fifoDataReg
  | fifoLevelReg
  | controlReg
  | bitFramingReg
  | collReg
deriving DecidableEq

/-- Reader code: a program over the registers. -/
abbrev ReaderCode := Prog Reg UInt8

/-- The values that successive reads of each register return. -/
abbrev Chip := Reg → Nat → UInt8

/-- How often each register has been read. -/
abbrev ReadCounts := Reg → Nat

def rc522 (chip : Chip) : Handler ReadCounts Reg UInt8 where
  read r n := (chip r (n r), Function.update n r (n r + 1))
  write _ _ n := n

def miOk : UInt8 := 0x26
def miNotagerr : UInt8 := 0xcc
def miErr : UInt8 := 0xbb
def maxrlen : Nat := 18
def pcdIdle : UInt8 := 0x00
def pcdAuthent : UInt8 := 0x0E
def pcdTransceive : UInt8 := 0x0C

/-- `ReadRawRC`. -/
def readRawRC (ucAddress : Reg) : ReaderCode UInt8 := Prog.get ucAddress

/-- `WriteRawRC`. -/
def writeRawRC (ucAddress : Reg) (ucValue : UInt8) : ReaderCode Unit := Prog.put ucAddress ucValue

/-- `SetBitMask`. -/
def setBitMask (ucReg : Reg) (ucMask : UInt8) : ReaderCode Unit := do
  let ucTemp ← readRawRC ucReg
  writeRawRC ucReg (ucTemp ||| ucMask)

/-- `ClearBitMask`. -/
def clearBitMask (ucReg : Reg) (ucMask : UInt8) : ReaderCode Unit := do
  let ucTemp ← readRawRC ucReg
  writeRawRC ucReg (ucTemp &&& ~~~ucMask)

/-- What `PcdComMF522` leaves: its status, the bytes stored from `pOutData[0]` on, and
`*pOutLenBit` if it has been written. -/
structure Exchange where
  cStatus : UInt8
  pOutData : List UInt8
  pOutLenBit : Option Nat
deriving DecidableEq

/-- `for(ul=0;ul<ucInLenByte;ul++) WriteRawRC(FIFODataReg,pInData[ul])`. -/
def writeFifo : List UInt8 → ReaderCode Unit
  | [] => pure ()
  | b :: pInData => do
    writeRawRC .fifoDataReg b
    writeFifo pInData

/-- The `do .. while` over `ComIrqReg`, on the `ul` that the next round counts down to; with the
last value read and the final `ul`. -/
def pollComIrq (ucWaitFor : UInt8) : Nat → ReaderCode (UInt8 × Nat)
  | 0 => do
    let ucN ← readRawRC .comIrqReg
    return (ucN, 0)
  | ul + 1 => do
    let ucN ← readRawRC .comIrqReg
    if ucN &&& 0x01 = 0 ∧ ucN &&& ucWaitFor = 0 then pollComIrq ucWaitFor ul else return (ucN, ul + 1)

/-- `for(ul=0;ul<ucN;ul++) pOutData[ul]=ReadRawRC(FIFODataReg)`. -/
def readFifo (ucN : Nat) : ReaderCode (List UInt8) :=
  Prog.forLoop 0 ucN [] fun _ pOutData => do
    let b ← readRawRC .fifoDataReg
    return pOutData ++ [b]

/-- The bit length from the FIFO level and the valid bits of the last byte. -/
def outLenBit (ucN ucLastBits : UInt8) : Nat :=
  if ucLastBits ≠ 0 then uint32 (((ucN.toNat : Int) - 1) * 8 + ucLastBits.toNat) else uint32 (ucN.toNat * 8)

/-- The bytes read from the FIFO: one for an empty FIFO, `MAXRLEN` at most. -/
def fifoBytes (ucN : UInt8) : Nat :=
  let ucN := if ucN = 0 then 1 else ucN.toNat
  if ucN > maxrlen then maxrlen else ucN

/-- The answer of a transceive. -/
def readAnswer (cStatus : UInt8) : ReaderCode Exchange := do
  let ucN ← readRawRC .fifoLevelReg
  let control ← readRawRC .controlReg
  let pOutData ← readFifo (fifoBytes ucN)
  return ⟨cStatus, pOutData, some (outLenBit ucN (control &&& 0x07))⟩

/-- The interrupts that a command enables. -/
def ucIrqEn (ucCommand : UInt8) : UInt8 := if ucCommand = pcdAuthent then 0x12 else if ucCommand = pcdTransceive then 0x77 else 0x00

/-- The interrupts that end a command's poll. -/
def ucWaitFor (ucCommand : UInt8) : UInt8 := if ucCommand = pcdAuthent then 0x10 else if ucCommand = pcdTransceive then 0x30 else 0x00

/-- `StartSend`, for a transceive only. -/
def startSend (ucCommand : UInt8) : ReaderCode Unit :=
  if ucCommand = pcdTransceive then setBitMask .bitFramingReg 0x80 else pure ()

/-- The `if(ul!=0)` block, on the last value polled and the budget left. -/
def readResult (ucCommand ucN : UInt8) (ul : Nat) : ReaderCode Exchange :=
  if ul ≠ 0 then do
    let errors ← readRawRC .errorReg
    if errors &&& 0x1B = 0 then
      let cStatus := if ucN &&& ucIrqEn ucCommand &&& 0x01 ≠ 0 then miNotagerr else miOk
      if ucCommand = pcdTransceive then readAnswer cStatus else return ⟨cStatus, [], none⟩
    else return ⟨miErr, [], none⟩
  else return ⟨miErr, [], none⟩

/-- `PcdComMF522`. -/
def pcdComMF522 (ucCommand : UInt8) (pInData : List UInt8) : ReaderCode Exchange := do
  writeRawRC .comIEnReg (ucIrqEn ucCommand ||| 0x80)
  clearBitMask .comIrqReg 0x80
  writeRawRC .commandReg pcdIdle
  setBitMask .fifoLevelReg 0x80
  writeFifo pInData
  writeRawRC .commandReg ucCommand
  startSend ucCommand
  let (ucN, ul) ← pollComIrq (ucWaitFor ucCommand) 999
  clearBitMask .bitFramingReg 0x80
  let r ← readResult ucCommand ucN ul
  setBitMask .controlReg 0x80
  writeRawRC .commandReg pcdIdle
  return r

/-- An array with a list stored at its front. -/
def storeAt (buffer : Nat → UInt8) (bytes : List UInt8) : Nat → UInt8 := fun k => bytes.getD k (buffer k)

/-- `PcdAnticoll`, on the initial content of `ucComMF522Buf` and of `pSnr`. -/
def pcdAnticoll (ucComMF522Buf : Nat → UInt8) (pSnr : Fin 4 → UInt8) : ReaderCode (UInt8 × (Fin 4 → UInt8)) := do
  clearBitMask .status2Reg 0x08
  writeRawRC .bitFramingReg 0x00
  clearBitMask .collReg 0x80
  let ucComMF522Buf := storeAt ucComMF522Buf [0x93, 0x20]
  let r ← pcdComMF522 pcdTransceive [ucComMF522Buf 0, ucComMF522Buf 1]
  let ucComMF522Buf := storeAt ucComMF522Buf r.pOutData
  if r.cStatus = miOk then do
    let ucSnr_check := 0 ^^^ ucComMF522Buf 0 ^^^ ucComMF522Buf 1 ^^^ ucComMF522Buf 2 ^^^ ucComMF522Buf 3
    setBitMask .collReg 0x80
    return (if ucSnr_check ≠ ucComMF522Buf 4 then miErr else miOk, fun i => ucComMF522Buf i.val)
  else do
    setBitMask .collReg 0x80
    return (r.cStatus, pSnr)

end DoorSecurity
