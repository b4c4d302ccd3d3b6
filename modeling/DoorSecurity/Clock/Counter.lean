import DoorSecurity.Clock.Decode

/-!
# The two reads of the counter

The counter goes on while `RTC_Get` reads its halves, the upper one first, and
nothing notices an overflow of the lower half between the reads.
-/

namespace DoorSecurity
set_option autoImplicit false
open Bus

/-- The registers of the counter. -/
inductive CounterReg where
  | cnth | cntl
  deriving DecidableEq, Repr

/-- `timecount=RTC->CNTH; timecount<<=16; timecount+=RTC->CNTL`. -/
def readTimecount : Prog CounterReg UInt16 Nat := do
  let cnth ← Prog.get .cnth
  let cntl ← Prog.get .cntl
  return uint32 (cnth.toNat * 65536 + cntl.toNat)

/-- A half of the counter. -/
def CounterReg.half (count : UInt32) : CounterReg → UInt16
  | .cnth => (count >>> 16).toUInt16
  | .cntl => count.toUInt16

/-- The counter, and the increments that follow each of the reads to come. -/
structure FreeRunning where
  count : UInt32
  ticks : List Nat

/-- A read answers with a half of the count of its moment. -/
def freeRunning : Handler FreeRunning CounterReg UInt16 where
  read r c := (r.half c.count, ⟨c.count + UInt32.ofNat (c.ticks.headD 0), c.ticks.tail⟩)
  write _ _ c := c

/-- The count that `RTC_Get` goes on with, with `ticks` increments between its two reads. -/
def timecountRead (count : UInt32) (ticks : Nat) : Nat := (run freeRunning readTimecount ⟨count, [ticks]⟩).1

/-- The counter held `v` between the two reads. -/
def Held (count : UInt32) (ticks v : Nat) : Prop := ∃ j ≤ ticks, (count + UInt32.ofNat j).toNat = v

variable (count : UInt32) (ticks : Nat)

/-- The count that `RTC_Get` uses is that of its registers, as each read finds them. -/
theorem timecountRead_eq_timecount (s : Rtc) :
    timecountRead count ticks = Rtc.timecount { s with
      cnth := CounterReg.half count .cnth, cntl := CounterReg.half (count + UInt32.ofNat ticks) .cntl } := rfl

theorem toNat_advanced (j : Nat) : (count + UInt32.ofNat j).toNat = (count.toNat + j) % 4294967296 := by
  rw [UInt32.toNat_add, UInt32.toNat_ofNat']
  exact Nat.add_mod_mod _ _ _

/-- The old upper half and the new lower half. -/
theorem timecountRead_eq : timecountRead count ticks = count.toNat / 65536 * 65536 + (count.toNat + ticks) % 65536 := by
  have bound := count.toNat_lt
  have high : (CounterReg.half count .cnth).toNat = count.toNat / 65536 := by
    show (count >>> 16).toUInt16.toNat = _
    rw [UInt32.toNat_toUInt16, UInt32.toNat_shiftRight]
    show count.toNat >>> 16 % 65536 = _
    rw [Nat.shiftRight_eq_div_pow]
    omega
  have low : (CounterReg.half (count + UInt32.ofNat ticks) .cntl).toNat = (count.toNat + ticks) % 65536 := by
    show (count + UInt32.ofNat ticks).toUInt16.toNat = _
    rw [UInt32.toNat_toUInt16, toNat_advanced]
    omega
  rw [timecountRead_eq_timecount count ticks ⟨0, 0, 0, ⟨0, 0, 0, 0, 0, 0, 0⟩⟩]
  unfold Rtc.timecount uint32
  simp only [high, low]
  omega

/-- **A read is torn exactly** when the increments modulo the lower half's width carry out of it,
unless the counter has almost gone round. -/
theorem held_timecountRead_iff :
    Held count ticks (timecountRead count ticks) ↔ count.toNat % 65536 + ticks % 65536 < 65536 ∨ 65535 ≤ ticks / 65536 := by
  have bound := count.toNat_lt
  unfold Held
  simp only [timecountRead_eq, toNat_advanced]
  constructor
  · rintro ⟨j, le, held⟩
    by_contra torn
    omega
  · rintro (together | round)
    · exact ⟨ticks % 65536, Nat.mod_le _ _, by omega⟩
    · by_cases together : count.toNat % 65536 + ticks % 65536 < 65536
      · exact ⟨ticks % 65536, Nat.mod_le _ _, by omega⟩
      · exact ⟨4294901760 + ticks % 65536, by omega, by omega⟩

/-- One increment at the end of the lower half: the count falls back by 65535. -/
theorem torn_read : timecountRead 0x1FFFF 1 = 0x10000 ∧ ¬ Held 0x1FFFF 1 (timecountRead 0x1FFFF 1) := by
  refine ⟨by decide, ?_⟩
  rintro ⟨j, le, held⟩
  interval_cases j <;> exact absurd held (by decide)

end DoorSecurity
