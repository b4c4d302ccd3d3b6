import DoorSecurity.Eeprom.Device

/-!
# The real-time clock (`bsp/rtc.c`)

The RTC counts seconds since 1970 in two 16-bit registers. `RTC_Set` sums a date-time
up to a count, `RTC_Get` takes a count apart, years first, and keeps the date of the
last day it saw. An index past `mon_table` or `table_week` is no value of the
program, so functions that index them answer an `Option`.
-/

namespace DoorSecurity
set_option autoImplicit false

/-- `Is_Leap_Year`. -/
def isLeapYear (year : Nat) : Bool :=
  if year % 4 = 0 then
    if year % 100 = 0 then
      if year % 400 = 0 then true else false
    else true
  else false

def tableWeek : List Nat := [0, 3, 3, 6, 1, 4, 6, 2, 5, 0, 3, 5]
def monTable : List Nat := [31, 28, 31, 30, 31, 30, 31, 31, 30, 31, 30, 31]

/-- The arguments of `RTC_Set`. -/
@[ext] structure DateTime where
  syear : UInt16
  smon : UInt8
  sday : UInt8
  hour : UInt8
  min : UInt8
  sec : UInt8
deriving DecidableEq

/-- `_calendar_obj`. -/
structure Calendar where
  hour : UInt8
  min : UInt8
  sec : UInt8
  wYear : UInt16
  wMonth : UInt8
  wDate : UInt8
  week : UInt8
deriving DecidableEq

/-- The decoded fields but the weekday. -/
def Calendar.dateTime (c : Calendar) : DateTime := ⟨c.wYear, c.wMonth, c.wDate, c.hour, c.min, c.sec⟩

/-- The counter's registers, the static day of `RTC_Get` and `calendar`. -/
structure Rtc where
  cnth : UInt16
  cntl : UInt16
  daycnt : UInt16
  calendar : Calendar
deriving DecidableEq

/-- `for(t=1970;t<syear;t++)`: the seconds of the years before. -/
def yearsSeconds (syear : Nat) : Nat :=
  (List.range' 1970 (syear - 1970)).foldl (fun (seccount t : Nat) => uint32 (seccount + if isLeapYear t then 31622400 else 31536000)) 0

/-- `for(t=0;t<smon;t++)`: the seconds of the months before, a leap February's last day apart. -/
def monthsSeconds (leap : Bool) (smon : Nat) (seccount : Nat) : Option Nat :=
  (List.range smon).foldlM (fun (seccount t : Nat) => do
    let days ← monTable[t]?
    let seccount := uint32 (seccount + days * 86400)
    return if leap ∧ t = 1 then uint32 (seccount + 86400) else seccount) seccount

/-- The `seccount` of `RTC_Set`. -/
def rtcSeccount (a : DateTime) : Option Nat := do
  let smon := a.smon - 1
  let seccount ← monthsSeconds (isLeapYear a.syear.toNat) smon.toNat (yearsSeconds a.syear.toNat)
  let seccount := uint32 (seccount + uint32 ((a.sday.toNat : Int) - 1) * 86400)
  let seccount := uint32 (seccount + a.hour.toNat * 3600)
  let seccount := uint32 (seccount + a.min.toNat * 60)
  return uint32 (seccount + a.sec.toNat)

/-- `while(temp>=365)` of `RTC_Get`: the days left in the year, and the year. -/
def yearLoop (temp temp1 : Nat) : Nat × Nat :=
  if temp ≥ 365 then
    if isLeapYear temp1 then
      if temp ≥ 366 then yearLoop (temp - 366) (temp1 + 1) else (temp, temp1)
    else yearLoop (temp - 365) (temp1 + 1)
  else (temp, temp1)
termination_by temp

/-- `while(temp>=28)` of `RTC_Get`, on what is left of `mon_table` from `temp1` on: the days left
in the month, and the month counted from zero. -/
def monthLoop (leap : Bool) : List Nat → Nat → Nat → Option (Nat × Nat)
  | [], temp, temp1 => if temp ≥ 28 then none else some (temp, temp1)
  | days :: table, temp, temp1 =>
    if temp ≥ 28 then
      if leap ∧ temp1 = 1 then
        if temp ≥ 29 then monthLoop leap table (temp - 29) (temp1 + 1) else some (temp, temp1)
      else
        if temp ≥ days then monthLoop leap table (temp - days) (temp1 + 1) else some (temp, temp1)
    else some (temp, temp1)

/-- `RTC_Get_Week`. -/
def rtcGetWeek (year : UInt16) (month day : UInt8) : Option UInt8 := do
  let yearH := year.toNat / 100 % 256
  let yearL := year.toNat % 100
  let yearL := if yearH > 19 then yearL + 100 else yearL
  let correction ← if month = 0 then none else tableWeek[month.toNat - 1]?
  let temp2 := (yearL + yearL / 4) % 7 + day.toNat + correction
  let temp2 := if yearL % 4 = 0 ∧ month < 3 then uint16 ((temp2 : Int) - 1) else temp2
  return UInt8.ofNat (temp2 % 7)

namespace Rtc

/-- `timecount=CNTH; timecount<<=16; timecount+=CNTL`. -/
def timecount (s : Rtc) : Nat := uint32 (s.cnth.toNat * 65536 + s.cntl.toNat)

/-- `CNTL=seccount&0xffff; CNTH=seccount>>16`. -/
def store (s : Rtc) (seccount : Nat) : Rtc :=
  { s with cntl := UInt16.ofNat seccount, cnth := UInt16.ofNat (seccount / 65536) }

/-- `if(daycnt!=temp)` of `RTC_Get`: the date of day `temp`. -/
def newDay (s : Rtc) (temp : Nat) : Option Rtc := do
  let wYear := UInt16.ofNat (yearLoop temp 1970).2
  let (temp', temp1) ← monthLoop (isLeapYear wYear.toNat) monTable (yearLoop temp 1970).1 0
  return { s with
    daycnt := UInt16.ofNat temp
    calendar := { s.calendar with wYear := wYear, wMonth := UInt8.ofNat (temp1 + 1), wDate := UInt8.ofNat (temp' + 1) } }

end Rtc

/-- `RTC_Get`. -/
def rtcGet (s : Rtc) : Option Rtc := do
  let temp := s.timecount / 86400
  let s' ← if s.daycnt.toNat ≠ temp then s.newDay temp else some s
  let temp := s.timecount % 86400
  let week ← rtcGetWeek s'.calendar.wYear s'.calendar.wMonth s'.calendar.wDate
  return { s' with calendar := { s'.calendar with
    hour := UInt8.ofNat (temp / 3600)
    min := UInt8.ofNat (temp % 3600 / 60)
    sec := UInt8.ofNat (temp % 3600 % 60)
    week := week } }

/-- `if(syear<1970||syear>2099)return 1`. -/
def RtcSetAccepts (a : DateTime) : Prop := ¬ (a.syear.toNat < 1970 ∨ a.syear.toNat > 2099)

instance (a : DateTime) : Decidable (RtcSetAccepts a) := inferInstanceAs (Decidable (¬ _))

/-- `RTC_Set`. -/
def rtcSet (a : DateTime) (s : Rtc) : Option (UInt8 × Rtc) :=
  if RtcSetAccepts a then do
    let seccount ← rtcSeccount a
    let s ← rtcGet (s.store seccount)
    return (0, s)
  else some (1, s)

end DoorSecurity
