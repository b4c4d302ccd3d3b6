import DoorSecurity.Clock.Blocks
import DoorSecurity.Clock.Rtc

/-!
# Dates and the seconds count

The days since 1970 form consecutive years, the days of a year consecutive months
(`Blocks`). `RTC_Set` sums the blocks before a date and `RTC_Get`'s loops locate a
day in them, so the two are inverse to each other on the real date-times from 1970
to 2099 and on the counts that these reach.
-/

namespace DoorSecurity
set_option autoImplicit false
open Blocks

/-- The Gregorian leap years. -/
def LeapYear (year : Nat) : Prop := 4 ∣ year ∧ (¬ 100 ∣ year ∨ 400 ∣ year)

instance (year : Nat) : Decidable (LeapYear year) := inferInstanceAs (Decidable (_ ∧ _))

def yearLength (year : Nat) : Nat := if LeapYear year then 366 else 365

/-- The length of a month, counted from one. -/
def monthLength (year : Nat) : Nat → Nat
  | 2 => if LeapYear year then 29 else 28
  | 4 | 6 | 9 | 11 => 30
  | _ => 31

/-- A date-time that exists, from 1970 to 2099. -/
structure DateTime.Real (a : DateTime) : Prop where
  year : 1970 ≤ a.syear.toNat ∧ a.syear.toNat ≤ 2099
  month : 1 ≤ a.smon.toNat ∧ a.smon.toNat ≤ 12
  day : 1 ≤ a.sday.toNat ∧ a.sday.toNat ≤ monthLength a.syear.toNat a.smon.toNat
  hour : a.hour.toNat < 24
  min : a.min.toNat < 60
  sec : a.sec.toNat < 60

/-- A date-time that exists, in 1970 or later. -/
structure DateTime.Proper (a : DateTime) : Prop where
  year : 1970 ≤ a.syear.toNat
  month : 1 ≤ a.smon.toNat ∧ a.smon.toNat ≤ 12
  day : 1 ≤ a.sday.toNat ∧ a.sday.toNat ≤ monthLength a.syear.toNat a.smon.toNat
  hour : a.hour.toNat < 24
  min : a.min.toNat < 60
  sec : a.sec.toNat < 60

theorem DateTime.real_iff (a : DateTime) : a.Real ↔ a.Proper ∧ a.syear.toNat ≤ 2099 := by
  constructor
  · intro real
    exact ⟨⟨real.year.1, real.month, real.day, real.hour, real.min, real.sec⟩, real.year.2⟩
  · rintro ⟨proper, last⟩
    exact ⟨⟨proper.year, last⟩, proper.month, proper.day, proper.hour, proper.min, proper.sec⟩

/-- The days before a date. -/
def epochDays (a : DateTime) : Nat :=
  (blocks yearLength 1970 (a.syear.toNat - 1970)).sum + (blocks (monthLength a.syear.toNat) 1 (a.smon.toNat - 1)).sum + (a.sday.toNat - 1)

/-- The seconds before a date-time. -/
def epochSeconds (a : DateTime) : Nat := epochDays a * 86400 + a.hour.toNat * 3600 + a.min.toNat * 60 + a.sec.toNat

theorem isLeapYear_eq (year : Nat) : isLeapYear year = decide (LeapYear year) := by
  unfold isLeapYear LeapYear
  simp only [Nat.dvd_iff_mod_eq_zero]
  split
  · split
    · split <;> simp_all
    · simp_all
  · simp_all

/-- A year is its twelve months. -/
theorem sum_months (year : Nat) : (blocks (monthLength year) 1 12).sum = yearLength year := by
  by_cases leap : LeapYear year <;> simp [blocks, List.range'_succ, monthLength, yearLength, leap]

theorem monthLength_le (year month : Nat) : monthLength year month ≤ 31 := by
  unfold monthLength
  split
  · split <;> omega
  all_goals omega

/-- The 130 years up to 2099. -/
theorem sum_years : (blocks yearLength 1970 130).sum = 47482 := by
  decide +kernel

/-- The 137 years that a 32-bit count reaches. -/
theorem sum_years_counted : (blocks yearLength 1970 137).sum = 50038 := by
  decide +kernel

/-- A loop guard below the test inside it decides nothing. -/
theorem guard_below {ρ : Type} {d low high : Nat} (le : low ≤ high) (more stop : ρ) :
    (if d ≥ low then if d ≥ high then more else stop else stop) = if d < high then stop else more := by
  by_cases short : d < high
  · rw [if_pos short, if_neg (show ¬ d ≥ high by omega), ite_self]
  · rw [if_neg short, if_pos (show d ≥ low by omega), if_pos (show d ≥ high by omega)]

/-- One round of the year loop. -/
theorem yearLoop_step (d t : Nat) : yearLoop d t = if d < yearLength t then (d, t) else yearLoop (d - yearLength t) (t + 1) := by
  rw [yearLoop, isLeapYear_eq, yearLength]
  by_cases leap : LeapYear t
  · simp only [leap, decide_true, if_true]
    exact guard_below (by omega) _ _
  · simp only [leap, decide_false, Bool.false_eq_true, if_false, ge_iff_le, ← Nat.not_lt, ite_not]

/-- One round of the month loop on an entry of the table. -/
theorem monthLoop_cons (leap : Bool) {days : Nat} (atLeast : 28 ≤ days) (table : List Nat) (d t : Nat) :
    monthLoop leap (days :: table) d t =
      if d < (if leap ∧ t = 1 then 29 else days) then some (d, t)
      else monthLoop leap table (d - (if leap ∧ t = 1 then 29 else days)) (t + 1) := by
  rw [monthLoop]
  by_cases february : leap ∧ t = 1
  · simp only [if_pos february]
    exact guard_below (by omega) _ _
  · simp only [if_neg february]
    exact guard_below atLeast _ _

/-- The entry for a month: its length, but for a leap February. -/
theorem monTable_entry (year : Nat) {t : Nat} (lower : 1 ≤ t) (upper : t ≤ 12) :
    ∃ days, monTable[t - 1]? = some days ∧ 28 ≤ days ∧ monTable.drop (t - 1) = days :: monTable.drop t ∧
      (if isLeapYear year ∧ t - 1 = 1 then 29 else days) = monthLength year t ∧
      (if isLeapYear year ∧ t - 1 = 1 then days + 1 else days) = monthLength year t := by
  rw [isLeapYear_eq]
  by_cases leap : LeapYear year <;> interval_cases t <;> simp [monTable, monthLength, leap]

/-- One round of the month loop. -/
theorem monthLoop_step (year d : Nat) {t : Nat} (lower : 1 ≤ t) (upper : t ≤ 12) :
    monthLoop (isLeapYear year) (monTable.drop (t - 1)) d (t - 1) =
      if d < monthLength year t then some (d, t - 1) else monthLoop (isLeapYear year) (monTable.drop t) (d - monthLength year t) t := by
  obtain ⟨days, -, atLeast, table, length, -⟩ := monTable_entry year lower upper
  rw [table, monthLoop_cons _ atLeast, length, Nat.sub_add_cancel lower]

/-- `RTC_Get`'s year loop locates a day in the years. -/
theorem yearLoop_of_locate {n d i r : Nat} (found : locate (blocks yearLength 1970 n) d = some (i, r)) :
    yearLoop d 1970 = (r, 1970 + i) :=
  loop_of_locate yearLoop Prod.mk (fun t d _ _ => yearLoop_step d t) found

/-- `RTC_Get`'s month loop locates a day of a year in its months. -/
theorem monthLoop_of_locate {year d i r : Nat} (found : locate (blocks (monthLength year) 1 12) d = some (i, r)) :
    monthLoop (isLeapYear year) monTable d 0 = some (r, i) := by
  have known := loop_of_locate (fun d t => monthLoop (isLeapYear year) (monTable.drop (t - 1)) d (t - 1))
    (fun d t => some (d, t - 1)) (fun t d lower upper => monthLoop_step year d lower (by omega)) found
  rwa [Nat.add_sub_cancel_left] at known

theorem uint32_natCast (n : Nat) : uint32 n = n % 4294967296 := by
  unfold uint32
  omega

/-- Sums modulo the counter's width. -/
theorem uint32_add (a b : Nat) : uint32 ((a % 4294967296 : Nat) + (b : Nat)) = (a + b) % 4294967296 := by
  rw [← Int.natCast_add, uint32_natCast, Nat.mod_add_mod]

theorem uint32_add_mul (a n scale : Nat) :
    uint32 ((a % 4294967296 : Nat) + (n : Int) * (scale : Int)) = (a + n * scale) % 4294967296 := by
  rw [← Int.natCast_mul, uint32_add]

/-- The year's seconds that `RTC_Set` adds. -/
theorem yearSeconds_cast (year : Nat) : (if isLeapYear year then (31622400 : Int) else 31536000) = (yearLength year * 86400 : Nat) := by
  rw [isLeapYear_eq, yearLength]
  by_cases leap : LeapYear year <;> simp [leap]

/-- `RTC_Set`'s year loop sums the years before. -/
theorem yearsSeconds_eq (k : Nat) : yearsSeconds (1970 + k) = (blocks yearLength 1970 k).sum * 86400 % 4294967296 := by
  unfold yearsSeconds
  rw [Nat.add_sub_cancel_left]
  induction k with
  | zero => rfl
  | succ k ih =>
    rw [List.range'_1_concat, List.foldl_append, ih, List.foldl_cons, List.foldl_nil, yearSeconds_cast, uint32_add,
      blocks_sum_succ, Nat.add_mul]

/-- `RTC_Set`'s month loop adds the months before. -/
theorem monthsSeconds_eq (year seconds : Nat) {k : Nat} (upper : k ≤ 12) :
    monthsSeconds (isLeapYear year) k (seconds % 4294967296) =
      some ((seconds + (blocks (monthLength year) 1 k).sum * 86400) % 4294967296) := by
  unfold monthsSeconds
  induction k with
  | zero => simp [blocks]
  | succ k ih =>
    obtain ⟨days, entry, -, -, -, length⟩ := monTable_entry year (Nat.succ_pos k) upper
    rw [Nat.succ_sub_one] at entry length
    have added := uint32_add_mul (seconds + (blocks (monthLength year) 1 k).sum * 86400) days 86400
    have leapDay := uint32_add (seconds + (blocks (monthLength year) 1 k).sum * 86400 + days * 86400) 86400
    rw [Nat.cast_ofNat] at added leapDay
    rw [List.range_succ, List.foldlM_append, ih (by omega), blocks_sum_succ, Nat.add_comm 1 k, ← length]
    simp only [Option.bind_eq_bind, Option.bind_some, List.foldlM_cons, List.foldlM_nil, entry]
    by_cases february : isLeapYear year ∧ k = 1
    · simp only [if_pos february, added]
      show some (uint32 _) = _
      rw [leapDay]
      exact congrArg (fun n => some (n % 4294967296)) (by ring)
    · simp only [if_neg february, added]
      exact congrArg (fun n => some (n % 4294967296)) (by ring)

theorem rtcSeccount_eq {a : DateTime} (year : 1970 ≤ a.syear.toNat) (month : 1 ≤ a.smon.toNat) (last : a.smon.toNat ≤ 12)
    (day : 1 ≤ a.sday.toNat) : rtcSeccount a = some (epochSeconds a % 4294967296) := by
  have smon : (a.smon - 1).toNat = a.smon.toNat - 1 := UInt8.toNat_sub_of_le a.smon 1 (UInt8.le_iff_toNat_le.mpr month)
  have sday : uint32 ((a.sday.toNat : Int) - 1) = a.sday.toNat - 1 := by
    have small := a.sday.toNat_lt
    unfold uint32
    omega
  have years := yearsSeconds_eq (a.syear.toNat - 1970)
  rw [Nat.add_sub_cancel' year] at years
  set before := (blocks yearLength 1970 (a.syear.toNat - 1970)).sum with yearsBefore
  have months := monthsSeconds_eq a.syear.toNat (before * 86400) (show a.smon.toNat - 1 ≤ 12 by omega)
  set monthsBefore := (blocks (monthLength a.syear.toNat) 1 (a.smon.toNat - 1)).sum with monthsBeforeEq
  have days := uint32_add_mul (before * 86400 + monthsBefore * 86400) (a.sday.toNat - 1) 86400
  have hours := uint32_add_mul (before * 86400 + monthsBefore * 86400 + (a.sday.toNat - 1) * 86400) a.hour.toNat 3600
  have minutes := uint32_add_mul (before * 86400 + monthsBefore * 86400 + (a.sday.toNat - 1) * 86400 + a.hour.toNat * 3600) a.min.toNat 60
  have seconds := uint32_add (before * 86400 + monthsBefore * 86400 + (a.sday.toNat - 1) * 86400 + a.hour.toNat * 3600 + a.min.toNat * 60) a.sec.toNat
  rw [Nat.cast_ofNat] at days hours minutes
  unfold rtcSeccount
  simp only [smon, sday, years, months, Option.bind_eq_bind, Option.bind_some, days, hours, minutes, seconds]
  unfold epochSeconds epochDays
  rw [← yearsBefore, ← monthsBeforeEq]
  exact congrArg (fun n => some (n % 4294967296)) (by ring)

@[simp] theorem Rtc.store_daycnt (s : Rtc) (n : Nat) : (s.store n).daycnt = s.daycnt := rfl

@[simp] theorem Rtc.store_calendar (s : Rtc) (n : Nat) : (s.store n).calendar = s.calendar := rfl

theorem timecount_store (s : Rtc) {n : Nat} (small : n < 4294967296) : (s.store n).timecount = n := by
  have high : (UInt16.ofNat (n / 65536)).toNat = n / 65536 := UInt16.toNat_ofNat_of_lt' (by show n / 65536 < 65536; omega)
  have low : (UInt16.ofNat n).toNat = n % 65536 := UInt16.toNat_ofNat'
  have whole : ((n / 65536 : Nat) : Int) * 65536 + (n % 65536 : Nat) = n := by omega
  unfold Rtc.timecount Rtc.store
  rw [high, low, whole, uint32_natCast, Nat.mod_eq_of_lt small]

/-- The time of day and the weekday that `RTC_Get` sets last. -/
def Rtc.showTime (s : Rtc) (temp : Nat) (week : UInt8) : Rtc :=
  { s with calendar := { s.calendar with
    hour := UInt8.ofNat (temp / 3600)
    min := UInt8.ofNat (temp % 3600 / 60)
    sec := UInt8.ofNat (temp % 3600 % 60)
    week := week } }

theorem Rtc.showTime_dateTime (s : Rtc) (temp : Nat) (week : UInt8) : (s.showTime temp week).calendar.dateTime =
    ⟨s.calendar.wYear, s.calendar.wMonth, s.calendar.wDate,
      UInt8.ofNat (temp / 3600), UInt8.ofNat (temp % 3600 / 60), UInt8.ofNat (temp % 3600 % 60)⟩ :=
  rfl

/-- A time of day fits its bytes. -/
theorem timeOfDay_toNat (n : Nat) :
    (UInt8.ofNat (n % 86400 / 3600)).toNat = n % 86400 / 3600 ∧ (UInt8.ofNat (n % 86400 % 3600 / 60)).toNat = n % 86400 % 3600 / 60 ∧
      (UInt8.ofNat (n % 86400 % 3600 % 60)).toNat = n % 86400 % 3600 % 60 := by
  have byte : ∀ k < 256, (UInt8.ofNat k).toNat = k := fun k lt => UInt8.toNat_ofNat_of_lt' lt
  exact ⟨byte _ (by omega), byte _ (by omega), byte _ (by omega)⟩

/-- `RTC_Get` on the day that it has kept. -/
theorem rtcGet_of_kept {s : Rtc} (same : s.daycnt.toNat = s.timecount / 86400) :
    rtcGet s = (rtcGetWeek s.calendar.wYear s.calendar.wMonth s.calendar.wDate).map (s.showTime (s.timecount % 86400)) := by
  unfold rtcGet
  rw [if_neg (not_not_intro same)]
  cases known : rtcGetWeek s.calendar.wYear s.calendar.wMonth s.calendar.wDate <;> simp [known, Rtc.showTime]

/-- `RTC_Get` on another day. -/
theorem rtcGet_of_stale {s : Rtc} (stale : s.daycnt.toNat ≠ s.timecount / 86400) :
    rtcGet s = (s.newDay (s.timecount / 86400)).bind fun s' =>
      (rtcGetWeek s'.calendar.wYear s'.calendar.wMonth s'.calendar.wDate).map (s'.showTime (s.timecount % 86400)) := by
  unfold rtcGet
  rw [if_pos stale]
  cases s.newDay (s.timecount / 86400) with
  | none => rfl
  | some s' => cases known : rtcGetWeek s'.calendar.wYear s'.calendar.wMonth s'.calendar.wDate <;> simp [known, Rtc.showTime]

theorem rtcGetWeek_exists (year : UInt16) {month : UInt8} (day : UInt8) (lower : 1 ≤ month.toNat) (upper : month.toNat ≤ 12) :
    ∃ week, rtcGetWeek year month day = some week := by
  have inside : month.toNat - 1 < tableWeek.length := by
    show month.toNat - 1 < 12
    omega
  have positive : month ≠ 0 := by
    rintro rfl
    exact absurd lower (by decide)
  unfold rtcGetWeek
  rw [if_neg positive, List.getElem?_eq_getElem inside]
  exact ⟨_, rfl⟩

/-- The recomputed date of a day located in its year and month. -/
theorem newDay_of_locate (s : Rtc) {d n i r j q : Nat} (year : locate (blocks yearLength 1970 n) d = some (i, r)) (early : 1970 + i < 65536)
    (month : locate (blocks (monthLength (1970 + i)) 1 12) r = some (j, q)) :
    s.newDay d = some { s with
      daycnt := UInt16.ofNat d
      calendar := { s.calendar with wYear := UInt16.ofNat (1970 + i), wMonth := UInt8.ofNat (j + 1), wDate := UInt8.ofNat (q + 1) } } := by
  have wYear : (UInt16.ofNat (1970 + i)).toNat = 1970 + i := UInt16.toNat_ofNat_of_lt' early
  unfold Rtc.newDay
  rw [yearLoop_of_locate year]
  simp only [wYear, monthLoop_of_locate month]
  rfl

/-- A call of `RTC_Get` that has answered for the count `n`: the calendar is the date-time with
`n` seconds before it, and the day is kept. -/
structure Rtc.Shows (t : Rtc) (n : Nat) : Prop where
  proper : t.calendar.dateTime.Proper
  count : epochSeconds t.calendar.dateTime = n
  week : rtcGetWeek t.calendar.wYear t.calendar.wMonth t.calendar.wDate = some t.calendar.week
  daycnt : t.daycnt.toNat = n / 86400

namespace DateTime.Proper

variable {a : DateTime}

/-- The days before a date, located: its year, its month and its day. -/
theorem located (h : a.Proper) {k : Nat} (inside : a.syear.toNat - 1970 < k) :
    ∃ r, locate (blocks yearLength 1970 k) (epochDays a) = some (a.syear.toNat - 1970, r) ∧
      locate (blocks (monthLength a.syear.toNat) 1 12) r = some (a.smon.toNat - 1, a.sday.toNat - 1) := by
  have first := h.year
  obtain ⟨firstMonth, lastMonth⟩ := h.month
  obtain ⟨firstDay, lastDay⟩ := h.day
  have year : 1970 + (a.syear.toNat - 1970) = a.syear.toNat := by omega
  have month : 1 + (a.smon.toNat - 1) = a.smon.toNat := by omega
  have months : locate (blocks (monthLength a.syear.toNat) 1 12)
      ((blocks (monthLength a.syear.toNat) 1 (a.smon.toNat - 1)).sum + (a.sday.toNat - 1)) = some (a.smon.toNat - 1, a.sday.toNat - 1) := by
    apply locate_blocks_iff.mpr
    rw [month]
    exact ⟨by omega, by omega, rfl⟩
  have inYear := locate_lt_sum months
  rw [sum_months] at inYear
  refine ⟨_, ?_, months⟩
  apply locate_blocks_iff.mpr
  rw [year]
  exact ⟨inside, inYear, Nat.add_assoc _ _ _⟩

/-- The years that a count of days reaches. -/
theorem epochDays_lt_iff (h : a.Proper) (k : Nat) : epochDays a < (blocks yearLength 1970 k).sum ↔ a.syear.toNat - 1970 < k := by
  constructor
  · intro days
    by_contra late
    have before := blocks_sum_mono yearLength 1970 (Nat.le_of_not_lt late)
    unfold epochDays at days
    omega
  · intro inside
    obtain ⟨r, years, -⟩ := h.located inside
    exact locate_lt_sum years

theorem secondsOfDay_lt (h : a.Proper) : a.hour.toNat * 3600 + a.min.toNat * 60 + a.sec.toNat < 86400 := by
  have hour := h.hour
  have min := h.min
  have sec := h.sec
  omega

theorem epochSeconds_div (h : a.Proper) : epochSeconds a / 86400 = epochDays a := by
  have short := h.secondsOfDay_lt
  unfold epochSeconds
  omega

theorem epochSeconds_mod (h : a.Proper) : epochSeconds a % 86400 = a.hour.toNat * 3600 + a.min.toNat * 60 + a.sec.toNat := by
  have short := h.secondsOfDay_lt
  unfold epochSeconds
  omega

/-- The time of day of a count. -/
theorem time (h : a.Proper) : a.hour.toNat = epochSeconds a % 86400 / 3600 ∧ a.min.toNat = epochSeconds a % 86400 % 3600 / 60 ∧
    a.sec.toNat = epochSeconds a % 86400 % 3600 % 60 := by
  have hour := h.hour
  have min := h.min
  have sec := h.sec
  rw [h.epochSeconds_mod]
  omega

end DateTime.Proper

/-- Every 32-bit count is that of a date-time. -/
theorem exists_proper {n : Nat} (small : n < 4294967296) : ∃ a : DateTime, a.Proper ∧ epochSeconds a = n := by
  have inYears : n / 86400 < (blocks yearLength 1970 137).sum := by
    rw [sum_years_counted]
    omega
  obtain ⟨i, r, years⟩ := exists_locate inYears
  obtain ⟨early, inYear, before⟩ := locate_blocks_iff.mp years
  have inMonths : r < (blocks (monthLength (1970 + i)) 1 12).sum := by
    rw [sum_months]
    exact inYear
  obtain ⟨j, q, months⟩ := exists_locate inMonths
  obtain ⟨month, inMonth, beforeMonth⟩ := locate_blocks_iff.mp months
  have short := monthLength_le (1970 + i) (1 + j)
  have syear : (UInt16.ofNat (1970 + i)).toNat = 1970 + i := UInt16.toNat_ofNat_of_lt' (by show 1970 + i < 65536; omega)
  have smon : (UInt8.ofNat (1 + j)).toNat = 1 + j := UInt8.toNat_ofNat_of_lt' (by show 1 + j < 256; omega)
  have sday : (UInt8.ofNat (1 + q)).toNat = 1 + q := UInt8.toNat_ofNat_of_lt' (by show 1 + q < 256; omega)
  obtain ⟨hour, min, sec⟩ := timeOfDay_toNat n
  refine ⟨⟨UInt16.ofNat (1970 + i), UInt8.ofNat (1 + j), UInt8.ofNat (1 + q), UInt8.ofNat (n % 86400 / 3600),
    UInt8.ofNat (n % 86400 % 3600 / 60), UInt8.ofNat (n % 86400 % 3600 % 60)⟩, ⟨?_, ?_, ?_, ?_, ?_, ?_⟩, ?_⟩
  · show 1970 ≤ (UInt16.ofNat (1970 + i)).toNat
    omega
  · show 1 ≤ (UInt8.ofNat (1 + j)).toNat ∧ (UInt8.ofNat (1 + j)).toNat ≤ 12
    omega
  · show 1 ≤ (UInt8.ofNat (1 + q)).toNat ∧ (UInt8.ofNat (1 + q)).toNat ≤ monthLength (UInt16.ofNat (1970 + i)).toNat (UInt8.ofNat (1 + j)).toNat
    rw [syear, smon, sday]
    omega
  · show (UInt8.ofNat (n % 86400 / 3600)).toNat < 24
    omega
  · show (UInt8.ofNat (n % 86400 % 3600 / 60)).toNat < 60
    omega
  · show (UInt8.ofNat (n % 86400 % 3600 % 60)).toNat < 60
    omega
  · simp only [epochSeconds, epochDays, syear, smon, sday, hour, min, sec, Nat.add_sub_cancel_left]
    omega

/-- `RTC_Get` on the recomputing branch takes the count of a date-time apart into that date-time. -/
theorem rtcGet_epochSeconds {a : DateTime} (proper : a.Proper) (small : epochSeconds a < 4294967296) (s : Rtc)
    (stale : s.daycnt.toNat ≠ epochSeconds a / 86400) :
    ∃ t, rtcGet (s.store (epochSeconds a)) = some t ∧ t.calendar.dateTime = a ∧ t.Shows (epochSeconds a) := by
  have counted : epochDays a < (blocks yearLength 1970 137).sum := by
    rw [sum_years_counted, ← proper.epochSeconds_div]
    omega
  have inside := (proper.epochDays_lt_iff 137).mp counted
  obtain ⟨r, years, months⟩ := proper.located inside
  obtain ⟨firstMonth, lastMonth⟩ := proper.month
  have year : 1970 + (a.syear.toNat - 1970) = a.syear.toNat := Nat.add_sub_cancel' proper.year
  rw [← proper.epochSeconds_div] at years
  rw [← year] at months
  obtain ⟨week, known⟩ := rtcGetWeek_exists a.syear a.sday firstMonth lastMonth
  obtain ⟨hour, min, sec⟩ := proper.time
  have recomputed := newDay_of_locate (s.store (epochSeconds a)) years (by omega) months
  rw [year, Nat.sub_add_cancel firstMonth, Nat.sub_add_cancel proper.day.1, UInt16.ofNat_toNat, UInt8.ofNat_toNat, UInt8.ofNat_toNat]
    at recomputed
  have daycnt : (UInt16.ofNat (epochSeconds a / 86400)).toNat = epochSeconds a / 86400 :=
    UInt16.toNat_ofNat_of_lt' (by show epochSeconds a / 86400 < 65536; omega)
  let t : Rtc := { s.store (epochSeconds a) with
    daycnt := UInt16.ofNat (epochSeconds a / 86400), calendar := ⟨a.hour, a.min, a.sec, a.syear, a.smon, a.sday, week⟩ }
  have fields : t.calendar.dateTime = a := rfl
  refine ⟨t, ?_, fields, ?_, ?_, known, daycnt⟩
  rotate_left
  · rw [fields]
    exact proper
  · rw [fields]
  have other : (s.store (epochSeconds a)).daycnt.toNat ≠ (s.store (epochSeconds a)).timecount / 86400 := by
    rw [timecount_store s small, Rtc.store_daycnt]
    exact stale
  rw [rtcGet_of_stale other, timecount_store s small, recomputed, Option.bind_some, known, Option.map_some, Rtc.showTime,
    ← hour, ← min, ← sec]
  simp only [UInt8.ofNat_toNat, t]

namespace DateTime.Real

variable {a : DateTime}

theorem accepts (h : a.Real) : RtcSetAccepts a := by
  obtain ⟨first, last⟩ := h.year
  unfold RtcSetAccepts
  omega

theorem proper (h : a.Real) : a.Proper := (a.real_iff.mp h).1

theorem epochSeconds_lt (h : a.Real) : epochSeconds a < 4294967296 := by
  obtain ⟨first, last⟩ := h.year
  have days := (h.proper.epochDays_lt_iff 130).mpr (by omega)
  rw [sum_years, ← h.proper.epochSeconds_div] at days
  omega

theorem rtcSeccount (h : a.Real) : rtcSeccount a = some (epochSeconds a) := by
  rw [rtcSeccount_eq h.year.1 h.month.1 h.month.2 h.day.1, Nat.mod_eq_of_lt h.epochSeconds_lt]

end DateTime.Real

/-- The counts up to the end of 2099 are those of the real date-times. -/
theorem DateTime.Proper.real_of_le {a : DateTime} (proper : a.Proper) (last : epochSeconds a ≤ 4102444799) : a.Real := by
  have days : epochDays a < (blocks yearLength 1970 130).sum := by
    rw [sum_years, ← proper.epochSeconds_div]
    omega
  have inside := (proper.epochDays_lt_iff 130).mp days
  exact a.real_iff.mpr ⟨proper, by omega⟩

/-- The registers hold the count that they were read for. -/
theorem Rtc.store_timecount (s : Rtc) : s.store s.timecount = s := by
  obtain ⟨cnth, cntl, daycnt, calendar⟩ := s
  have high := cnth.toNat_lt
  have low := cntl.toNat_lt
  have count : Rtc.timecount ⟨cnth, cntl, daycnt, calendar⟩ = cnth.toNat * 65536 + cntl.toNat := by
    have whole : (cnth.toNat : Int) * 65536 + cntl.toNat = ((cnth.toNat * 65536 + cntl.toNat : Nat) : Int) := by omega
    rw [Rtc.timecount, whole, uint32_natCast, Nat.mod_eq_of_lt (by omega)]
  have upper : UInt16.ofNat ((cnth.toNat * 65536 + cntl.toNat) / 65536) = cnth := by
    rw [show (cnth.toNat * 65536 + cntl.toNat) / 65536 = cnth.toNat by omega, UInt16.ofNat_toNat]
  have lower : UInt16.ofNat (cnth.toNat * 65536 + cntl.toNat) = cntl := by
    apply UInt16.toNat_inj.mp
    rw [UInt16.toNat_ofNat']
    omega
  rw [Rtc.store, count, upper, lower]

/-- `RTC_Get` only reads the counter. -/
theorem rtcGet_timecount {s t : Rtc} (got : rtcGet s = some t) : t.timecount = s.timecount := by
  by_cases kept : s.daycnt.toNat = s.timecount / 86400
  · rw [rtcGet_of_kept kept] at got
    obtain ⟨week, -, rfl⟩ := Option.map_eq_some_iff.mp got
    rfl
  · rw [rtcGet_of_stale kept] at got
    obtain ⟨s', day, got⟩ := Option.bind_eq_some_iff.mp got
    obtain ⟨week, -, rfl⟩ := Option.map_eq_some_iff.mp got
    obtain ⟨date, -, decoded⟩ := Option.bind_eq_some_iff.mp day
    obtain rfl := Option.some.inj decoded
    rfl

/-- `RTC_Set` of a date-time that exists stores its count, and then reads it. -/
theorem DateTime.Real.rtcSet {a : DateTime} (real : a.Real) (s : Rtc) :
    rtcSet a s = (rtcGet (s.store (epochSeconds a))).map fun t => (0, t) := by
  unfold DoorSecurity.rtcSet
  rw [if_pos real.accepts, real.rtcSeccount]
  cases got : rtcGet (s.store (epochSeconds a)) <;> simp [got]

/-- `RTC_Set` of `a` stores `n`: it takes `a`, its sum is `n`, and where it returns the counter holds `n`. -/
structure RtcSetStores (a : DateTime) (n : Nat) : Prop where
  accepts : RtcSetAccepts a
  seccount : rtcSeccount a = some n
  stored : ∀ {s r t}, rtcSet a s = some (r, t) → r = 0 ∧ t.timecount = n

theorem DateTime.Real.stores {a : DateTime} (real : a.Real) : RtcSetStores a (epochSeconds a) where
  accepts := real.accepts
  seccount := real.rtcSeccount
  stored {s r t} returned := by
    rw [real.rtcSet] at returned
    obtain ⟨u, got, pair⟩ := Option.map_eq_some_iff.mp returned
    obtain ⟨rfl, rfl⟩ := Prod.mk.inj pair
    exact ⟨rfl, (rtcGet_timecount got).trans (timecount_store s real.epochSeconds_lt)⟩

/-- **`RTC_Set` and `RTC_Get`'s day recomputation are inverse to each other**: for every real
date-time from 1970 to 2099, `RTC_Set` stores a count of 32 bits, and it and any later `RTC_Get` that
recomputes the day show the date-time again; and for every count that one of them has, `RTC_Set` of the
fields which `RTC_Get` decodes stores the count, also in the state that this `RTC_Get` leaves. -/
theorem rtc_set_get_inverse :
    (∀ a : DateTime, a.Real → RtcSetStores a (epochSeconds a) ∧ epochSeconds a < 2 ^ 32 ∧
      (∀ s : Rtc, s.daycnt.toNat ≠ epochSeconds a / 86400 →
        ∃ t, rtcSet a s = some (0, t) ∧ t.timecount = epochSeconds a ∧ t.calendar.dateTime = a) ∧
      ∀ s : Rtc, s.timecount = epochSeconds a → s.daycnt.toNat ≠ epochSeconds a / 86400 →
        ∃ t, rtcGet s = some t ∧ t.calendar.dateTime = a) ∧
    ∀ n ≤ 4102444799, ∀ s : Rtc, s.timecount = n → s.daycnt.toNat ≠ n / 86400 →
      ∃ t, rtcGet s = some t ∧ RtcSetStores t.calendar.dateTime n ∧
        ∃ t', rtcSet t.calendar.dateTime t = some (0, t') ∧ t'.timecount = n := by
  constructor
  · intro a real
    have small := real.epochSeconds_lt
    refine ⟨real.stores, small, fun s stale => ?_, fun s count stale => ?_⟩
    · obtain ⟨t, got, fields, -⟩ := rtcGet_epochSeconds real.proper small s stale
      have answer : rtcSet a s = some (0, t) := by rw [real.rtcSet, got, Option.map_some]
      exact ⟨t, answer, (real.stores.stored answer).2, fields⟩
    · obtain ⟨t, got, fields, -⟩ := rtcGet_epochSeconds real.proper small s stale
      rw [← count, s.store_timecount] at got
      exact ⟨t, got, fields⟩
  · rintro n last s count stale
    obtain ⟨a, proper, rfl⟩ := exists_proper (show n < 4294967296 by omega)
    have real := proper.real_of_le last
    obtain ⟨t, got, fields, shows⟩ := rtcGet_epochSeconds proper real.epochSeconds_lt s stale
    rw [← count, s.store_timecount] at got
    refine ⟨t, got, fields ▸ real.stores, ?_⟩
    -- in `t` the day is the kept one
    have counted : t.timecount = epochSeconds a := (rtcGet_timecount got).trans count
    have kept : t.daycnt.toNat = t.timecount / 86400 := by rw [shows.daycnt, counted]
    have again : rtcGet t = some (t.showTime (t.timecount % 86400) t.calendar.week) := by
      rw [rtcGet_of_kept kept, shows.week, Option.map_some]
    have answer : rtcSet a t = some (0, t.showTime (t.timecount % 86400) t.calendar.week) := by
      rw [real.rtcSet, ← counted, t.store_timecount, again, Option.map_some]
    rw [fields]
    exact ⟨_, answer, (real.stores.stored answer).2⟩

theorem rtc_set_get_inverse_leapDay :
    ∃ t, rtcSet ⟨2020, 2, 29, 12, 30, 45⟩ ⟨0, 0, 0, ⟨0, 0, 0, 0, 0, 0, 0⟩⟩ = some (0, t) ∧
      t.timecount = epochSeconds ⟨2020, 2, 29, 12, 30, 45⟩ ∧ t.calendar.dateTime = ⟨2020, 2, 29, 12, 30, 45⟩ := by
  have real : DateTime.Real ⟨2020, 2, 29, 12, 30, 45⟩ := ⟨by decide, by decide, by decide, by decide, by decide, by decide⟩
  have inverse := rtc_set_get_inverse.1 _ real
  apply inverse.2.2.1
  decide

end DoorSecurity
