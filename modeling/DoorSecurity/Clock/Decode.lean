import DoorSecurity.Clock.Dates

/-!
# Every count, decoded

`RTC_Get`'s loops take each of the 2^32 counts apart into a date-time that exists,
and later counts into later date-times; a call on the day that they have decoded
before keeps the date. Up to 2099 the weekday of `RTC_Get_Week`, which knows
centuries and a table, is that of the day count.
-/

namespace DoorSecurity
set_option autoImplicit false
open Blocks

/-- The fields, the larger unit first. Lists are compared lexicographically. -/
def DateTime.key (a : DateTime) : List Nat := [a.syear.toNat, a.smon.toNat, a.sday.toNat, a.hour.toNat, a.min.toNat, a.sec.toNat]

namespace DateTime

variable {a b : DateTime}

theorem key_injective (same : a.key = b.key) : a = b := by
  simp only [key, List.cons.injEq, UInt16.toNat_inj, UInt8.toNat_inj] at same
  obtain ⟨syear, smon, sday, hour, min, sec, -⟩ := same
  exact DateTime.ext syear smon sday hour min sec

theorem key_lt_iff : a.key < b.key ↔
    a.syear.toNat < b.syear.toNat ∨ a.syear.toNat = b.syear.toNat ∧ (a.smon.toNat < b.smon.toNat ∨
      a.smon.toNat = b.smon.toNat ∧ (a.sday.toNat < b.sday.toNat ∨ a.sday.toNat = b.sday.toNat ∧
        (a.hour.toNat < b.hour.toNat ∨ a.hour.toNat = b.hour.toNat ∧
          (a.min.toNat < b.min.toNat ∨ a.min.toNat = b.min.toNat ∧ a.sec.toNat < b.sec.toNat)))) := by
  simp only [key, List.cons_lt_cons_iff, List.lt_irrefl, and_false, or_false]

namespace Proper

/-- A day of an earlier year has fewer days before it. -/
theorem epochDays_lt_of_year (ha : a.Proper) (earlier : a.syear.toNat < b.syear.toNat) : epochDays a < epochDays b := by
  have first := ha.year
  have inside := (ha.epochDays_lt_iff (a.syear.toNat - 1970 + 1)).mpr (Nat.lt_succ_self _)
  have before := blocks_sum_mono yearLength 1970 (show a.syear.toNat - 1970 + 1 ≤ b.syear.toNat - 1970 by omega)
  have after : (blocks yearLength 1970 (b.syear.toNat - 1970)).sum ≤ epochDays b := by
    unfold epochDays
    omega
  omega

/-- So has a day of an earlier month of the year. -/
theorem epochDays_lt_of_month (ha : a.Proper) (year : a.syear.toNat = b.syear.toNat)
    (earlier : a.smon.toNat < b.smon.toNat) : epochDays a < epochDays b := by
  obtain ⟨first, -⟩ := ha.month
  obtain ⟨firstDay, lastDay⟩ := ha.day
  have whole := blocks_sum_add_le (monthLength a.syear.toNat) 1 (show a.smon.toNat - 1 < b.smon.toNat - 1 by omega)
  rw [Nat.add_sub_cancel' first] at whole
  unfold epochDays
  rw [← year]
  omega

theorem epochSeconds_lt_of_day (ha : a.Proper) (hb : b.Proper) (earlier : epochDays a < epochDays b) :
    epochSeconds a < epochSeconds b := by
  rw [← ha.epochSeconds_div, ← hb.epochSeconds_div] at earlier
  exact Nat.lt_of_div_lt_div earlier

/-- **Later counts are those of later date-times.** -/
theorem epochSeconds_lt_of_key (ha : a.Proper) (hb : b.Proper) (earlier : a.key < b.key) : epochSeconds a < epochSeconds b := by
  have minA := ha.min
  have secA := ha.sec
  have hourA := ha.hour
  rcases key_lt_iff.mp earlier with year | ⟨year, month | ⟨month, rest⟩⟩
  · exact ha.epochSeconds_lt_of_day hb (ha.epochDays_lt_of_year year)
  · exact ha.epochSeconds_lt_of_day hb (ha.epochDays_lt_of_month year month)
  · obtain ⟨firstDay, -⟩ := ha.day
    have days : epochDays a + b.sday.toNat = epochDays b + a.sday.toNat := by
      obtain ⟨firstDay', -⟩ := hb.day
      unfold epochDays
      rw [year, month]
      omega
    unfold epochSeconds
    omega

theorem epochSeconds_lt_iff (ha : a.Proper) (hb : b.Proper) : epochSeconds a < epochSeconds b ↔ a.key < b.key := by
  constructor
  · intro lt
    rcases lt_trichotomy a.key b.key with earlier | same | later
    · exact earlier
    · rw [key_injective same] at lt
      exact absurd lt (Nat.lt_irrefl _)
    · exact absurd lt (Nat.lt_asymm (hb.epochSeconds_lt_of_key ha later))
  · exact ha.epochSeconds_lt_of_key hb

theorem epochSeconds_inj (ha : a.Proper) (hb : b.Proper) (same : epochSeconds a = epochSeconds b) : a = b := by
  rcases lt_trichotomy a.key b.key with earlier | equal | later
  · exact absurd same (Nat.ne_of_lt (ha.epochSeconds_lt_of_key hb earlier))
  · exact key_injective equal
  · exact absurd same.symm (Nat.ne_of_lt (hb.epochSeconds_lt_of_key ha later))

end Proper

end DateTime

/-- `RTC_Get` answers for every count on the recomputing branch. -/
theorem rtcGet_fresh {n : Nat} (small : n < 4294967296) (s : Rtc) (stale : s.daycnt.toNat ≠ n / 86400) :
    ∃ t, rtcGet (s.store n) = some t ∧ t.Shows n := by
  obtain ⟨a, proper, rfl⟩ := exists_proper small
  obtain ⟨t, got, -, shows⟩ := rtcGet_epochSeconds proper small s stale
  exact ⟨t, got, shows⟩

theorem Rtc.Shows.year_le {t : Rtc} {n : Nat} (small : n < 4294967296) (shows : t.Shows n) : t.calendar.dateTime.syear.toNat ≤ 2106 := by
  have days : epochDays t.calendar.dateTime < (blocks yearLength 1970 137).sum := by
    rw [sum_years_counted, ← shows.proper.epochSeconds_div, shows.count]
    omega
  have inside := (shows.proper.epochDays_lt_iff 137).mp days
  omega

section Cache

variable {s t : Rtc} {n : Nat} {a : DateTime}

/-- The kept date is that of the kept day. -/
structure Rtc.Cached (s : Rtc) : Prop where
  proper : s.calendar.dateTime.Proper
  day : epochDays s.calendar.dateTime = s.daycnt.toNat

theorem Rtc.Shows.cached (shows : t.Shows n) : t.Cached where
  proper := shows.proper
  day := by rw [← shows.proper.epochSeconds_div, shows.count, shows.daycnt]

theorem Calendar.eq_of_fields {c d : Calendar} (fields : c.dateTime = d.dateTime) (week : c.week = d.week) : c = d := by
  obtain ⟨year, month, date, hour, min, sec⟩ := DateTime.mk.inj fields
  cases c
  cases d
  rw [Calendar.mk.injEq]
  exact ⟨hour, min, sec, year, month, date, week⟩

/-- A count has one calendar. -/
theorem Rtc.Shows.calendar_eq (hs : s.Shows n) (ht : t.Shows n) : s.calendar = t.calendar := by
  have fields := hs.proper.epochSeconds_inj ht.proper (hs.count.trans ht.count.symm)
  obtain ⟨year, month, date, -⟩ := DateTime.mk.inj fields
  have week := hs.week
  rw [year, month, date] at week
  exact Calendar.eq_of_fields fields (Option.some.inj (week.symm.trans ht.week))

/-- The branch that keeps the date: the time of day is new. -/
theorem rtcGet_kept (small : n < 4294967296) (same : s.daycnt.toNat = n / 86400) :
    rtcGet (s.store n) = (rtcGetWeek s.calendar.wYear s.calendar.wMonth s.calendar.wDate).map ((s.store n).showTime (n % 86400)) := by
  have kept : (s.store n).daycnt.toNat = (s.store n).timecount / 86400 := by
    rw [timecount_store s small, Rtc.store_daycnt]
    exact same
  rw [rtcGet_of_kept kept, timecount_store s small, Rtc.store_calendar]

/-- A date with the time of day of a count. -/
theorem DateTime.Proper.atTime (proper : a.Proper) (n : Nat) :
    ({ a with hour := UInt8.ofNat (n % 86400 / 3600), min := UInt8.ofNat (n % 86400 % 3600 / 60),
              sec := UInt8.ofNat (n % 86400 % 3600 % 60) } : DateTime).Proper ∧
      epochSeconds { a with hour := UInt8.ofNat (n % 86400 / 3600), min := UInt8.ofNat (n % 86400 % 3600 / 60),
                            sec := UInt8.ofNat (n % 86400 % 3600 % 60) } = epochDays a * 86400 + n % 86400 := by
  obtain ⟨hour, min, sec⟩ := timeOfDay_toNat n
  refine ⟨⟨proper.year, proper.month, proper.day, ?_, ?_, ?_⟩, ?_⟩
  · show (UInt8.ofNat (n % 86400 / 3600)).toNat < 24
    omega
  · show (UInt8.ofNat (n % 86400 % 3600 / 60)).toNat < 60
    omega
  · show (UInt8.ofNat (n % 86400 % 3600 % 60)).toNat < 60
    omega
  · simp only [epochSeconds, hour, min, sec]
    show epochDays a * 86400 + _ + _ + _ = _
    omega

/-- **One call of `RTC_Get`** on a kept date, or on none that is the count's day, answers for the count. -/
theorem rtcGet_shows (small : n < 4294967296) (cache : s.Cached ∨ s.daycnt.toNat ≠ n / 86400) :
    ∃ t, rtcGet (s.store n) = some t ∧ t.Shows n := by
  by_cases same : s.daycnt.toNat = n / 86400
  · have cached := cache.resolve_right (not_not_intro same)
    have month : 1 ≤ s.calendar.wMonth.toNat ∧ s.calendar.wMonth.toNat ≤ 12 := cached.proper.month
    obtain ⟨week, known⟩ := rtcGetWeek_exists s.calendar.wYear s.calendar.wDate month.1 month.2
    obtain ⟨proper, count⟩ := cached.proper.atTime n
    refine ⟨(s.store n).showTime (n % 86400) week, by rw [rtcGet_kept small same, known, Option.map_some], proper, ?_, known, same⟩
    apply count.trans
    rw [cached.day, same]
    omega
  · exact rtcGet_fresh small s same

end Cache

/-- **Every 32-bit count is decoded** into a date-time that exists, with every table index in
bounds, and a later count into a later date-time: in the loops, and on the day that they have
decoded before. -/
theorem rtcGet_decodes :
    (∀ n < 2 ^ 32, ∀ s : Rtc, s.Cached ∨ s.daycnt.toNat ≠ n / 86400 →
      ∃ t, rtcGet (s.store n) = some t ∧ t.calendar.dateTime.Proper ∧ t.calendar.dateTime.syear.toNat ≤ 2106) ∧
    ∀ m n, m < n → n < 2 ^ 32 → ∀ s s' t t' : Rtc,
      s.Cached ∨ s.daycnt.toNat ≠ m / 86400 → s'.Cached ∨ s'.daycnt.toNat ≠ n / 86400 →
      rtcGet (s.store m) = some t → rtcGet (s'.store n) = some t' → t.calendar.dateTime.key < t'.calendar.dateTime.key := by
  constructor
  · intro n small s cache
    obtain ⟨t, got, shows⟩ := rtcGet_shows small cache
    exact ⟨t, got, shows.proper, shows.year_le small⟩
  · intro m n lt small s s' t t' cache cache' got got'
    obtain ⟨u, first, shows⟩ := rtcGet_shows (show m < 4294967296 by omega) cache
    obtain ⟨u', second, shows'⟩ := rtcGet_shows small cache'
    obtain rfl := Option.some.inj (first.symm.trans got)
    obtain rfl := Option.some.inj (second.symm.trans got')
    apply (shows.proper.epochSeconds_lt_iff shows'.proper).mp
    rw [shows.count, shows'.count]
    exact lt

theorem rtcGet_decodes_endOf2100 :
    ∃ t, rtcGet ((⟨0, 0, 0, ⟨0, 0, 0, 0, 0, 0, 0⟩⟩ : Rtc).store 4133980799) = some t ∧
      t.calendar.dateTime.Proper ∧ t.calendar.dateTime.syear.toNat ≤ 2106 :=
  rtcGet_decodes.1 4133980799 (by decide) _ (.inr (by decide))

/-- Up to 2099 every fourth year is a leap year. -/
theorem leapYear_iff {year : Nat} (first : 1901 ≤ year) (last : year ≤ 2099) : LeapYear year ↔ year % 4 = 0 := by
  unfold LeapYear
  omega

/-- The days of the years from 1970 on. -/
theorem sum_years_eq {k : Nat} (last : k ≤ 130) : (blocks yearLength 1970 k).sum = 365 * k + (k + 1) / 4 := by
  induction k with
  | zero => rfl
  | succ k ih =>
    have leap := leapYear_iff (show 1901 ≤ 1970 + k by omega) (show 1970 + k ≤ 2099 by omega)
    rw [blocks_sum_succ, ih (by omega), yearLength]
    simp only [leap]
    split <;> omega

/-- The table holds the days of the months before, a leap day apart, modulo 7. -/
theorem tableWeek_entry (year : Nat) {month : Nat} (first : 1 ≤ month) (last : month ≤ 12) :
    ∃ days, tableWeek[month - 1]? = some days ∧ days < 7 ∧
      (blocks (monthLength year) 1 (month - 1)).sum % 7 = (days + if LeapYear year ∧ 3 ≤ month then 1 else 0) % 7 := by
  by_cases leap : LeapYear year <;> interval_cases month <;> simp [tableWeek, blocks, List.range'_succ, monthLength, leap]

/-- The years' part of the weekday, counted from 1900. -/
theorem yearL_eq {year : Nat} (first : 1970 ≤ year) (last : year ≤ 2099) :
    (if year / 100 % 256 > 19 then year % 100 + 100 else year % 100) = year - 1900 := by
  split <;> omega

/-- The two counts of days agree modulo 7: `k` years from 1970, `m` days in the months before,
which the table knows as `days`. -/
theorem weekday_agrees {k days m sday : Nat} (late : Prop) [Decidable late] (small : days < 7) (byte : sday < 256) (first : 1 ≤ sday)
    (months : m % 7 = (days + if (k + 2) % 4 = 0 ∧ late then 1 else 0) % 7) :
    (if (k + 70) % 4 = 0 ∧ ¬ late then uint16 (((k + 70 + (k + 70) / 4) % 7 + sday + days : Nat) - 1)
      else (k + 70 + (k + 70) / 4) % 7 + sday + days) % 7 = (4 + (365 * k + (k + 1) / 4 + m + (sday - 1))) % 7 := by
  have quarters : (k + 70) / 4 = (k + 2) / 4 + 17 := by omega
  have short : (k + 70 + (k + 70) / 4) % 7 < 7 := Nat.mod_lt _ (by decide)
  have seventh : (k + 70 + (k + 70) / 4) % 7 = (k + (k + 2) / 4 + 3) % 7 := by omega
  have decrement : ∀ temp2 : Nat, 1 ≤ temp2 → temp2 < 65536 → uint16 ((temp2 : Int) - 1) = temp2 - 1 := by
    intro temp2 _ _
    unfold uint16
    omega
  by_cases leap : (k + 2) % 4 = 0
  · have next : (k + 2) / 4 = (k + 1) / 4 + 1 := by omega
    by_cases l : late
    · rw [if_pos ⟨leap, l⟩] at months
      rw [if_neg fun c => c.2 l]
      omega
    · rw [if_neg fun c => l c.2] at months
      rw [if_pos ⟨by omega, l⟩, decrement _ (by omega) (by omega)]
      omega
  · have next : (k + 2) / 4 = (k + 1) / 4 := by omega
    rw [if_neg fun c => leap c.1] at months
    rw [if_neg fun c => leap (by omega)]
    omega

/-- **The weekday of a date up to 2099** is that of the days before it: 1970 began on a Thursday. -/
theorem rtcGetWeek_eq {a : DateTime} (real : a.Real) : rtcGetWeek a.syear a.smon a.sday = some (UInt8.ofNat ((4 + epochDays a) % 7)) := by
  obtain ⟨first, last⟩ := real.year
  obtain ⟨k, year⟩ : ∃ k, a.syear.toNat = 1970 + k := ⟨a.syear.toNat - 1970, by omega⟩
  have since1900 : a.syear.toNat - 1900 = k + 70 := by
    rw [year]
    omega
  have since1970 : a.syear.toNat - 1970 = k := by rw [year, Nat.add_sub_cancel_left]
  obtain ⟨firstMonth, lastMonth⟩ := real.month
  obtain ⟨firstDay, -⟩ := real.day
  obtain ⟨days, entry, table, months⟩ := tableWeek_entry a.syear.toNat firstMonth lastMonth
  have leap : LeapYear a.syear.toNat ↔ (k + 2) % 4 = 0 := by
    rw [leapYear_iff (by omega) last]
    omega
  have early : a.smon < 3 ↔ ¬ 3 ≤ a.smon.toNat := UInt8.lt_iff_toNat_lt.trans Nat.not_le.symm
  have positive : a.smon ≠ 0 := by
    intro zero
    rw [zero] at firstMonth
    exact absurd firstMonth (by decide)
  have byte : a.sday.toNat < 256 := a.sday.toNat_lt
  have years := sum_years_eq (show k ≤ 130 by omega)
  simp only [leap] at months
  have agree := weekday_agrees (3 ≤ a.smon.toNat) table byte firstDay months
  unfold rtcGetWeek
  simp only [yearL_eq first last, if_neg positive, entry, Option.bind_eq_bind, Option.bind_some, early, since1900]
  rw [agree, epochDays, since1970, years]
  rfl

/-- **The weekday in the calendar** is that of the count, up to the end of 2099. -/
theorem rtcGet_week {n : Nat} (last : n ≤ 4102444799) (s : Rtc) (stale : s.daycnt.toNat ≠ n / 86400) :
    ∃ t, rtcGet (s.store n) = some t ∧ t.calendar.week.toNat = (4 + n / 86400) % 7 := by
  obtain ⟨t, got, shows⟩ := rtcGet_fresh (show n < 4294967296 by omega) s stale
  have real := shows.proper.real_of_le (by rw [shows.count]; exact last)
  have week := shows.week.symm.trans (rtcGetWeek_eq real)
  refine ⟨t, got, ?_⟩
  rw [Option.some.inj week, ← shows.proper.epochSeconds_div, shows.count]
  exact UInt8.toNat_ofNat_of_lt' (by show (4 + n / 86400) % 7 < 256; omega)

/-- 31 December 2099 is a Thursday. -/
theorem rtcGet_week_lastDay :
    ∃ t, rtcGet ((⟨0, 0, 0, ⟨0, 0, 0, 0, 0, 0, 0⟩⟩ : Rtc).store 4102444799) = some t ∧ t.calendar.week.toNat = (4 + 4102444799 / 86400) % 7 :=
  rtcGet_week (Nat.le_refl _) _ (by decide)

end DoorSecurity
