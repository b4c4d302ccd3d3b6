import DoorSecurity.Clock.Calls

/-!
# The clock on the display (`clock_demo`)

The interrupt of every second reads the clock and writes the date and the time of
day into two static arrays. The arrays are as long as the digits and separators of a
two-digit year and of a time without the byte that ends a string.
-/

namespace DoorSecurity
set_option autoImplicit false

/-- `%.2d` of a number that is not negative. -/
def fmt2d (n : Nat) : List Char := List.leftpad 2 '0' (Nat.toDigits 10 n)

/-- `sprintf` with three numbers and a separator: the bytes written, the last one `\0`. -/
def sprintf3 (separator : Char) (a b c : Nat) : List Char :=
  fmt2d a ++ [separator] ++ fmt2d b ++ [separator] ++ fmt2d c ++ [Char.ofNat 0]

/-- What a `sprintf` writes, and the size of the array that it writes to. -/
structure Written where
  size : Nat
  bytes : List Char

def Written.Fits (w : Written) : Prop := w.bytes.length ≤ w.size

/-- `year_mon_dat` and `hour_min_sec` as `clock_demo` writes them. -/
def clockDemo (calendar : Calendar) : List Written :=
  [⟨10, sprintf3 '-' calendar.wYear.toNat calendar.wMonth.toNat calendar.wDate.toNat⟩,
    ⟨8, sprintf3 ':' calendar.hour.toNat calendar.min.toNat calendar.sec.toNat⟩]

/-- The body of `RTC_IRQHandler` for a second's flag: `RTC_Get` on the count it reads, then `clock_demo`. -/
def rtcIrqHandler (s : Rtc) (count : Nat) : Option (Rtc × List Written) :=
  (rtcGet (s.store count)).map fun t => (t, clockDemo t.calendar)

theorem fmt2d_length (n : Nat) : (fmt2d n).length = max 2 (Nat.toDigits 10 n).length := by
  rw [fmt2d, List.length_leftpad]

theorem fmt2d_length_two {n : Nat} (small : n < 100) : (fmt2d n).length = 2 := by
  have digits := (Nat.length_toDigits_le_iff (b := 10) (n := n) (k := 2) (by decide) (by decide)).mpr small
  rw [fmt2d_length]
  omega

theorem fmt2d_length_four {n : Nat} (lower : 1000 ≤ n) (upper : n < 10000) : (fmt2d n).length = 4 := by
  have least := Nat.length_toDigits_le_iff (b := 10) (n := n) (k := 3) (by decide) (by decide)
  have most := (Nat.length_toDigits_le_iff (b := 10) (n := n) (k := 4) (by decide) (by decide)).mpr upper
  rw [fmt2d_length]
  omega

theorem sprintf3_length (separator : Char) (a b c : Nat) :
    (sprintf3 separator a b c).length = (fmt2d a).length + (fmt2d b).length + (fmt2d c).length + 3 := by
  simp only [sprintf3, List.length_append, List.length_singleton]
  omega

theorem showTime_lt (s : Rtc) (n : Nat) (week : UInt8) :
    (s.showTime (n % 86400) week).calendar.hour.toNat < 24 ∧ (s.showTime (n % 86400) week).calendar.min.toNat < 60 ∧
      (s.showTime (n % 86400) week).calendar.sec.toNat < 60 := by
  obtain ⟨hour, min, sec⟩ := timeOfDay_toNat n
  simp only [Rtc.showTime, hour, min, sec]
  omega

/-- The time of day is new in every call. -/
theorem rtcGet_time {s t : Rtc} (got : rtcGet s = some t) :
    t.calendar.hour.toNat < 24 ∧ t.calendar.min.toNat < 60 ∧ t.calendar.sec.toNat < 60 := by
  by_cases same : s.daycnt.toNat = s.timecount / 86400
  · rw [rtcGet_of_kept same] at got
    obtain ⟨week, -, rfl⟩ := Option.map_eq_some_iff.mp got
    exact showTime_lt s s.timecount week
  · rw [rtcGet_of_stale same] at got
    obtain ⟨s', -, last⟩ := Option.bind_eq_some_iff.mp got
    obtain ⟨week, -, rfl⟩ := Option.map_eq_some_iff.mp last
    exact showTime_lt s' s.timecount week

/-- `hour_min_sec`: eight characters and the end of the string. -/
theorem hourMinSec_length {s t : Rtc} (got : rtcGet s = some t) :
    (sprintf3 ':' t.calendar.hour.toNat t.calendar.min.toNat t.calendar.sec.toNat).length = 9 := by
  obtain ⟨hour, min, sec⟩ := rtcGet_time got
  rw [sprintf3_length, fmt2d_length_two (by omega), fmt2d_length_two (by omega), fmt2d_length_two (by omega)]

/-- `year_mon_dat`: a year of four digits. -/
theorem yearMonDat_length {c : Calendar} (real : c.dateTime.Real) : (sprintf3 '-' c.wYear.toNat c.wMonth.toNat c.wDate.toNat).length = 11 := by
  have year : 1970 ≤ c.wYear.toNat ∧ c.wYear.toNat ≤ 2099 := real.year
  have month : 1 ≤ c.wMonth.toNat ∧ c.wMonth.toNat ≤ 12 := real.month
  have day : c.wDate.toNat ≤ 31 := real.day.2.trans (monthLength_le _ _)
  rw [sprintf3_length, fmt2d_length_four (by omega) (by omega), fmt2d_length_two (by omega), fmt2d_length_two (by omega)]

/-- Each string that the handler writes for a count fits its array. -/
def ClockDemoFits (s : Rtc) (count : Nat) : Prop := ∃ t writes, rtcIrqHandler s count = some (t, writes) ∧ ∀ w ∈ writes, w.Fits

/-- Whatever is kept, the time of day runs over. -/
theorem not_clockDemoFits (s : Rtc) (count : Nat) : ¬ ClockDemoFits s count := by
  rintro ⟨t, writes, answer, fits⟩
  obtain ⟨u, got, pair⟩ := Option.map_eq_some_iff.mp answer
  obtain ⟨rfl, rfl⟩ := Prod.mk.inj pair
  have nine := hourMinSec_length got
  have eight : (sprintf3 ':' u.calendar.hour.toNat u.calendar.min.toNat u.calendar.sec.toNat).length ≤ 8 :=
    fits _ (List.mem_cons_of_mem _ List.mem_cons_self)
  omega

/-- **No count fits**: up to the end of 2099 both arrays are one byte short, and on a state whose
kept date is wrong the time's still is. -/
theorem clockDemo_overruns (s : Rtc) (count : Nat) :
    ¬ ClockDemoFits s count ∧ (count ≤ 4102444799 → s.Cached ∨ s.daycnt.toNat ≠ count / 86400 →
      ∃ t writes, rtcIrqHandler s count = some (t, writes) ∧ writes.length = 2 ∧ ∀ w ∈ writes, w.bytes.length = w.size + 1) := by
  refine ⟨not_clockDemoFits s count, fun last cache => ?_⟩
  obtain ⟨t, got, shows⟩ := rtcGet_shows (show count < 4294967296 by omega) cache
  have real := shows.proper.real_of_le (by rw [shows.count]; exact last)
  refine ⟨t, clockDemo t.calendar, by rw [rtcIrqHandler, got]; rfl, rfl, ?_⟩
  intro w written
  obtain rfl | rfl := List.mem_pair.mp written
  · rw [yearMonDat_length real]
  · rw [hourMinSec_length got]

/-- The last second of 2099. -/
theorem clockDemo_overruns_lastSecond :
    ∃ t writes, rtcIrqHandler (.start 0 0) 4102444799 = some (t, writes) ∧ writes.length = 2 ∧
      ∀ w ∈ writes, w.bytes.length = w.size + 1 :=
  (clockDemo_overruns (.start 0 0) 4102444799).2 (by decide) (.inr (by decide))

/-- The first second of 2021: `"2021-01-01"` and `"00:00:00"` with their ends. -/
theorem newYear_overruns :
    (∃ t, rtcIrqHandler (.start 0 0) 1609459200 = some (t, [⟨10, sprintf3 '-' 2021 1 1⟩, ⟨8, sprintf3 ':' 0 0 0⟩])) ∧
      (sprintf3 '-' 2021 1 1).length = 11 ∧ (sprintf3 ':' 0 0 0).length = 9 ∧ ¬ ClockDemoFits (.start 0 0) 1609459200 := by
  have real : DateTime.Real ⟨2021, 1, 1, 0, 0, 0⟩ := ⟨by decide, by decide, by decide, by decide, by decide, by decide⟩
  have count : epochSeconds ⟨2021, 1, 1, 0, 0, 0⟩ = 1609459200 := by decide +kernel
  obtain ⟨t, got, fields, -⟩ := rtcGet_epochSeconds real.proper real.epochSeconds_lt (.start 0 0) (by rw [count]; decide)
  obtain ⟨year, month, date, hour, min, sec⟩ := DateTime.mk.inj fields
  refine ⟨⟨t, ?_⟩, by decide, by decide, not_clockDemoFits _ _⟩
  rw [count] at got
  rw [rtcIrqHandler, got, Option.map_some, clockDemo, year, month, date, hour, min, sec]
  rfl

end DoorSecurity
