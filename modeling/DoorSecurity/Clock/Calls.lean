import DoorSecurity.Clock.Decode

/-!
# Calls of `RTC_Get` and `RTC_Set`

`RTC_Get` keeps the date of the day it last saw in a static variable that begins at
0, which is also the number of a day, with no date beside it. `RTC_Set` checks the
year and takes every month, day and time as they come.
-/

namespace DoorSecurity
set_option autoImplicit false

/-- `calendar` and `daycnt` at program start; the counter has gone on. -/
def Rtc.start (cnth cntl : UInt16) : Rtc := ⟨cnth, cntl, 0, ⟨0, 0, 0, 0, 0, 0, 0⟩⟩

/-- `RTC_Set_Uart`: the arguments as `atoi` returns them, cut to their variables. -/
def rtcSetUart (year mon day hour min sec : Int) (s : Rtc) : Option (UInt8 × Rtc) :=
  rtcSet ⟨UInt16.ofInt year, UInt8.ofInt mon, UInt8.ofInt day, UInt8.ofInt hour, UInt8.ofInt min, UInt8.ofInt sec⟩ s

section Set

variable {s t : Rtc} {a : DateTime}

/-- What the caller of `RTC_Set` relies on: an error changes nothing, and else the tuple exists and
the calendar shows it. No answer means a table index out of bounds. -/
def RtcSetSound (a : DateTime) (s : Rtc) : Prop :=
  ∃ r t, rtcSet a s = some (r, t) ∧
    ((r ≠ 0 ∧ t.cnth = s.cnth ∧ t.cntl = s.cntl ∧ t.calendar = s.calendar) ∨ (a.Real ∧ t.calendar.dateTime = a))

/-- The calendar shows the date already. -/
def Calendar.ShowsDate (c : Calendar) (a : DateTime) : Prop := c.wYear = a.syear ∧ c.wMonth = a.smon ∧ c.wDate = a.sday

instance (c : Calendar) (a : DateTime) : Decidable (c.ShowsDate a) := inferInstanceAs (Decidable (_ ∧ _))

theorem rtcSet_refused (refused : ¬ RtcSetAccepts a) (s : Rtc) : rtcSet a s = some (1, s) := if_neg refused

theorem rtcSet_accepted (accepts : RtcSetAccepts a) (s : Rtc) :
    rtcSet a s = (rtcSeccount a).bind fun seccount => (rtcGet (s.store seccount)).map fun t => (0, t) := by
  unfold rtcSet
  rw [if_pos accepts]
  cases rtcSeccount a with
  | none => rfl
  | some seccount => cases h : rtcGet (s.store seccount) <;> simp [h]

/-- An accepted tuple that does not exist is taken all the same. -/
theorem not_sound_of_not_real (accepts : RtcSetAccepts a) (unreal : ¬ a.Real) (s : Rtc) : ¬ RtcSetSound a s := by
  rintro ⟨r, t, answer, ⟨failed, -⟩ | ⟨real, -⟩⟩
  · rw [rtcSet_accepted accepts] at answer
    obtain ⟨seccount, -, got⟩ := Option.bind_eq_some_iff.mp answer
    obtain ⟨u, -, pair⟩ := Option.map_eq_some_iff.mp got
    exact failed (Prod.mk.inj pair).1.symm
  · exact unreal real

/-- The branch that keeps the date keeps it. -/
theorem rtcGet_kept_date {n : Nat} (small : n < 4294967296) (same : s.daycnt.toNat = n / 86400) (got : rtcGet (s.store n) = some t) :
    t.calendar.wYear = s.calendar.wYear ∧ t.calendar.wMonth = s.calendar.wMonth ∧ t.calendar.wDate = s.calendar.wDate := by
  rw [rtcGet_kept small same] at got
  obtain ⟨week, -, rfl⟩ := Option.map_eq_some_iff.mp got
  exact ⟨rfl, rfl, rfl⟩

/-- For a date-time that exists `RTC_Get` shows it, unless its day is kept with another date. -/
theorem rtcSet_real_iff (real : a.Real) (s : Rtc) :
    RtcSetSound a s ↔ s.daycnt.toNat ≠ epochDays a ∨ s.calendar.ShowsDate a := by
  have small := real.epochSeconds_lt
  have days := real.proper.epochSeconds_div
  have answers := real.rtcSet s
  constructor
  · rintro ⟨r, t, answer, outcome⟩
    rw [answers] at answer
    obtain ⟨u, got, pair⟩ := Option.map_eq_some_iff.mp answer
    obtain ⟨rfl, rfl⟩ := Prod.mk.inj pair
    have fields := (outcome.resolve_left fun c => c.1 rfl).2
    rw [or_iff_not_imp_left, not_ne_iff]
    intro same
    obtain ⟨year, month, date⟩ := rtcGet_kept_date small (same.trans days.symm) got
    rw [← fields]
    exact ⟨year.symm, month.symm, date.symm⟩
  · intro cache
    by_cases same : s.daycnt.toNat = epochDays a
    · obtain ⟨year, month, date⟩ := cache.resolve_left (not_not_intro same)
      obtain ⟨week, known⟩ := rtcGetWeek_exists a.syear a.sday real.month.1 real.month.2
      rw [← year, ← month, ← date] at known
      obtain ⟨hour, min, sec⟩ := real.proper.time
      have got : rtcGet (s.store (epochSeconds a)) = some ((s.store (epochSeconds a)).showTime (epochSeconds a % 86400) week) := by
        rw [rtcGet_kept small (same.trans days.symm), known, Option.map_some]
      refine ⟨0, _, by rw [answers, got, Option.map_some], .inr ⟨real, ?_⟩⟩
      rw [Rtc.showTime_dateTime, Rtc.store_calendar, year, month, date, ← hour, ← min, ← sec, UInt8.ofNat_toNat, UInt8.ofNat_toNat,
        UInt8.ofNat_toNat]
    · obtain ⟨t, got, fields, -⟩ := rtcGet_epochSeconds real.proper small s (by rw [days]; exact same)
      exact ⟨0, t, by rw [answers, got]; rfl, .inr ⟨real, fields⟩⟩

/-- **`RTC_Set` is sound exactly** on the years it refuses and on the date-times that exist, where
the kept date does not get in the way. -/
theorem rtcSetSound_iff (a : DateTime) (s : Rtc) :
    RtcSetSound a s ↔ ¬ RtcSetAccepts a ∨ (a.Real ∧ (s.daycnt.toNat ≠ epochDays a ∨ s.calendar.ShowsDate a)) := by
  by_cases accepts : RtcSetAccepts a
  · rw [or_iff_right (not_not_intro accepts)]
    by_cases real : a.Real
    · rw [rtcSet_real_iff real, and_iff_right real]
    · exact iff_of_false (not_sound_of_not_real accepts real s) fun c => real c.1
  · exact iff_of_true ⟨1, s, rtcSet_refused accepts s, .inl ⟨by decide, rfl, rfl, rfl⟩⟩ (.inl accepts)

/-- A kept date does not get in the way. -/
theorem Rtc.Cached.showsDate (cached : s.Cached) (proper : a.Proper) (same : s.daycnt.toNat = epochDays a) : s.calendar.ShowsDate a := by
  obtain ⟨kept, keptCount⟩ := cached.proper.atTime 0
  obtain ⟨given, givenCount⟩ := proper.atTime 0
  have fields := kept.epochSeconds_inj given (by rw [keptCount, givenCount, cached.day, same])
  obtain ⟨year, month, date, -⟩ := DateTime.mk.inj fields
  exact ⟨year, month, date⟩

/-- 30 February 2021 is set, as 2 March, and month 0 reads past the table. -/
theorem unreal_dates_set :
    (∃ t, rtcSetUart 2021 2 30 0 0 0 (.start 0 0) = some (0, t) ∧ t.calendar.dateTime = ⟨2021, 3, 2, 0, 0, 0⟩) ∧
      rtcSetUart 2021 0 1 0 0 0 (.start 0 0) = none ∧
      ¬ RtcSetSound ⟨2021, 2, 30, 0, 0, 0⟩ (.start 0 0) ∧ ¬ RtcSetSound ⟨2021, 0, 1, 0, 0, 0⟩ (.start 0 0) := by
  have march : DateTime.Real ⟨2021, 3, 2, 0, 0, 0⟩ := ⟨by decide, by decide, by decide, by decide, by decide, by decide⟩
  have count : rtcSeccount ⟨2021, 2, 30, 0, 0, 0⟩ = rtcSeccount ⟨2021, 3, 2, 0, 0, 0⟩ := by decide +kernel
  have noCount : rtcSeccount ⟨2021, 0, 1, 0, 0, 0⟩ = none := by decide +kernel
  obtain ⟨t, got, fields, -⟩ := rtcGet_epochSeconds march.proper march.epochSeconds_lt (.start 0 0) (by decide +kernel)
  refine ⟨⟨t, ?_, fields⟩, ?_, ?_, ?_⟩
  · show rtcSet ⟨2021, 2, 30, 0, 0, 0⟩ (.start 0 0) = _
    rw [rtcSet_accepted (by decide), count, march.rtcSeccount]
    show (rtcGet _).map _ = _
    rw [got]
    rfl
  · show rtcSet ⟨2021, 0, 1, 0, 0, 0⟩ (.start 0 0) = _
    rw [rtcSet_accepted (by decide), noCount]
    rfl
  · exact not_sound_of_not_real (by decide) (fun real => absurd real.day.2 (by decide)) _
  · exact not_sound_of_not_real (by decide) (fun real => absurd real.month.1 (by decide)) _

end Set

section Calls

/-- A call: `RTC_Get` with the count that it reads, or `RTC_Set`. A month that reads past
`mon_table` makes the sum anything, here `stray`. -/
inductive RtcCall where
  | get (count : UInt32)
  | set (a : DateTime) (stray : UInt32)

/-- The count that the call's `RTC_Get` reads; a refused `RTC_Set` does not call it. -/
def RtcCall.count : RtcCall → Option Nat
  | .get count => some count.toNat
  | .set a stray => if RtcSetAccepts a then some ((rtcSeccount a).getD stray.toNat) else none

/-- The state after a call, none when the weekday's table is read out of bounds. -/
def RtcCall.exec (s : Rtc) : RtcCall → Option Rtc
  | .get count => rtcGet (s.store count.toNat)
  | .set a stray => if RtcSetAccepts a then rtcGet (s.store ((rtcSeccount a).getD stray.toNat)) else some s

/-- The calendar is the one that `RTC_Get` converts the count to, whatever came before. -/
def Calendar.Fresh (c : Calendar) (n : Nat) : Prop :=
  ∀ s : Rtc, s.daycnt.toNat ≠ n / 86400 → (rtcGet (s.store n)).map Rtc.calendar = some c

/-- After each call the calendar is fresh, and the weekday's table is read in bounds. -/
def Coherent : List RtcCall → Rtc → Prop
  | [], _ => True
  | call :: calls, s => ∃ t, call.exec s = some t ∧ (∀ n, call.count = some n → t.calendar.Fresh n) ∧ Coherent calls t

variable {s t : Rtc} {call : RtcCall} {n : Nat}

theorem RtcCall.count_set (a : DateTime) (stray : UInt32) :
    (RtcCall.set a stray).count = if RtcSetAccepts a then some ((rtcSeccount a).getD stray.toNat) else none := rfl

theorem RtcCall.exec_set (s : Rtc) (a : DateTime) (stray : UInt32) :
    (RtcCall.set a stray).exec s = if RtcSetAccepts a then rtcGet (s.store ((rtcSeccount a).getD stray.toNat)) else some s := rfl

/-- The call of `RTC_Set` is that of the model where the table is read in bounds. -/
theorem RtcCall.exec_of_rtcSet {a : DateTime} {r : UInt8} (answer : rtcSet a s = some (r, t)) (stray : UInt32) :
    RtcCall.exec s (.set a stray) = some t := by
  rw [RtcCall.exec_set]
  by_cases accepts : RtcSetAccepts a
  · rw [rtcSet_accepted accepts] at answer
    obtain ⟨seccount, sum, mapped⟩ := Option.bind_eq_some_iff.mp answer
    obtain ⟨u, got, pair⟩ := Option.map_eq_some_iff.mp mapped
    obtain ⟨-, rfl⟩ := Prod.mk.inj pair
    rw [if_pos accepts, sum]
    exact got
  · rw [rtcSet_refused accepts] at answer
    rw [if_neg accepts, (Prod.mk.inj (Option.some.inj answer)).2]

theorem rtcSeccount_lt {a : DateTime} (sum : rtcSeccount a = some n) : n < 4294967296 := by
  unfold rtcSeccount at sum
  simp only [Option.bind_eq_bind, Option.pure_def, Option.bind_eq_some_iff, Option.some.injEq] at sum
  obtain ⟨seccount, -, rfl⟩ := sum
  rw [← Int.natCast_add, uint32_natCast]
  exact Nat.mod_lt _ (by decide)

theorem RtcCall.count_lt (counts : call.count = some n) : n < 4294967296 := by
  cases call with
  | get count =>
    obtain rfl := Option.some.inj counts
    exact count.toNat_lt
  | set a stray =>
    rw [RtcCall.count_set] at counts
    split at counts
    · obtain rfl := Option.some.inj counts
      cases sum : rtcSeccount a with
      | none => exact stray.toNat_lt
      | some seccount => exact rtcSeccount_lt sum
    · exact absurd counts.symm (Option.some_ne_none _)

/-- A call either reads a count, as `RTC_Get` does, or is refused. -/
theorem RtcCall.exec_of_count (counts : call.count = some n) : call.exec s = rtcGet (s.store n) := by
  cases call with
  | get count =>
    obtain rfl := Option.some.inj counts
    rfl
  | set a stray =>
    rw [RtcCall.count_set] at counts
    rw [RtcCall.exec_set]
    split at counts
    · rename_i accepts
      obtain rfl := Option.some.inj counts
      rw [if_pos accepts]
    · exact absurd counts.symm (Option.some_ne_none _)

theorem RtcCall.exec_of_refused (refused : call.count = none) : call.exec s = some s := by
  cases call with
  | get count => exact absurd refused (Option.some_ne_none _)
  | set a stray =>
    rw [RtcCall.count_set] at refused
    rw [RtcCall.exec_set]
    split at refused
    · exact absurd refused (Option.some_ne_none _)
    · rename_i accepts
      rw [if_neg accepts]

theorem Rtc.Shows.fresh (small : n < 4294967296) (shows : t.Shows n) : t.calendar.Fresh n := by
  intro s stale
  obtain ⟨u, got, showsToo⟩ := rtcGet_fresh small s stale
  rw [got, Option.map_some, showsToo.calendar_eq shows]

/-- **The cache's step lemma**: a call that may trust the kept date leaves a fresh calendar. -/
theorem RtcCall.shows (counts : call.count = some n) (cache : s.Cached ∨ s.daycnt.toNat ≠ n / 86400) :
    ∃ t, call.exec s = some t ∧ (∀ k, call.count = some k → t.calendar.Fresh k) ∧ t.Cached := by
  have small := RtcCall.count_lt counts
  obtain ⟨t, got, shows⟩ := rtcGet_shows small cache
  refine ⟨t, (RtcCall.exec_of_count counts).trans got, fun k other => ?_, shows.cached⟩
  obtain rfl := Option.some.inj (counts.symm.trans other)
  exact shows.fresh small

/-- From a kept date on every run is coherent. -/
theorem coherent_of_cached (calls : List RtcCall) : ∀ {s : Rtc}, s.Cached → Coherent calls s := by
  induction calls with
  | nil => intro s _; trivial
  | cons call calls ih =>
    intro s cached
    cases counts : call.count with
    | some n =>
      obtain ⟨t, exec, fresh, cached'⟩ := RtcCall.shows counts (.inl cached)
      exact ⟨t, exec, fresh, ih cached'⟩
    | none => exact ⟨s, RtcCall.exec_of_refused counts, by rw [counts]; rintro n ⟨⟩, ih cached⟩

/-- The first day's count finds month 0 and reads before the weekday's table. -/
theorem rtcGet_start_firstDay (cnth cntl : UInt16) (first : n < 86400) : rtcGet ((Rtc.start cnth cntl).store n) = none := by
  have day : (Rtc.start cnth cntl).daycnt.toNat = n / 86400 := (Nat.div_eq_of_lt first).symm
  rw [rtcGet_kept (by omega) day]
  rfl

/-- **The calendar is fresh after every call exactly** when the first count read is not of the
day that `daycnt` begins with. -/
theorem coherent_iff (calls : List RtcCall) (cnth cntl : UInt16) :
    Coherent calls (.start cnth cntl) ↔ ∀ n, (calls.filterMap RtcCall.count).head? = some n → 86400 ≤ n := by
  induction calls with
  | nil => exact iff_of_true trivial fun n none => absurd none.symm (Option.some_ne_none n)
  | cons call calls ih =>
    cases counts : call.count with
    | none =>
      rw [List.filterMap_cons_none counts, ← ih]
      constructor
      · rintro ⟨t, exec, -, rest⟩
        obtain rfl := Option.some.inj ((RtcCall.exec_of_refused counts).symm.trans exec)
        exact rest
      · intro rest
        exact ⟨_, RtcCall.exec_of_refused counts, by rw [counts]; rintro n ⟨⟩, rest⟩
    | some n =>
      rw [List.filterMap_cons_some counts]
      constructor
      · rintro ⟨t, exec, -, -⟩ k here
        obtain rfl := Option.some.inj here
        by_contra early
        rw [RtcCall.exec_of_count counts, rtcGet_start_firstDay cnth cntl (Nat.lt_of_not_le early)] at exec
        exact absurd exec.symm (Option.some_ne_none _)
      · intro late
        have day : (0 : Nat) ≠ n / 86400 := by
          have later := late n rfl
          omega
        obtain ⟨t, exec, fresh, cached⟩ := RtcCall.shows (s := .start cnth cntl) counts (.inr day)
        exact ⟨t, exec, fresh, coherent_of_cached calls cached⟩

/-- The first call reads the count 0: the weekday's table is read before its begin. -/
theorem first_day_not_converted : RtcCall.exec (.start 0 0) (.get 0) = none ∧ ¬ Coherent [.get 0] (.start 0 0) := by
  have exec : RtcCall.exec (.start 0 0) (.get 0) = none := rtcGet_start_firstDay 0 0 (show 0 < 86400 by decide)
  refine ⟨exec, ?_⟩
  rintro ⟨t, got, -⟩
  rw [exec] at got
  exact absurd got.symm (Option.some_ne_none t)

end Calls

end DoorSecurity
