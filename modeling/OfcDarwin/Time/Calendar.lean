import OfcDarwin.Lib.Gregorian
import OfcDarwin.Time.Model

/-!
# The two calendar algorithms compute the Gregorian calendar

`ofc_time_local_time` walks forward from 1970, subtracting years, and then
searches a table of months; `ofc_time_make_time` adds the years up again.

* `makeTime_localTime`: the second undoes the first, modulo `2 ^ 32`.  That is a
  matter of the two loops alone, whatever years have 366 days.

As long as `_ISLEAP` does not leave the range of an `int`, the years that have are
the Gregorian leap years, and both functions are compared with the closed-form day
count of `Lib/Gregorian.lean`.

* `localTime_spec`: the broken-down time of `t ≥ 0` is a valid date-time whose
  second count is `t`.
* `makeTime_eq`: the seconds of a valid date-time from 1970 on, modulo `2 ^ 32`.
* `localTime_seconds`: so the first undoes the second, by the uniqueness of the
  date-time of a second count.
-/

namespace OfcDarwin.Time

open Gregorian

/-- The date-time a `struct tm` describes. -/
def Tm.dateTime (tm : Tm) : DateTime :=
  { date := { year := tm.year + 1900, month := tm.mon + 1, day := tm.mday }
    hour := tm.hour
    minute := tm.min
    second := tm.sec }

theorem Tm.dateTime_injective {first second : Tm} (heq : first.dateTime = second.dateTime) :
    first = second := by
  obtain ⟨sec, min, hour, mday, mon, year⟩ := first
  obtain ⟨sec', min', hour', mday', mon', year'⟩ := second
  simp only [Tm.dateTime, DateTime.mk.injEq, Date.mk.injEq] at heq
  obtain ⟨⟨hyear, hmon, hmday⟩, hhour, hmin, hsec⟩ := heq
  rw [Tm.mk.injEq]
  exact ⟨hsec, hmin, hhour, hmday, by omega, by omega⟩

/-! ## Years -/

/-- Which years are leap years is one thing, and how long a year may be another. -/
theorem daysInYear_cases (y : ℤ) : daysInYear y = 365 ∨ daysInYear y = 366 := by
  unfold daysInYear
  split
  · exact Or.inr rfl
  · exact Or.inl rfl

/-- The loop of `ofc_time_local_time` ends inside a year, having gone over years of at
least 365 days. -/
theorem yearLoop_bounds (fuel : ℕ) {days year : ℤ} (hdays : 0 ≤ days) (hfuel : days ≤ fuel) :
    0 ≤ (yearLoop fuel days year).1 ∧
      (yearLoop fuel days year).1 < daysInYear (yearLoop fuel days year).2 ∧
      year ≤ (yearLoop fuel days year).2 ∧
      365 * ((yearLoop fuel days year).2 - year) ≤ days - (yearLoop fuel days year).1 := by
  induction fuel generalizing days year with
  | zero =>
      have hlength := daysInYear_cases year
      show 0 ≤ days ∧ days < daysInYear year ∧ year ≤ year ∧ 365 * (year - year) ≤ days - days
      omega
  | succ fuel ih =>
      have hlength := daysInYear_cases year
      rw [yearLoop]
      split
      · obtain ⟨h1, h2, h3, h4⟩ :=
          @ih (days - daysInYear year) (year + 1) (by omega) (by omega)
        exact ⟨h1, h2, by omega, by omega⟩
      · rename_i hend
        exact ⟨hdays, not_le.mp hend, le_rfl, by omega⟩

theorem addYears_add (tmYear : ℤ) (fuel : ℕ) (year days : ℤ) :
    addYears tmYear fuel year days = days + addYears tmYear fuel year 0 := by
  induction fuel generalizing year days with
  | zero => simp [addYears]
  | succ fuel ih =>
      rw [addYears, addYears]
      split
      · rw [ih, ih (year + 1) (0 + daysInYear year)]
        omega
      · omega

/-- The loop of `ofc_time_make_time` adds the days again that the loop of
`ofc_time_local_time` has taken, whatever years are leap years. -/
theorem addYears_yearLoop (fuel : ℕ) {days year : ℤ} (hdays : 0 ≤ days) (hfuel : days ≤ fuel) :
    addYears (yearLoop fuel days year).2 ((yearLoop fuel days year).2 - year).toNat year 0 =
      days - (yearLoop fuel days year).1 := by
  induction fuel generalizing days year with
  | zero =>
      show addYears year (year - year).toNat year 0 = days - days
      rw [sub_self, sub_self]
      rfl
  | succ fuel ih =>
      have hlength := daysInYear_cases year
      rw [yearLoop]
      split
      · have hleft : 0 ≤ days - daysInYear year := by omega
        have hend := (@yearLoop_bounds fuel _ (year + 1) hleft (by omega)).2.2.1
        have hnext := @ih _ (year + 1) hleft (by omega)
        generalize yearLoop fuel (days - daysInYear year) (year + 1) = found at hend hnext ⊢
        have hround : (found.2 - year).toNat = (found.2 - (year + 1)).toNat + 1 := by omega
        calc addYears found.2 (found.2 - year).toNat year 0
            = addYears found.2 (found.2 - (year + 1)).toNat (year + 1) (0 + daysInYear year) := by
              rw [hround, addYears, if_pos (by omega)]
          _ = 0 + daysInYear year +
                addYears found.2 (found.2 - (year + 1)).toNat (year + 1) 0 := addYears_add ..
          _ = days - found.1 := by
              rw [hnext]
              omega
      · show addYears year (year - year).toNat year 0 = days - days
        rw [sub_self, sub_self]
        rfl

theorem intAdd_eq {a b : ℤ} (hlow : -2 ^ 31 ≤ a + b) (hhigh : a + b < 2 ^ 31) :
    intAdd a b = a + b :=
  Int.bmod_eq_of_le (by omega) (by omega)

/-- `_ISLEAP` on years since 1900 is the Gregorian rule, as long as the year is an `int`. -/
theorem isleap_eq {y : ℤ} (hy : 0 ≤ y) (hint : y + 1900 < 2 ^ 31) :
    isleap y = isLeap (y + 1900) := by
  unfold isleap isLeap
  rw [intAdd_eq (by omega) hint, Int.tmod_eq_emod_of_nonneg hy, Int.tmod_eq_emod_of_nonneg hy,
    Int.tmod_eq_emod_of_nonneg (by omega), show (y + 1900) % 4 = y % 4 by omega,
    show (y + 1900) % 100 = y % 100 by omega]

theorem daysInYear_eq {y : ℤ} (hy : 0 ≤ y) (hint : y + 1900 < 2 ^ 31) :
    daysInYear y = Gregorian.daysInYear (y + 1900) := by
  rw [daysInYear, Gregorian.daysInYear, isleap_eq hy hint]

/-- One round of either loop over years. -/
theorem daysBeforeYear_round {y : ℤ} (hy : 0 ≤ y) (hint : y + 1900 < 2 ^ 31) :
    daysBeforeYear (y + 1 + 1900) = daysBeforeYear (y + 1900) + daysInYear y := by
  calc daysBeforeYear (y + 1 + 1900)
      = daysBeforeYear (y + 1900 + 1) := by rw [add_right_comm]
    _ = daysBeforeYear (y + 1900) + Gregorian.daysInYear (y + 1900) := daysBeforeYear_succ _
    _ = daysBeforeYear (y + 1900) + daysInYear y := by rw [daysInYear_eq hy hint]

/-- The loop of `ofc_time_make_time` adds the days of the years it passes. -/
theorem addYears_eq (tmYear : ℤ) (hint : tmYear + 1900 < 2 ^ 31) (fuel : ℕ) {year : ℤ}
    (hyear : 0 ≤ year) (hfuel : tmYear = year + fuel) (days : ℤ) :
    addYears tmYear fuel year days =
      days + (daysBeforeYear (tmYear + 1900) - daysBeforeYear (year + 1900)) := by
  induction fuel generalizing year days with
  | zero =>
      obtain rfl : tmYear = year := by simpa using hfuel
      rw [addYears]
      omega
  | succ fuel ih =>
      rw [addYears, if_pos (by omega), ih (by omega) (by omega),
        daysBeforeYear_round hyear (by omega)]
      omega

/-! ## Months -/

/-- The table holds the days before each month of a common year. -/
theorem daysBeforeMonth_eq {mon : ℤ} (hlow : 0 ≤ mon) (hhigh : mon < 12) :
    daysBeforeMonth mon = Gregorian.daysBeforeMonth false (mon + 1) := by
  obtain ⟨n, rfl⟩ := Int.eq_ofNat_of_zero_le hlow
  have hn : n < 12 := by omega
  clear hlow hhigh
  revert n
  decide

/-- The search stops at the month of the day. -/
theorem monthLoop_spec (days : ℤ) (fuel : ℕ) {mon : ℤ} (hlow : 0 ≤ mon) (hfuel : mon + fuel = 11)
    (hdays : daysBeforeMonth mon ≤ days) :
    mon ≤ monthLoop days fuel mon ∧ monthLoop days fuel mon ≤ 11 ∧
      daysBeforeMonth (monthLoop days fuel mon) ≤ days ∧
      (monthLoop days fuel mon < 11 → days < daysBeforeMonth (monthLoop days fuel mon + 1)) := by
  induction fuel generalizing mon with
  | zero =>
      rw [monthLoop]
      exact ⟨le_rfl, by omega, hdays, fun h => absurd h (by omega)⟩
  | succ fuel ih =>
      rw [monthLoop]
      split
      · rename_i hnext
        obtain ⟨h1, h2, h3, h4⟩ := ih (by omega) (by omega) hnext.2
        exact ⟨by omega, h2, h3, h4⟩
      · rename_i hnext
        refine ⟨le_rfl, by omega, hdays, fun hlt => ?_⟩
        by_contra hge
        exact hnext ⟨hlt, by omega⟩

/-- The month search finds the month and the day of a day of a common year. -/
theorem monthLoop_date {days month day : ℤ} (hlow : 0 ≤ days) (hhigh : days < 365)
    (hmonth : month = monthLoop days 11 0 + 1)
    (hday : day = days - daysBeforeMonth (monthLoop days 11 0) + 1) :
    (1 ≤ month ∧ month ≤ 12) ∧ (1 ≤ day ∧ day ≤ daysInMonth false month) ∧
      Gregorian.daysBeforeMonth false month + day - 1 = days := by
  obtain ⟨h1, h2, h3, h4⟩ := @monthLoop_spec days 11 0 le_rfl rfl hlow
  rw [daysBeforeMonth_eq h1 (by omega), ← hmonth] at h3 hday
  have hend : days < Gregorian.daysBeforeMonth false month + daysInMonth false month := by
    rcases lt_or_eq_of_le h2 with hlt | heq
    · have hlt' := h4 hlt
      rwa [daysBeforeMonth_eq (by omega) (by omega), ← hmonth,
        daysBeforeMonth_succ false (by omega) (by omega)] at hlt'
    · rw [hmonth, heq]
      exact hhigh
  refine ⟨?_, ?_, ?_⟩ <;> omega

/-- A leap year has the leap day before March. -/
theorem daysBeforeMonth_leap (month : ℤ) :
    Gregorian.daysBeforeMonth true month =
      Gregorian.daysBeforeMonth false month + if month ≤ 2 then 0 else 1 := by
  unfold Gregorian.daysBeforeMonth
  simp only [Bool.false_eq_true, if_false, if_true]
  split <;> omega

theorem daysInMonth_leap (month : ℤ) : daysInMonth false month ≤ daysInMonth true month := by
  unfold daysInMonth
  simp only [Bool.false_eq_true, if_false, if_true]
  split <;> omega

/-- `monthAndDay` finds the month and the day of a day of the year, with a leap day if
`_ISLEAP` says so. -/
theorem monthAndDay_spec {year days month day : ℤ} (hlow : 0 ≤ days)
    (hhigh : days < daysInYear year) (hmonth : month = (monthAndDay year days).1 + 1)
    (hday : day = (monthAndDay year days).2) :
    (1 ≤ month ∧ month ≤ 12) ∧ (1 ≤ day ∧ day ≤ daysInMonth (isleap year) month) ∧
      Gregorian.daysBeforeMonth (isleap year) month + day - 1 = days := by
  have hfebruary : Gregorian.daysBeforeMonth false 2 = 31 := rfl
  have hmarch : Gregorian.daysBeforeMonth false 3 = 59 := rfl
  rw [daysInYear] at hhigh
  rw [monthAndDay, daysInYear, show daysBeforeMonth 2 = 59 from rfl,
    show daysBeforeMonth 1 = 31 from rfl] at hmonth hday
  cases hleap : isleap year with
  | false =>
      rw [hleap] at hmonth hday hhigh
      exact monthLoop_date hlow hhigh hmonth hday
  | true =>
      rw [hleap] at hmonth hday hhigh
      simp only [if_true] at hmonth hday hhigh
      rw [daysBeforeMonth_leap]
      have hlonger := daysInMonth_leap month
      -- the leap day is day 59, and later days are looked up one day earlier
      by_cases hfeb29 : days = 59
      · rw [if_pos hfeb29] at hmonth hday
        replace hmonth : month = 2 := hmonth
        replace hday : day = days - 31 + 1 := hday
        have hlength : daysInMonth true month = 29 := by
          rw [hmonth]
          rfl
        rw [hmonth, hfebruary, if_pos le_rfl]
        rw [hmonth] at hlength
        omega
      · rw [if_neg hfeb29] at hmonth hday
        by_cases hafter : days > 59
        · rw [if_pos hafter] at hmonth hday
          obtain ⟨⟨h1, h2⟩, ⟨h3, h4⟩, h5⟩ := monthLoop_date (by omega) (by omega) hmonth hday
          have hlate : ¬ month ≤ 2 := by
            intro hearly
            have hend := daysBeforeMonth_succ false h1 (by omega : month < 12)
            have hmono : Gregorian.daysBeforeMonth false (month + 1) ≤ 59 := by
              rcases (by omega : month = 1 ∨ month = 2) with h | h <;> rw [h] <;> decide
            omega
          rw [if_neg hlate]
          omega
        · rw [if_neg hafter] at hmonth hday
          obtain ⟨⟨h1, h2⟩, ⟨h3, h4⟩, h5⟩ := monthLoop_date hlow (by omega) hmonth hday
          have hearly : month ≤ 2 := by
            by_contra hlate
            rcases eq_or_lt_of_le (by omega : 3 ≤ month) with heq | hlt
            · rw [← heq] at h5
              omega
            · have hmono := daysBeforeMonth_lt false (by decide : (1 : ℤ) ≤ 3) h2 hlt
              have hpos := daysInMonth_pos false 3
              omega
          rw [if_pos hearly]
          omega

/-- The day of the year that `ofc_time_make_time` starts from, with the leap day added after
February. -/
theorem makeDays_eq_addYears {tm : Tm} (hlow : 0 ≤ tm.mon) (hhigh : tm.mon < 12) :
    makeDays tm = Gregorian.daysBeforeMonth (isleap tm.year) (tm.mon + 1) + tm.mday - 1 +
      addYears tm.year (tm.year - 70).toNat 70 0 := by
  have hmonths : (if tm.mon > 1 ∧ daysInYear tm.year = 366 then
        tm.mday - 1 + daysBeforeMonth tm.mon + 1 else tm.mday - 1 + daysBeforeMonth tm.mon) =
      Gregorian.daysBeforeMonth (isleap tm.year) (tm.mon + 1) + tm.mday - 1 := by
    rw [daysBeforeMonth_eq hlow hhigh, daysInYear]
    cases isleap tm.year with
    | false =>
        rw [if_neg (by simp)]
        omega
    | true =>
        rw [daysBeforeMonth_leap]
        simp only [if_true, and_true]
        split_ifs <;> omega
  unfold makeDays
  simp only [hmonths]
  split
  · exact addYears_add ..
  · rw [show (tm.year - 70).toNat = 0 by omega]
    exact (add_zero _).symm

/-! ## There and back -/

/-- The parts of a broken-down time from 1970 on: its month and day find the day of the
year, which with the years before and the time of the day is what was broken down. -/
theorem localTime_parts {time : ℤ} (htime : 0 ≤ time) {tm : Tm} (htm : tm = ofcTimeLocalTime time) :
    ((1 ≤ tm.mon + 1 ∧ tm.mon + 1 ≤ 12) ∧
      (1 ≤ tm.mday ∧ tm.mday ≤ daysInMonth (isleap tm.year) (tm.mon + 1))) ∧
    ((0 ≤ tm.hour ∧ tm.hour < 24) ∧ (0 ≤ tm.min ∧ tm.min < 60) ∧ (0 ≤ tm.sec ∧ tm.sec < 60)) ∧
    (70 ≤ tm.year ∧ 86400 * 365 * (tm.year - 70) ≤ time) ∧
    86400 * (Gregorian.daysBeforeMonth (isleap tm.year) (tm.mon + 1) + tm.mday - 1 +
      addYears tm.year (tm.year - 70).toNat 70 0) + 3600 * tm.hour + 60 * tm.min + tm.sec =
        time := by
  subst htm
  have hticks : 0 ≤ time.tmod 86400 := Int.tmod_nonneg _ htime
  have hticks' : time.tmod 86400 < 86400 := Int.tmod_lt_of_pos _ (by decide)
  have hsplit := Int.mul_tdiv_add_tmod time 86400
  have hdays : 0 ≤ time.tdiv 86400 := Int.tdiv_nonneg htime (by decide)
  have hfuel : time.tdiv 86400 ≤ (time.tdiv 86400).toNat := by omega
  obtain ⟨h1, h2, h3, h4⟩ := @yearLoop_bounds _ _ 70 hdays hfuel
  have hyears := @addYears_yearLoop _ _ 70 hdays hfuel
  simp only [ofcTimeLocalTime]
  generalize time.tmod 86400 = ticks at hticks hticks' hsplit ⊢
  generalize yearLoop (time.tdiv 86400).toNat (time.tdiv 86400) 70 = found at h1 h2 h3 h4 hyears ⊢
  obtain ⟨hmonth, hday, hnumber⟩ := monthAndDay_spec h1 h2 rfl rfl
  have hnonneg : 0 ≤ ticks % 3600 := Int.emod_nonneg _ (by decide)
  simp only [Int.tdiv_eq_ediv_of_nonneg hticks, Int.tmod_eq_emod_of_nonneg hticks,
    Int.tdiv_eq_ediv_of_nonneg hnonneg, Int.tmod_eq_emod_of_nonneg hnonneg]
  refine ⟨⟨hmonth, hday⟩, ⟨by omega, by omega, by omega⟩, ⟨h3, by omega⟩, ?_⟩
  rw [hnumber, hyears]
  omega

/-- `ofc_time_make_time` gives back what `ofc_time_local_time` has broken down, in 32 bits.
The two take the same years for leap years, and that is all it needs. -/
theorem makeTime_localTime {time : ℤ} (htime : 0 ≤ time) :
    ofcTimeMakeTime (ofcTimeLocalTime time) = some (toUInt32 time) := by
  obtain ⟨⟨⟨hlow, hhigh⟩, -⟩, -, -, hcount⟩ := localTime_parts htime rfl
  rw [ofcTimeMakeTime, if_pos (by omega), makeDays_eq_addYears (by omega) (by omega)]
  unfold toUInt32
  simp only [Option.some.injEq]
  omega

/-! ## The Gregorian calendar -/

/-- `ofc_time_local_time` of a time from 1970 on, to a year that is an `int`. -/
theorem localTime_spec {time : ℤ} (htime : 0 ≤ time)
    (hint : (ofcTimeLocalTime time).year + 1900 < 2 ^ 31) :
    (ofcTimeLocalTime time).dateTime.Valid ∧ (ofcTimeLocalTime time).dateTime.seconds = time ∧
      70 ≤ (ofcTimeLocalTime time).year := by
  obtain ⟨⟨⟨hmon, hmon'⟩, ⟨hday, hday'⟩⟩, ⟨⟨hhour, hhour'⟩, ⟨hmin, hmin'⟩, ⟨hsec, hsec'⟩⟩,
    ⟨hyear, -⟩, hcount⟩ := localTime_parts htime rfl
  generalize ofcTimeLocalTime time = tm at *
  rw [isleap_eq (by omega) hint] at hday' hcount
  rw [addYears_eq tm.year hint _ (by decide) (by omega)] at hcount
  refine ⟨⟨⟨hmon, hmon', hday, hday'⟩, hhour, hhour', hmin, hmin', hsec, hsec'⟩, ?_, hyear⟩
  rw [← hcount]
  have hepoch : daysBeforeYear (70 + 1900) = daysBeforeYear 1970 := rfl
  simp only [DateTime.seconds, Date.number, Date.dayOfYear, Tm.dateTime, hepoch]
  omega

/-- A year has at least 365 days. -/
theorem localTime_year_le {time : ℤ} (htime : 0 ≤ time) :
    86400 * 365 * ((ofcTimeLocalTime time).year - 70) ≤ time :=
  (localTime_parts htime rfl).2.2.1.2

/-- The day count of `ofc_time_make_time`. -/
theorem makeDays_eq {tm : Tm} (hvalid : tm.dateTime.date.Valid) (hyear : 70 ≤ tm.year)
    (hint : tm.year + 1900 < 2 ^ 31) :
    makeDays tm = tm.dateTime.date.number - daysBeforeYear 1970 := by
  have hlow := hvalid.month_pos
  have hhigh := hvalid.month_le
  simp only [Tm.dateTime] at hlow hhigh
  rw [makeDays_eq_addYears (by omega) (by omega), isleap_eq (by omega) hint,
    addYears_eq tm.year hint _ (by decide) (by omega)]
  unfold Date.number Date.dayOfYear
  show _ + (0 + (_ - daysBeforeYear 1970)) = _
  simp only [Tm.dateTime]
  omega

/-- `ofc_time_make_time` of a valid date-time from 1970 on: its seconds, kept in
32 bits. -/
theorem makeTime_eq {tm : Tm} (hvalid : tm.dateTime.Valid) (hyear : 70 ≤ tm.year)
    (hint : tm.year + 1900 < 2 ^ 31) :
    ofcTimeMakeTime tm = some (toUInt32 tm.dateTime.seconds) := by
  have hlow := hvalid.date.month_pos
  have hhigh := hvalid.date.month_le
  simp only [Tm.dateTime] at hlow hhigh
  unfold ofcTimeMakeTime
  rw [if_pos (by omega), makeDays_eq hvalid.date hyear hint]
  unfold toUInt32 DateTime.seconds
  simp only [Tm.dateTime, Option.some.injEq]
  omega

/-- A valid date-time comes back from its second count. -/
theorem localTime_seconds {tm : Tm} (hvalid : tm.dateTime.Valid) (hyear : 70 ≤ tm.year)
    (hrange : tm.dateTime.seconds < 2 ^ 32) : ofcTimeLocalTime tm.dateTime.seconds = tm := by
  have htime : 0 ≤ tm.dateTime.seconds := DateTime.seconds_nonneg hvalid (by
    show 1970 ≤ tm.year + 1900
    omega)
  have hlast := localTime_year_le htime
  obtain ⟨hvalid', hseconds, _⟩ := localTime_spec htime (by omega)
  exact Tm.dateTime_injective (DateTime.seconds_injective hvalid' hvalid hseconds)

end OfcDarwin.Time
