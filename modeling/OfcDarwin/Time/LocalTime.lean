import OfcDarwin.Lib.While
import OfcDarwin.Time.Representable

/-!
# Broken-down time and back

The three loops of the calendar end before the fuel of their definitions does
(`yearLoop_runs`, `monthLoop_runs`, `addYears_runs`), so the definitions compute
what the loops do.  With the two specifications of `Time/Calendar.lean` that gives

* `localTime_utc`: the broken-down time of every second count that a FILETIME from
  1970 on has is its date and time in UTC;
* `makeTime_localTime_inverse`: the two conversions undo each other, up to the
  32 bits in which `ofc_time_make_time` accumulates.
-/

namespace OfcDarwin.Time

open Gregorian

/-! ## The loops end -/

/-- The condition and the body of the loop over years of `ofc_time_local_time`, on
`days_in_year` and `tm_year`. -/
def YearCond (s : ℤ × ℤ) : Prop := s.1 ≥ daysInYear s.2

instance : DecidablePred YearCond := fun _ => inferInstanceAs (Decidable (_ ≥ _))

def yearBody (s : ℤ × ℤ) : ℤ × ℤ := (s.1 - daysInYear s.2, s.2 + 1)

theorem yearLoop_eq_bounded (fuel : ℕ) (days year : ℤ) :
    yearLoop fuel days year = While.bounded YearCond yearBody fuel (days, year) := by
  induction fuel generalizing days year with
  | zero => rfl
  | succ fuel ih =>
      rw [yearLoop, While.bounded, ih]
      rfl

theorem yearLoop_runs {days year : ℤ} {fuel : ℕ} (hfuel : days.toNat ≤ fuel) :
    While.Runs YearCond yearBody (days, year) (yearLoop fuel days year) := by
  rw [yearLoop_eq_bounded]
  refine While.bounded_runs (fun s => s.1.toNat) ?_ hfuel
  intro s hcond
  have hpos : 365 ≤ daysInYear s.2 := by
    unfold daysInYear
    split <;> omega
  rw [YearCond] at hcond
  show (s.1 - daysInYear s.2).toNat < s.1.toNat
  omega

/-- The condition of the loop over months, on `tm_mon`. -/
def MonthCond (days mon : ℤ) : Prop := mon < 11 ∧ days ≥ daysBeforeMonth (mon + 1)

instance (days : ℤ) : DecidablePred (MonthCond days) := fun _ =>
  inferInstanceAs (Decidable (_ ∧ _))

theorem monthLoop_runs (days : ℤ) :
    While.Runs (MonthCond days) (· + 1) 0 (monthLoop days 11 0) := by
  have hbounded : ∀ (fuel : ℕ) (mon : ℤ),
      monthLoop days fuel mon = While.bounded (MonthCond days) (· + 1) fuel mon := by
    intro fuel
    induction fuel with
    | zero => exact fun _ => rfl
    | succ fuel ih =>
        intro mon
        rw [monthLoop, While.bounded, ih]
        rfl
  rw [hbounded]
  refine While.bounded_runs (fun mon => (11 - mon).toNat) ?_ le_rfl
  intro mon hcond
  have hlast := hcond.1
  show (11 - (mon + 1)).toNat < (11 - mon).toNat
  omega

/-- The loop over years of `ofc_time_make_time`, on `year` and `days`. -/
theorem addYears_runs (tmYear days : ℤ) :
    ∃ year, While.Runs (fun s : ℤ × ℤ => s.1 < tmYear)
      (fun s => (s.1 + 1, s.2 + daysInYear s.1)) (70, days)
      (year, addYears tmYear (tmYear - 70).toNat 70 days) := by
  have hbounded : ∀ (fuel : ℕ) (year days : ℤ), addYears tmYear fuel year days =
      (While.bounded (fun s : ℤ × ℤ => s.1 < tmYear)
        (fun s => (s.1 + 1, s.2 + daysInYear s.1)) fuel (year, days)).2 := by
    intro fuel
    induction fuel with
    | zero => exact fun _ _ => rfl
    | succ fuel ih =>
        intro year days
        rw [addYears, While.bounded]
        split
        · exact ih _ _
        · rfl
  rw [hbounded]
  refine ⟨_, While.bounded_runs (fun s => (tmYear - s.1).toNat) ?_ le_rfl⟩
  intro s hcond
  show (tmYear - (s.1 + 1)).toNat < (tmYear - s.1).toNat
  omega

/-! ## A second count as a date and time -/

/-- A broken-down time is the date and time, in UTC, of a number of seconds since
1970: its fields are in range, and it counts back to those seconds. -/
structure Tm.IsUtc (tm : Tm) (time : ℤ) : Prop where
  mon : 0 ≤ tm.mon ∧ tm.mon ≤ 11
  mday : 1 ≤ tm.mday ∧ tm.mday ≤ daysInMonth (isLeap (tm.year + 1900)) (tm.mon + 1)
  hour : 0 ≤ tm.hour ∧ tm.hour < 24
  min : 0 ≤ tm.min ∧ tm.min < 60
  sec : 0 ≤ tm.sec ∧ tm.sec < 60
  count : 86400 * (tm.dateTime.date.number - daysBeforeYear 1970) + 3600 * tm.hour +
    60 * tm.min + tm.sec = time

theorem Tm.isUtc_iff (tm : Tm) (time : ℤ) :
    tm.IsUtc time ↔ tm.dateTime.Valid ∧ tm.dateTime.seconds = time := by
  constructor
  · rintro ⟨⟨hmon, hmon'⟩, hmday, hhour, hmin, hsec, hcount⟩
    refine ⟨⟨⟨?_, ?_, hmday.1, hmday.2⟩, hhour.1, hhour.2, hmin.1, hmin.2, hsec.1, hsec.2⟩, hcount⟩
    · show 1 ≤ tm.mon + 1
      omega
    · show tm.mon + 1 ≤ 12
      omega
  · rintro ⟨⟨⟨hmon, hmon', hmday, hmday'⟩, hhour, hhour', hmin, hmin', hsec, hsec'⟩, hcount⟩
    simp only [Tm.dateTime] at hmon hmon'
    exact ⟨⟨by omega, by omega⟩, ⟨hmday, hmday'⟩, ⟨hhour, hhour'⟩, ⟨hmin, hmin'⟩, ⟨hsec, hsec'⟩,
      hcount⟩

/-- The year loop leaves `tm_year` as it is in the broken-down time. -/
theorem localTime_year (time : ℤ) :
    (ofcTimeLocalTime time).year = (yearLoop (time.tdiv 86400).toNat (time.tdiv 86400) 70).2 :=
  rfl

/-- A FILETIME ends before the year 60500. -/
theorem localTime_year_lt {time : ℤ} (htime : 0 ≤ time)
    (hfile : ∃ fileTime : UInt64, utcSeconds fileTime = time) :
    (ofcTimeLocalTime time).year + 1900 < 60500 := by
  obtain ⟨fileTime, rfl⟩ := hfile
  have hyears := localTime_year_le htime
  have hticks := fileTime.toNat_lt
  rw [utcSeconds] at hyears ⊢
  omega

/-- For the seconds of a FILETIME from 1970 on, the loop over years ends, with
`tm_year` an `int`, and the fields are the date and time of these seconds. -/
theorem localTime_utc {time : ℤ} (htime : 0 ≤ time)
    (hfile : ∃ fileTime : UInt64, utcSeconds fileTime = time) :
    (∃ left, While.Runs YearCond yearBody (time.tdiv 86400, 70)
        (left, (ofcTimeLocalTime time).year)) ∧
      (-2 ^ 31 ≤ (ofcTimeLocalTime time).year ∧ (ofcTimeLocalTime time).year < 2 ^ 31) ∧
      (ofcTimeLocalTime time).IsUtc time := by
  have hlast := localTime_year_lt htime hfile
  obtain ⟨hvalid, hseconds, hyear⟩ := localTime_spec htime (by omega)
  refine ⟨⟨(yearLoop (time.tdiv 86400).toNat (time.tdiv 86400) 70).1, ?_⟩,
    ⟨by omega, by omega⟩, (Tm.isUtc_iff _ _).mpr ⟨hvalid, hseconds⟩⟩
  rw [localTime_year]
  exact yearLoop_runs le_rfl

/-- 29 February 2000, noon. -/
theorem localTime_utc_leap_day : (ofcTimeLocalTime 951825600).IsUtc 951825600 :=
  (@localTime_utc 951825600 (by decide) ⟨125962992000000000, by decide⟩).2.2

/-! ## The inverse -/

/-- `ofc_time_make_time` gives the seconds back that `ofc_time_local_time` broke
down, modulo `2 ^ 32`, as long as `tm_year` is an `int`; and a valid broken-down time
from 1970 on comes back as it was when its second count is below `2 ^ 32`. -/
theorem makeTime_localTime_inverse :
    (∀ time : ℤ, 0 ≤ time → (ofcTimeLocalTime time).year < 2 ^ 31 →
      ofcTimeMakeTime (ofcTimeLocalTime time) = some (time % 2 ^ 32)) ∧
    ∀ tm : Tm, tm.dateTime.Valid → 70 ≤ tm.year → tm.dateTime.seconds < 2 ^ 32 →
      (ofcTimeMakeTime tm).map ofcTimeLocalTime = some tm := by
  constructor
  · -- also where `_ISLEAP` leaves the `int`, since both functions ask it
    intro time htime _
    exact makeTime_localTime htime
  · intro tm hvalid hyear hrange
    have hnonneg : 0 ≤ tm.dateTime.seconds := DateTime.seconds_nonneg hvalid (by
      show 1970 ≤ tm.year + 1900
      omega)
    have hlast : tm.year + 1900 < 2200 := DateTime.year_lt hvalid (hrange.trans (by decide))
    calc (ofcTimeMakeTime tm).map ofcTimeLocalTime
        = some (ofcTimeLocalTime (toUInt32 tm.dateTime.seconds)) := by
          rw [makeTime_eq hvalid hyear (by omega), Option.map_some]
      _ = some (ofcTimeLocalTime tm.dateTime.seconds) := by
          rw [toUInt32, Int.emod_eq_of_lt hnonneg hrange]
      _ = some tm := by rw [localTime_seconds hvalid hyear hrange]

/-- 1 March 2100, a century year without a leap day, both ways. -/
theorem makeTime_localTime_inverse_2100 :
    ofcTimeMakeTime (ofcTimeLocalTime 4107542400) = some 4107542400 ∧
      (ofcTimeMakeTime { sec := 0, min := 0, hour := 0, mday := 1, mon := 2, year := 200 }).map
        ofcTimeLocalTime =
          some { sec := 0, min := 0, hour := 0, mday := 1, mon := 2, year := 200 } :=
  ⟨makeTime_localTime_inverse.1 4107542400 (by decide) (by decide),
    makeTime_localTime_inverse.2 _
      ⟨⟨by decide, by decide, by decide, by decide⟩, by decide, by decide, by decide, by decide,
        by decide, by decide⟩ (by decide) (by decide)⟩

end OfcDarwin.Time
