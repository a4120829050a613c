import Mathlib.Algebra.Group.Int.Defs
import Mathlib.Algebra.Group.Nat.Defs

/-!
# Broken-down time and DOS time stamps

The calendar arithmetic of `time_darwin.c`.  A C `int` or `long` is an integer
here, with C's truncating `/` and `%` (`Int.tdiv`, `Int.tmod`).  A width matters
in two places: the `tim` of `ofc_time_make_time` is an `OFC_UINT32`, and
`_ISLEAP` adds 1900 to a year as an `int`, which takes the last years of an `int`
out of its range.  The `tm_year` that a loop counts up is left without a bound,
and results for all times ask that it is an `int`.

A read of `_DAYS_BEFORE_MONTH` outside its twelve entries has no meaning in C,
so `ofc_time_make_time`, which indexes it with an unchecked field, returns an
`Option`.
-/

namespace OfcDarwin.Time

/-- The fields of `struct tm` that are used: `tm_mon` counts from 0 and
`tm_year` from 1900. -/
structure Tm where
  sec : ℤ
  min : ℤ
  hour : ℤ
  mday : ℤ
  mon : ℤ
  year : ℤ
deriving DecidableEq, Repr

/-- `_DAYS_BEFORE_MONTH`. -/
def daysBeforeMonthTable : List ℤ := [0, 31, 59, 90, 120, 151, 181, 212, 243, 273, 304, 334]

/-- An entry of `_DAYS_BEFORE_MONTH`, for an index inside the table. -/
def daysBeforeMonth (mon : ℤ) : ℤ := daysBeforeMonthTable.getD mon.toNat 0

/-- `+` of two `int`s.  A sum outside their range wraps, as it does on the machine;
C leaves it open. -/
def intAdd (a b : ℤ) : ℤ := (a + b).bmod (2 ^ 32)

/-- `_ISLEAP`, on years since 1900. -/
def isleap (y : ℤ) : Bool :=
  y.tmod 4 == 0 && (y.tmod 100 != 0 || (intAdd y 1900).tmod 400 == 0)

/-- `_DAYS_IN_YEAR`. -/
def daysInYear (year : ℤ) : ℤ := if isleap year then 366 else 365

/-- Conversion to `OFC_UINT32`. -/
def toUInt32 (n : ℤ) : ℤ := n % 2 ^ 32

/-! ## `ofc_time_make_time` -/

/-- `for (; year < tm_year; year++) days += _DAYS_IN_YEAR(year)`, for at most
`fuel` rounds. -/
def addYears (tmYear : ℤ) : ℕ → ℤ → ℤ → ℤ
  | 0, _, days => days
  | fuel + 1, year, days =>
      if year < tmYear then addYears tmYear fuel (year + 1) (days + daysInYear year) else days

/-- The days since the epoch that `ofc_time_make_time` accumulates. -/
def makeDays (tm : Tm) : ℤ :=
  let days := tm.mday - 1 + daysBeforeMonth tm.mon
  let days := if tm.mon > 1 ∧ daysInYear tm.year = 366 then days + 1 else days
  if tm.year > 70 then addYears tm.year (tm.year - 70).toNat 70 days else days

/-- `ofc_time_make_time`; `none` when it reads `_DAYS_BEFORE_MONTH` outside the
table. -/
def ofcTimeMakeTime (tm : Tm) : Option ℤ :=
  if 0 ≤ tm.mon ∧ tm.mon < 12 then
    let tim := toUInt32 (tm.sec + tm.min * 60 + tm.hour * 3600)
    some (toUInt32 (tim + makeDays tm * 86400))
  else none

/-! ## `ofc_time_local_time` -/

/-- `while (days_in_year >= _DAYS_IN_YEAR(tm_year))`, for at most `fuel` rounds:
the remaining days and the year. -/
def yearLoop : ℕ → ℤ → ℤ → ℤ × ℤ
  | 0, days, year => (days, year)
  | fuel + 1, days, year =>
      if days ≥ daysInYear year then yearLoop fuel (days - daysInYear year) (year + 1)
      else (days, year)

/-- `while (tm_mon < 11 && days_in_year >= _DAYS_BEFORE_MONTH[tm_mon + 1])`, for
at most `fuel` rounds. -/
def monthLoop (days : ℤ) : ℕ → ℤ → ℤ
  | 0, mon => mon
  | fuel + 1, mon =>
      if mon < 11 ∧ days ≥ daysBeforeMonth (mon + 1) then monthLoop days fuel (mon + 1) else mon

/-- The month and the day of the month of a day of a year. -/
def monthAndDay (year days : ℤ) : ℤ × ℤ :=
  if daysInYear year = 366 then
    if days = daysBeforeMonth 2 then (1, days - daysBeforeMonth 1 + 1)
    else
      -- the leap day is not in the table, so the days after it move up by one
      let days := if days > daysBeforeMonth 2 then days - 1 else days
      let mon := monthLoop days 11 0
      (mon, days - daysBeforeMonth mon + 1)
  else
    let mon := monthLoop days 11 0
    (mon, days - daysBeforeMonth mon + 1)

/-- `ofc_time_local_time`.  Each round of the year loop takes at least one day,
so the day count is fuel enough. -/
def ofcTimeLocalTime (time : ℤ) : Tm :=
  let ticksInDay := time.tmod 86400
  let daysInYear := time.tdiv 86400
  let (days, year) := yearLoop daysInYear.toNat daysInYear 70
  let (mon, mday) := monthAndDay year days
  let ticksInHour := ticksInDay.tmod 3600
  { sec := ticksInHour.tmod 60
    min := ticksInHour.tdiv 60
    hour := ticksInDay.tdiv 3600
    mday := mday
    mon := mon
    year := year }

/-! ## DOS time stamps -/

/-- The elements of a DOS date and time, as the core library passes them. -/
structure Elements where
  mon : UInt16
  day : UInt16
  year : UInt16
  hour : UInt16
  min : UInt16
  sec : UInt16
deriving DecidableEq, Repr

/-- The helpers of the core library, over its `OFC_FILETIME`. -/
structure Core (FileTime : Type) where
  dosDateTimeToElements : UInt16 → UInt16 → Elements
  timeElementsToDosDateTime : Elements → UInt16 × UInt16
  epochTimeToFileTime : ℤ → ℤ → FileTime
  fileTimeToEpochTime : FileTime → ℤ × ℤ

/-- Conversion of an `int` to `OFC_UINT16`. -/
def toUInt16 (n : ℤ) : UInt16 := UInt16.ofNat (n % 2 ^ 16).toNat

variable {FileTime : Type}

/-- The broken-down time of the elements of a stamp. -/
def Elements.tm (elements : Elements) : Tm :=
  { sec := elements.sec.toNat
    min := elements.min.toNat
    hour := elements.hour.toNat
    mday := elements.day.toNat
    mon := elements.mon.toNat - 1
    year := elements.year.toNat - 1900 }

/-- The elements of a broken-down time. -/
def Tm.elements (tm : Tm) : Elements :=
  { mon := toUInt16 (tm.mon + 1)
    day := toUInt16 tm.mday
    year := toUInt16 (tm.year + 1900)
    hour := toUInt16 tm.hour
    min := toUInt16 tm.min
    sec := toUInt16 tm.sec }

/-- `tp.tv_sec` in `ofc_dos_date_time_to_file_time_impl`. -/
def dosEpochSeconds (core : Core FileTime) (fatDate fatTime : UInt16) : Option ℤ :=
  ofcTimeMakeTime (core.dosDateTimeToElements fatDate fatTime).tm

/-- `ofc_dos_date_time_to_file_time_impl`: its result, and `*lpFileTime` afterwards.  What
was there before, the last argument, is overwritten on every path that returns. -/
def ofcDosDateTimeToFileTimeImpl (core : Core FileTime) (fatDate fatTime : UInt16)
    (_lpFileTime : FileTime) : Option (Bool × FileTime) :=
  (dosEpochSeconds core fatDate fatTime).map fun sec => (true, core.epochTimeToFileTime sec 0)

/-- `ofc_file_time_to_dos_date_time_impl`: its result and what it stores. -/
def ofcFileTimeToDosDateTimeImpl (core : Core FileTime) (fileTime : FileTime) :
    Bool × UInt16 × UInt16 :=
  let tm := ofcTimeLocalTime (core.fileTimeToEpochTime fileTime).1
  (true, core.timeElementsToDosDateTime tm.elements)

end OfcDarwin.Time
