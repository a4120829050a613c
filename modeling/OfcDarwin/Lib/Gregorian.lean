import Mathlib.Algebra.Order.Group.Int
import Mathlib.Data.Int.Init

/-!
# The proleptic Gregorian calendar

Days are counted in closed form, with no loop over years or months: a year
`y ≥ 1` is preceded by `365 (y-1) + (y-1)/4 - (y-1)/100 + (y-1)/400` days, and a
month `m` of it by `(367 m - 362) / 12` days, less the two (or, in a leap year,
one) that February falls short of thirty.

The facts an implementation needs are

* the recurrences `daysBeforeYear_succ` and `daysBeforeMonth_succ`, against
  which loops over years and tables of months are checked;
* `DateTime.seconds_injective`: a date-time is determined by its second count,
  so that an algorithm which finds some valid date-time of the right second
  count has found the right one.
-/

namespace Gregorian

/-- The leap years. -/
def isLeap (year : ℤ) : Bool :=
  year % 4 == 0 && (year % 100 != 0 || year % 400 == 0)

def daysInYear (year : ℤ) : ℤ := if isLeap year then 366 else 365

/-- The days from 1 January of year 1 to 1 January of `year`. -/
def daysBeforeYear (year : ℤ) : ℤ :=
  365 * (year - 1) + (year - 1) / 4 - (year - 1) / 100 + (year - 1) / 400

/-- The days of a year before the first of `month`, counted from 1. -/
def daysBeforeMonth (leap : Bool) (month : ℤ) : ℤ :=
  (367 * month - 362) / 12 - if month ≤ 2 then 0 else if leap then 1 else 2

def daysInMonth (leap : Bool) (month : ℤ) : ℤ :=
  if month = 2 then if leap then 29 else 28
  else if month = 4 ∨ month = 6 ∨ month = 9 ∨ month = 11 then 30 else 31

/-! ## Years -/

/-- A leap year is one with a 366th day. -/
theorem daysBeforeYear_succ (year : ℤ) :
    daysBeforeYear (year + 1) = daysBeforeYear year + daysInYear year := by
  unfold daysBeforeYear daysInYear isLeap
  by_cases h4 : year % 4 = 0 <;> by_cases h100 : year % 100 = 0 <;>
    by_cases h400 : year % 400 = 0 <;> simp [h4, h100, h400] <;> omega

theorem daysBeforeYear_mono {first second : ℤ} (hle : first ≤ second) :
    daysBeforeYear first ≤ daysBeforeYear second := by
  unfold daysBeforeYear
  omega

/-! ## Months -/

theorem month_cases {month : ℤ} (hlow : 1 ≤ month) (hhigh : month ≤ 12) :
    month = 1 ∨ month = 2 ∨ month = 3 ∨ month = 4 ∨ month = 5 ∨ month = 6 ∨ month = 7 ∨
      month = 8 ∨ month = 9 ∨ month = 10 ∨ month = 11 ∨ month = 12 := by
  omega

theorem daysInMonth_pos (leap : Bool) (month : ℤ) : 0 < daysInMonth leap month := by
  unfold daysInMonth
  cases leap <;> split_ifs <;> simp

theorem daysInMonth_le (leap : Bool) (month : ℤ) : daysInMonth leap month ≤ 31 := by
  unfold daysInMonth
  cases leap <;> split_ifs <;> simp

theorem daysBeforeMonth_succ (leap : Bool) {month : ℤ} (hlow : 1 ≤ month) (hhigh : month < 12) :
    daysBeforeMonth leap (month + 1) = daysBeforeMonth leap month + daysInMonth leap month := by
  rcases month_cases hlow (le_of_lt hhigh) with rfl | rfl | rfl | rfl | rfl | rfl | rfl | rfl |
    rfl | rfl | rfl | rfl
  case inr.inr.inr.inr.inr.inr.inr.inr.inr.inr.inr => exact absurd hhigh (lt_irrefl _)
  all_goals cases leap <;> rfl

/-- December ends the year. -/
theorem daysBeforeMonth_twelve (year : ℤ) :
    daysBeforeMonth (isLeap year) 12 + daysInMonth (isLeap year) 12 = daysInYear year := by
  unfold daysInYear
  cases isLeap year <;> rfl

/-- A later month starts after the earlier one has ended. -/
theorem daysBeforeMonth_lt (leap : Bool) {first second : ℤ} (hlow : 1 ≤ first)
    (hhigh : second ≤ 12) (hlt : first < second) :
    daysBeforeMonth leap first + daysInMonth leap first ≤ daysBeforeMonth leap second := by
  have hle : first + 1 ≤ second := hlt
  clear hlt
  induction second, hle using Int.leInduction with
  | base => exact (daysBeforeMonth_succ leap hlow (by omega)).ge
  | succ month hle ih =>
      have hmonth := ih (by omega)
      have hpos := daysInMonth_pos leap month
      rw [daysBeforeMonth_succ leap (by omega) (by omega)]
      omega

/-! ## Dates -/

structure Date where
  year : ℤ
  month : ℤ
  day : ℤ
deriving DecidableEq, Repr

namespace Date

structure Valid (date : Date) : Prop where
  month_pos : 1 ≤ date.month
  month_le : date.month ≤ 12
  day_pos : 1 ≤ date.day
  day_le : date.day ≤ daysInMonth (isLeap date.year) date.month

/-- The days of the year before the date. -/
def dayOfYear (date : Date) : ℤ :=
  daysBeforeMonth (isLeap date.year) date.month + date.day - 1

/-- The days from 1 January of year 1. -/
def number (date : Date) : ℤ := daysBeforeYear date.year + date.dayOfYear

theorem Valid.dayOfYear_nonneg {date : Date} (hvalid : date.Valid) : 0 ≤ date.dayOfYear := by
  obtain ⟨hmonth, _, hday, _⟩ := hvalid
  unfold dayOfYear daysBeforeMonth
  split_ifs <;> omega

theorem Valid.dayOfYear_lt {date : Date} (hvalid : date.Valid) :
    date.dayOfYear < daysInYear date.year := by
  obtain ⟨hlow, hhigh, _, hday⟩ := hvalid
  have htwelve := daysBeforeMonth_twelve date.year
  unfold dayOfYear
  rcases lt_or_eq_of_le hhigh with hlt | heq
  · have hle := daysBeforeMonth_lt (isLeap date.year) hlow le_rfl hlt
    have hpos := daysInMonth_pos (isLeap date.year) 12
    omega
  · rw [heq] at hday ⊢
    omega

/-- A valid date is determined by its day number. -/
theorem number_injective {first second : Date} (hfirst : first.Valid) (hsecond : second.Valid)
    (heq : first.number = second.number) : first = second := by
  -- a day number lies in one year only
  have hyear : first.year = second.year := by
    have hnext : ∀ date : Date, date.Valid → daysBeforeYear date.year ≤ date.number ∧
        date.number < daysBeforeYear (date.year + 1) := by
      intro date hdate
      have hlow := hdate.dayOfYear_nonneg
      have hhigh := hdate.dayOfYear_lt
      rw [daysBeforeYear_succ, number]
      omega
    have h1 := hnext first hfirst
    have h2 := hnext second hsecond
    by_contra hne
    rcases Int.lt_or_gt_of_ne hne with hlt | hgt
    · have := daysBeforeYear_mono (show first.year + 1 ≤ second.year by omega)
      omega
    · have := daysBeforeYear_mono (show second.year + 1 ≤ first.year by omega)
      omega
  have hday : first.dayOfYear = second.dayOfYear := by
    rw [number, number, hyear] at heq
    omega
  unfold dayOfYear at hday
  rw [hyear] at hday
  obtain ⟨hlow1, hhigh1, hday1, hle1⟩ := hfirst
  obtain ⟨hlow2, hhigh2, hday2, hle2⟩ := hsecond
  rw [hyear] at hle1
  -- and a day of the year in one month only
  have hmonth : first.month = second.month := by
    by_contra hne
    rcases Int.lt_or_gt_of_ne hne with hlt | hgt
    · have := daysBeforeMonth_lt (isLeap second.year) hlow1 hhigh2 hlt
      omega
    · have := daysBeforeMonth_lt (isLeap second.year) hlow2 hhigh1 hgt
      omega
  obtain ⟨year, month, day⟩ := first
  obtain ⟨year', month', day'⟩ := second
  simp only at hyear hmonth hday
  subst hyear hmonth
  rw [Date.mk.injEq]
  exact ⟨rfl, rfl, by omega⟩

/-- The calendar order of dates. -/
def Before (first second : Date) : Prop :=
  first.year < second.year ∨ first.year = second.year ∧
    (first.month < second.month ∨ first.month = second.month ∧ first.day < second.day)

theorem before_trichotomy (first second : Date) :
    first.Before second ∨ first = second ∨ second.Before first := by
  obtain ⟨year, month, day⟩ := first
  obtain ⟨year', month', day'⟩ := second
  simp only [Before, Date.mk.injEq]
  omega

/-- An earlier date has a smaller day number. -/
theorem Before.number_lt {first second : Date} (hbefore : first.Before second)
    (hfirst : first.Valid) (hsecond : second.Valid) : first.number < second.number := by
  rcases hbefore with hyear | ⟨hyear, hmonth | ⟨hmonth, hday⟩⟩
  · calc first.number < daysBeforeYear (first.year + 1) := by
          rw [daysBeforeYear_succ, number]
          exact Int.add_lt_add_left hfirst.dayOfYear_lt _
      _ ≤ daysBeforeYear second.year := daysBeforeYear_mono hyear
      _ ≤ second.number := Int.le_add_of_nonneg_right hsecond.dayOfYear_nonneg
  · have hle := daysBeforeMonth_lt (isLeap second.year) hfirst.month_pos hsecond.month_le hmonth
    have hend := hfirst.day_le
    have hstart := hsecond.day_pos
    unfold number dayOfYear
    rw [hyear] at hend ⊢
    omega
  · unfold number dayOfYear
    rw [hyear, hmonth]
    omega

end Date

/-! ## Date-times -/

/-- A date and a time of day, in UTC. -/
structure DateTime where
  date : Date
  hour : ℤ
  minute : ℤ
  second : ℤ
deriving DecidableEq, Repr

namespace DateTime

structure Valid (moment : DateTime) : Prop where
  date : moment.date.Valid
  hour_nonneg : 0 ≤ moment.hour
  hour_lt : moment.hour < 24
  minute_nonneg : 0 ≤ moment.minute
  minute_lt : moment.minute < 60
  second_nonneg : 0 ≤ moment.second
  second_lt : moment.second < 60

/-- The seconds since 1970-01-01T00:00:00. -/
def seconds (moment : DateTime) : ℤ :=
  86400 * (moment.date.number - daysBeforeYear 1970) + 3600 * moment.hour + 60 * moment.minute +
    moment.second

/-- A valid date-time is determined by its second count. -/
theorem seconds_injective {first second : DateTime} (hfirst : first.Valid)
    (hsecond : second.Valid) (heq : first.seconds = second.seconds) : first = second := by
  obtain ⟨hdate1, hh1, hh1', hm1, hm1', hs1, hs1'⟩ := hfirst
  obtain ⟨hdate2, hh2, hh2', hm2, hm2', hs2, hs2'⟩ := hsecond
  unfold seconds at heq
  have hdate : first.date = second.date := Date.number_injective hdate1 hdate2 (by omega)
  rw [hdate] at heq
  obtain ⟨date, hour, minute, sec⟩ := first
  obtain ⟨date', hour', minute', sec'⟩ := second
  simp only at hdate heq hh1 hh1' hm1 hm1' hs1 hs1' hh2 hh2' hm2 hm2' hs2 hs2'
  subst hdate
  rw [DateTime.mk.injEq]
  exact ⟨rfl, by omega, by omega, by omega⟩

/-- The seconds of a valid date-time lie between the starts of its year and of the
next. -/
theorem seconds_year {moment : DateTime} (hvalid : moment.Valid) :
    86400 * (daysBeforeYear moment.date.year - daysBeforeYear 1970) ≤ moment.seconds ∧
      moment.seconds <
        86400 * (daysBeforeYear (moment.date.year + 1) - daysBeforeYear 1970) := by
  have hlow := hvalid.date.dayOfYear_nonneg
  have hhigh := hvalid.date.dayOfYear_lt
  obtain ⟨_, _, _, _, _, _, _⟩ := hvalid
  unfold seconds Date.number
  rw [daysBeforeYear_succ]
  omega

/-- A date-time is in or after a year when its second count is. -/
theorem le_year {moment : DateTime} (hvalid : moment.Valid) {year : ℤ}
    (hseconds : 86400 * (daysBeforeYear year - daysBeforeYear 1970) ≤ moment.seconds) :
    year ≤ moment.date.year := by
  obtain ⟨-, hnext⟩ := seconds_year hvalid
  by_contra hlt
  have hmono := daysBeforeYear_mono (show moment.date.year + 1 ≤ year by omega)
  omega

/-- A date-time is before a year when its second count is. -/
theorem year_lt {moment : DateTime} (hvalid : moment.Valid) {year : ℤ}
    (hseconds : moment.seconds < 86400 * (daysBeforeYear year - daysBeforeYear 1970)) :
    moment.date.year < year := by
  obtain ⟨hstart, -⟩ := seconds_year hvalid
  by_contra hge
  have hmono := daysBeforeYear_mono (show year ≤ moment.date.year by omega)
  omega

/-- From 1970 on the second count is not negative. -/
theorem seconds_nonneg {moment : DateTime} (hvalid : moment.Valid)
    (hyear : 1970 ≤ moment.date.year) : 0 ≤ moment.seconds := by
  have hday := hvalid.date.dayOfYear_nonneg
  have hmono := daysBeforeYear_mono hyear
  obtain ⟨_, _, _, _, _, _, _⟩ := hvalid
  unfold seconds Date.number
  omega

/-- The calendar order of date-times. -/
def Before (first second : DateTime) : Prop :=
  first.date.Before second.date ∨ first.date = second.date ∧
    (first.hour < second.hour ∨ first.hour = second.hour ∧
      (first.minute < second.minute ∨ first.minute = second.minute ∧ first.second < second.second))

theorem before_trichotomy (first second : DateTime) :
    first.Before second ∨ first = second ∨ second.Before first := by
  obtain ⟨date, hour, minute, sec⟩ := first
  obtain ⟨date', hour', minute', sec'⟩ := second
  rcases Date.before_trichotomy date date' with hbefore | rfl | hafter
  · exact Or.inl (Or.inl hbefore)
  · simp only [Before, DateTime.mk.injEq, true_and]
    omega
  · exact Or.inr (Or.inr (Or.inl hafter))

theorem Before.seconds_lt {first second : DateTime} (hbefore : first.Before second)
    (hfirst : first.Valid) (hsecond : second.Valid) : first.seconds < second.seconds := by
  obtain ⟨hdate, _, _, _, _, _, _⟩ := hfirst
  obtain ⟨hdate', _, _, _, _, _, _⟩ := hsecond
  unfold seconds
  rcases hbefore with hdays | ⟨heq, htime⟩
  · have hlt := hdays.number_lt hdate hdate'
    omega
  · rw [heq]
    omega

/-- Valid date-times are in the order of their second counts. -/
theorem seconds_lt_iff {first second : DateTime} (hfirst : first.Valid) (hsecond : second.Valid) :
    first.seconds < second.seconds ↔ first.Before second := by
  refine ⟨fun hlt => ?_, fun hbefore => hbefore.seconds_lt hfirst hsecond⟩
  rcases before_trichotomy first second with hbefore | rfl | hafter
  · exact hbefore
  · exact absurd hlt (lt_irrefl _)
  · exact absurd hlt (hafter.seconds_lt hsecond hfirst).not_gt

end DateTime

end Gregorian
