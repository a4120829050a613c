import OfcDarwin.Time.DosRoundTrip

/-!
# Which DOS stamps are accepted

`ofc_dos_date_time_to_file_time_impl` looks at no field of the stamp it is given: it
answers `OFC_TRUE` whenever it returns, and it hands the month on to a table of
twelve entries.  Four bits of month do not fit that table, so the stamps fall into
three kinds: those that read outside of it (`dosEpochSeconds_none_iff`), those that
are accepted without being a date and a time, and the valid ones, the only ones on
which the answer means something (`checkedStamp_iff`).
-/

namespace OfcDarwin.Time

open Gregorian

variable {FileTime : Type} {core : Core FileTime}

/-- What the result for a stamp means: no entry outside of `_DAYS_BEFORE_MONTH` is
read, `OFC_TRUE` is for a valid stamp, and without it `*lpFileTime` is as it was. -/
def CheckedStamp (core : Core FileTime) (fatDate fatTime : UInt16) (lpFileTime : FileTime) :
    Prop :=
  ∃ result stored, ofcDosDateTimeToFileTimeImpl core fatDate fatTime lpFileTime =
      some (result, stored) ∧
    (result = true → (fatDateTime fatDate fatTime).Valid) ∧
    (result ≠ true → stored = lpFileTime)

/-- The table is read outside for month 0 and for the months after December. -/
theorem makeTime_none_iff (tm : Tm) : ofcTimeMakeTime tm = none ↔ tm.mon < 0 ∨ 12 ≤ tm.mon := by
  unfold ofcTimeMakeTime
  split
  · rename_i hinside
    exact iff_of_false nofun (by omega)
  · rename_i houtside
    exact iff_of_true rfl (by omega)

theorem dosEpochSeconds_none_iff
    (hdecode : ∀ fatDate fatTime,
      core.dosDateTimeToElements fatDate fatTime = fatElements fatDate fatTime)
    (fatDate fatTime : UInt16) :
    dosEpochSeconds core fatDate fatTime = none ↔
      (fatDateTime fatDate fatTime).date.month = 0 ∨
        12 < (fatDateTime fatDate fatTime).date.month := by
  have hmonth : (fatElements fatDate fatTime).tm.mon + 1 =
      (fatDateTime fatDate fatTime).date.month :=
    congrArg (fun moment => moment.date.month) (fatElements_tm fatDate fatTime)
  have hnonneg : 0 ≤ (fatDateTime fatDate fatTime).date.month := by
    show 0 ≤ (fatDate.toNat : ℤ) / 32 % 16
    omega
  rw [dosEpochSeconds, hdecode, makeTime_none_iff]
  omega

/-- Whenever the conversion returns, it accepts. -/
theorem dosDateTime_result {fatDate fatTime : UInt16} {lpFileTime : FileTime}
    {stored : Bool × FileTime}
    (hreturns : ofcDosDateTimeToFileTimeImpl core fatDate fatTime lpFileTime = some stored) :
    stored.1 = true := by
  obtain ⟨sec, -, rfl⟩ := Option.map_eq_some_iff.mp hreturns
  rfl

/-- The result for a stamp means what it should exactly when the stamp is valid. -/
theorem checkedStamp_iff
    (hdecode : ∀ fatDate fatTime,
      core.dosDateTimeToElements fatDate fatTime = fatElements fatDate fatTime)
    (fatDate fatTime : UInt16) (lpFileTime : FileTime) :
    CheckedStamp core fatDate fatTime lpFileTime ↔ (fatDateTime fatDate fatTime).Valid := by
  constructor
  · rintro ⟨result, stored, hreturns, haccepted, -⟩
    exact haccepted (dosDateTime_result hreturns)
  · intro hvalid
    have hlow := hvalid.date.month_pos
    have hhigh := hvalid.date.month_le
    have hinside : dosEpochSeconds core fatDate fatTime ≠ none := by
      rw [Ne, dosEpochSeconds_none_iff hdecode]
      omega
    obtain ⟨sec, hsec⟩ := Option.ne_none_iff_exists'.mp hinside
    refine ⟨true, core.epochTimeToFileTime sec 0, ?_, fun _ => hvalid, fun hrejected =>
      absurd rfl hrejected⟩
    rw [ofcDosDateTimeToFileTimeImpl, hsec, Option.map_some]

/-- 29 February 2104, 23:59:58. -/
theorem checkedStamp_leap_day : CheckedStamp tickCore 63581 49021 0 :=
  (@checkedStamp_iff _ tickCore (fun _ _ => rfl) 63581 49021 0).mpr
    ⟨⟨by decide, by decide, by decide, by decide⟩, by decide, by decide, by decide, by decide,
      by decide, by decide⟩

/-- The stamp of zeros has month 0 and reads before the table; 31 February 1981 at
31:63:62 is accepted. -/
theorem not_checkedStamp_zero :
    ofcDosDateTimeToFileTimeImpl tickCore 0 0 0 = none ∧
      (ofcDosDateTimeToFileTimeImpl tickCore 607 65535 0).map Prod.fst = some true ∧
      ¬ (fatDateTime 607 65535).Valid ∧
      ¬ ∀ fatDate fatTime lpFileTime, CheckedStamp tickCore fatDate fatTime lpFileTime := by
  have hzero : ofcDosDateTimeToFileTimeImpl tickCore 0 0 0 = none := by decide
  refine ⟨hzero, by decide, fun hvalid => absurd hvalid.hour_lt (by decide), fun hall => ?_⟩
  obtain ⟨result, stored, hreturns, -⟩ := hall 0 0 0
  rw [hzero] at hreturns
  cases hreturns

end OfcDarwin.Time
