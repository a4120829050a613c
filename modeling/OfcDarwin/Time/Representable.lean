import OfcDarwin.Time.DosRoundTrip

/-!
# Which FILETIMEs a DOS date-time can represent

`ofc_file_time_to_dos_date_time_impl` answers `OFC_TRUE` on every path.  Its
calendar starts at 1970 and counts up only, and the year of a stamp has seven bits
from 1980, so the answer is right for the FILETIMEs of 1980 to 2107
(`represents`) and for no other (`faithful_iff`).
-/

namespace OfcDarwin.Time

open Gregorian

/-- What the conversion relies on in the core library: that it packs elements
which have a place in a stamp, and that its epoch time is the signed count of
whole seconds since 1970, negative before. -/
structure Core.SignedEpoch (core : Core UInt64) : Prop where
  encode : ∀ elements : Elements, elements.InFatRange →
    core.timeElementsToDosDateTime elements = fatStamp elements
  epoch : ∀ fileTime : UInt64,
    (core.fileTimeToEpochTime fileTime).1 =
      ((fileTime.toNat : ℤ) - 116444736000000000) / 10000000

theorem tickCore_signedEpoch : tickCore.SignedEpoch := by
  refine ⟨fun _ _ => rfl, fun fileTime => ?_⟩
  simp only [tickCore]
  omega

/-- The UTC time of a FILETIME, in whole seconds since 1970. -/
def utcSeconds (fileTime : UInt64) : ℤ :=
  ((fileTime.toNat : ℤ) - 116444736000000000) / 10000000

/-- The FILETIMEs from 1980-01-01T00:00:00 to the end of 2107. -/
def InDosRange (fileTime : UInt64) : Prop :=
  119600064000000000 ≤ fileTime ∧ fileTime < 159992928000000000

instance (fileTime : UInt64) : Decidable (InDosRange fileTime) :=
  inferInstanceAs (Decidable (_ ∧ _))

theorem inDosRange_iff (fileTime : UInt64) :
    InDosRange fileTime ↔ 315532800 ≤ utcSeconds fileTime ∧ utcSeconds fileTime < 4354819200 := by
  simp only [InDosRange, utcSeconds, UInt64.le_iff_toNat_le, UInt64.lt_iff_toNat_lt,
    UInt64.reduceToNat]
  omega

/-! ## Packing a broken-down time -/

/-- A valid broken-down time of the years that a stamp holds. -/
structure Tm.Dos (tm : Tm) : Prop where
  valid : tm.dateTime.Valid
  year_low : 80 ≤ tm.year
  year_high : tm.year < 208

theorem toUInt16_cast {n : ℤ} (hlow : 0 ≤ n) (hhigh : n < 65536) :
    ((toUInt16 n).toNat : ℤ) = n := by
  rw [toUInt16, UInt16.toNat_ofNat']
  omega

/-- The casts to `OFC_UINT16` keep the fields of such a time. -/
theorem Tm.Dos.elements_cast {tm : Tm} (hdos : tm.Dos) : tm.elements.tm = tm := by
  obtain ⟨⟨⟨hmon, hmon', hday, hday'⟩, hhour, hhour', hmin, hmin', hsec, hsec'⟩, hlow, hhigh⟩ :=
    hdos
  have hlength := daysInMonth_le (isLeap tm.dateTime.date.year) tm.dateTime.date.month
  simp only [Tm.dateTime] at *
  unfold Tm.elements Elements.tm
  rw [toUInt16_cast (by omega) (by omega), toUInt16_cast (by omega) (by omega),
    toUInt16_cast (by omega) (by omega), toUInt16_cast (by omega) (by omega),
    toUInt16_cast (by omega) (by omega), toUInt16_cast (by omega) (by omega)]
  simp

/-- Elements of such a time have a place in a stamp. -/
theorem Elements.inFatRange {elements : Elements} (hdos : elements.tm.Dos) :
    elements.InFatRange := by
  obtain ⟨⟨⟨hmon, hmon', hday, hday'⟩, hhour, hhour', hmin, hmin', hsec, hsec'⟩, hlow, hhigh⟩ :=
    hdos
  have hlength := daysInMonth_le (isLeap elements.tm.dateTime.date.year)
    elements.tm.dateTime.date.month
  simp only [Tm.dateTime, Elements.tm] at *
  simp only [Elements.InFatRange, UInt16.lt_iff_toNat_lt, UInt16.le_iff_toNat_le,
    UInt16.reduceToNat]
  refine ⟨?_, ?_, ?_, ?_, ?_, ?_, ?_⟩ <;> omega

theorem Tm.Dos.inFatRange {tm : Tm} (hdos : tm.Dos) : tm.elements.InFatRange :=
  Elements.inFatRange (by rwa [hdos.elements_cast])

/-- A stamp decodes to the elements it was packed from, to an even second. -/
theorem fatDateTime_fatStamp {elements : Elements} (hrange : elements.InFatRange) :
    fatDateTime (fatStamp elements).1 (fatStamp elements).2 =
      { elements.tm.dateTime with second := elements.tm.sec / 2 * 2 } := by
  obtain ⟨hlow, hhigh, hmon, hday, hhour, hmin, hsec⟩ := hrange
  simp only [UInt16.lt_iff_toNat_lt, UInt16.le_iff_toNat_le, UInt16.reduceToNat] at *
  simp only [fatDateTime, fatStamp, Tm.dateTime, Elements.tm, DateTime.mk.injEq, Date.mk.injEq,
    UInt16.toNat_add, UInt16.toNat_mul, UInt16.toNat_div, UInt16.toNat_sub,
    UInt16.reduceToNat]
  refine ⟨⟨?_, ?_, ?_⟩, ?_, ?_, ?_⟩ <;> omega

/-- Truncating a valid date-time to an even second. -/
theorem evenSecond_spec {moment : DateTime} (hvalid : moment.Valid) :
    DateTime.Valid { moment with second := moment.second / 2 * 2 } ∧
      DateTime.seconds { moment with second := moment.second / 2 * 2 } =
        moment.seconds / 2 * 2 := by
  obtain ⟨hdate, hhour, hhour', hmin, hmin', hsec, hsec'⟩ := hvalid
  refine ⟨⟨hdate, hhour, hhour', hmin, hmin', ?_, ?_⟩, ?_⟩
  · show 0 ≤ moment.second / 2 * 2
    omega
  · show moment.second / 2 * 2 < 60
    omega
  · unfold DateTime.seconds
    simp only
    omega

/-! ## Representing a FILETIME -/

/-- The broken-down time of a FILETIME of the format's years. -/
theorem localTime_dos {time : ℤ} (hlow : 315532800 ≤ time) (hhigh : time < 4354819200) :
    (ofcTimeLocalTime time).Dos ∧ (ofcTimeLocalTime time).dateTime.seconds = time := by
  have htime : 0 ≤ time := by omega
  have hlast := localTime_year_le htime
  obtain ⟨hvalid, hseconds, -⟩ := localTime_spec htime (by omega)
  have h1980 : 86400 * (daysBeforeYear 1980 - daysBeforeYear 1970) = 315532800 := rfl
  have h2108 : 86400 * (daysBeforeYear 2108 - daysBeforeYear 1970) = 4354819200 := rfl
  have hyear : 1980 ≤ (ofcTimeLocalTime time).year + 1900 :=
    DateTime.le_year hvalid (by omega)
  have hyear' : (ofcTimeLocalTime time).year + 1900 < 2108 :=
    DateTime.year_lt hvalid (by omega)
  exact ⟨⟨hvalid, by omega, by omega⟩, hseconds⟩

/-- The stamp of a FILETIME encodes a valid date-time, its UTC time truncated to
an even second. -/
def Represents (core : Core UInt64) (fileTime : UInt64) : Prop :=
  let moment := fatDateTime (ofcFileTimeToDosDateTimeImpl core fileTime).2.1
    (ofcFileTimeToDosDateTimeImpl core fileTime).2.2
  moment.Valid ∧ moment.seconds = utcSeconds fileTime / 2 * 2

theorem represents {core : Core UInt64} (hcore : core.SignedEpoch) {fileTime : UInt64}
    (hrange : InDosRange fileTime) : Represents core fileTime := by
  obtain ⟨hlow, hhigh⟩ := (inDosRange_iff fileTime).mp hrange
  obtain ⟨hdos, hseconds⟩ := localTime_dos hlow hhigh
  obtain ⟨hvalid, heven⟩ := evenSecond_spec hdos.valid
  have hepoch : (core.fileTimeToEpochTime fileTime).1 = utcSeconds fileTime :=
    hcore.epoch fileTime
  unfold Represents ofcFileTimeToDosDateTimeImpl
  simp only
  rw [hepoch, hcore.encode _ hdos.inFatRange, fatDateTime_fatStamp hdos.inFatRange,
    hdos.elements_cast]
  exact ⟨hvalid, heven.trans (by rw [hseconds])⟩

/-- What the result of a conversion means: `OFC_TRUE` comes with a stamp that
represents the FILETIME, and a FILETIME outside the format is reported. -/
def Faithful (core : Core UInt64) (fileTime : UInt64) : Prop :=
  ((ofcFileTimeToDosDateTimeImpl core fileTime).1 = true → Represents core fileTime) ∧
    (¬ InDosRange fileTime → (ofcFileTimeToDosDateTimeImpl core fileTime).1 = false)

/-- The result of a conversion means what it says exactly for the FILETIMEs of
1980 to 2107. -/
theorem faithful_iff {core : Core UInt64} (hcore : core.SignedEpoch) (fileTime : UInt64) :
    Faithful core fileTime ↔ InDosRange fileTime := by
  constructor
  · rintro ⟨-, hreported⟩
    by_contra houtside
    exact absurd (hreported houtside) (by simp [ofcFileTimeToDosDateTimeImpl])
  · intro hrange
    exact ⟨fun _ => represents hcore hrange, fun houtside => absurd hrange houtside⟩

/-- 29 February 2020, 12:34:57, is represented as 12:34:56. -/
theorem faithful_leap_day : Faithful tickCore 132274532970000000 :=
  (faithful_iff tickCore_signedEpoch 132274532970000000).mpr (by decide)

/-- The first FILETIME, 1 January 1601, is converted with `OFC_TRUE`. -/
theorem not_faithful_1601 :
    tickCore.SignedEpoch ∧ (ofcFileTimeToDosDateTimeImpl tickCore 0).1 = true ∧
      ¬ InDosRange 0 ∧ ¬ Represents tickCore 0 ∧
      ¬ ∀ fileTime, Faithful tickCore fileTime := by
  have houtside : ¬ InDosRange 0 := by decide
  refine ⟨tickCore_signedEpoch, rfl, houtside, ?_, fun hall => ?_⟩
  · rintro ⟨-, hseconds⟩
    revert hseconds
    decide
  · exact absurd ((hall 0).2 houtside) (by decide)

end OfcDarwin.Time
