import Mathlib.Data.UInt
import OfcDarwin.Time.Calendar

/-!
# DOS date-times through a FILETIME and back

A FAT stamp packs a date into seven bits of year from 1980, four of month and
five of day, and a time into five bits of hour, six of minute and five of
two-second count.  `Core.Standard` collects what is expected of the core
library: that its helpers pack and unpack this way, and that its FILETIME keeps
whole seconds.

* `dosEpochSeconds_eq`: the seconds passed on are the Gregorian ones, kept in
  the 32 bits of `ofc_time_make_time`'s accumulator.
* `dosDateTime_roundTrip_iff`: so a valid stamp is passed on correctly, and
  comes back, exactly when it lies less than `2 ^ 32` seconds after 1970.  The
  stamps of the format's last two years do not.
-/

namespace OfcDarwin.Time

open Gregorian

/-! ## The FAT format -/

/-- The elements a stamp encodes. -/
def fatElements (fatDate fatTime : UInt16) : Elements :=
  { mon := fatDate / 32 % 16
    day := fatDate % 32
    year := fatDate / 512 + 1980
    hour := fatTime / 2048
    min := fatTime / 32 % 64
    sec := fatTime % 32 * 2 }

/-- The stamp that encodes some elements. -/
def fatStamp (elements : Elements) : UInt16 × UInt16 :=
  ((elements.year - 1980) * 512 + elements.mon * 32 + elements.day,
    elements.hour * 2048 + elements.min * 32 + elements.sec / 2)

/-- The elements that have a place in a stamp. -/
def Elements.InFatRange (elements : Elements) : Prop :=
  1980 ≤ elements.year ∧ elements.year < 2108 ∧ elements.mon < 16 ∧ elements.day < 32 ∧
    elements.hour < 32 ∧ elements.min < 64 ∧ elements.sec < 64

/-- The moment a stamp encodes. -/
def fatDateTime (fatDate fatTime : UInt16) : DateTime :=
  { date :=
      { year := 1980 + fatDate.toNat / 512
        month := fatDate.toNat / 32 % 16
        day := fatDate.toNat % 32 }
    hour := fatTime.toNat / 2048
    minute := fatTime.toNat / 32 % 64
    second := fatTime.toNat % 32 * 2 }

/-- What the two conversions rely on in the core library. -/
structure Core.Standard {FileTime : Type} (core : Core FileTime) : Prop where
  decode : ∀ fatDate fatTime,
    core.dosDateTimeToElements fatDate fatTime = fatElements fatDate fatTime
  encode : ∀ elements : Elements, elements.InFatRange →
    core.timeElementsToDosDateTime elements = fatStamp elements
  epoch : ∀ sec : ℤ, 0 ≤ sec → sec < 2 ^ 32 →
    core.fileTimeToEpochTime (core.epochTimeToFileTime sec 0) = (sec, 0)

/-- A FILETIME counts the 100 ns ticks since 1601. -/
def tickCore : Core UInt64 :=
  { dosDateTimeToElements := fatElements
    timeElementsToDosDateTime := fatStamp
    epochTimeToFileTime := fun sec nsec =>
      UInt64.ofNat (((sec + 11644473600) * 10000000 + nsec / 100) % 2 ^ 64).toNat
    fileTimeToEpochTime := fun ticks =>
      (ticks.toNat / 10000000 - 11644473600, ticks.toNat % 10000000 * 100) }

theorem tickCore_standard : tickCore.Standard := by
  refine ⟨fun _ _ => rfl, fun _ _ => rfl, fun sec hlow hhigh => ?_⟩
  have hfits : (sec + 11644473600) * 10000000 + 0 / 100 < 2 ^ 64 := by omega
  have hticks : (UInt64.ofNat (((sec + 11644473600) * 10000000 + 0 / 100) % 2 ^ 64).toNat).toNat =
      ((sec + 11644473600) * 10000000 + 0 / 100).toNat := by
    rw [Int.emod_eq_of_lt (by omega) hfits, UInt64.toNat_ofNat', Nat.mod_eq_of_lt]
    exact (Int.toNat_lt (by omega)).mpr hfits
  simp only [tickCore, hticks, Prod.mk.injEq]
  omega

/-! ## Packing and unpacking -/

theorem fatElements_tm (fatDate fatTime : UInt16) :
    (fatElements fatDate fatTime).tm.dateTime = fatDateTime fatDate fatTime := by
  have hdate := fatDate.toNat_lt
  have htime := fatTime.toNat_lt
  simp only [Tm.dateTime, Elements.tm, fatElements, fatDateTime, DateTime.mk.injEq, Date.mk.injEq,
    UInt16.toNat_add, UInt16.toNat_mul, UInt16.toNat_div, UInt16.toNat_mod, UInt16.reduceToNat]
  refine ⟨⟨?_, ?_, ?_⟩, ?_, ?_, ?_⟩ <;> omega

theorem fatElements_inFatRange (fatDate fatTime : UInt16) :
    (fatElements fatDate fatTime).InFatRange := by
  have hdate := fatDate.toNat_lt
  have htime := fatTime.toNat_lt
  simp only [Elements.InFatRange, fatElements, UInt16.lt_iff_toNat_lt, UInt16.le_iff_toNat_le,
    UInt16.toNat_add, UInt16.toNat_mul, UInt16.toNat_div, UInt16.toNat_mod, UInt16.reduceToNat]
  refine ⟨?_, ?_, ?_, ?_, ?_, ?_, ?_⟩ <;> omega

theorem fatStamp_fatElements (fatDate fatTime : UInt16) :
    fatStamp (fatElements fatDate fatTime) = (fatDate, fatTime) := by
  have hdate := fatDate.toNat_lt
  have htime := fatTime.toNat_lt
  have hyear : fatDate / 512 + 1980 - 1980 = fatDate / 512 := by
    rw [UInt16.add_sub_cancel]
  simp only [fatStamp, fatElements, hyear, Prod.mk.injEq, ← UInt16.toNat_inj, UInt16.toNat_add,
    UInt16.toNat_mul, UInt16.toNat_div, UInt16.toNat_mod, UInt16.reduceToNat]
  constructor <;> omega

theorem toUInt16_toNat (word : UInt16) : toUInt16 word.toNat = word := by
  have hword := word.toNat_lt
  rw [toUInt16, ← UInt16.toNat_inj, UInt16.toNat_ofNat']
  omega

/-- The casts to `OFC_UINT16` lose nothing of what came from elements. -/
theorem elements_tm (elements : Elements) : elements.tm.elements = elements := by
  unfold Tm.elements Elements.tm
  simp only [sub_add_cancel, toUInt16_toNat]

/-! ## The round trip -/

section RoundTrip

variable {FileTime : Type} {core : Core FileTime}

/-- The stamp that comes back from the FILETIME of a stamp, which is stored in
`*lpFileTime`. -/
def dosRoundTrip (core : Core FileTime) (fatDate fatTime : UInt16) (lpFileTime : FileTime) :
    Option (UInt16 × UInt16) :=
  (ofcDosDateTimeToFileTimeImpl core fatDate fatTime lpFileTime).map fun stored =>
    (ofcFileTimeToDosDateTimeImpl core stored.2).2

variable {fatDate fatTime : UInt16}

theorem fatDateTime_year (fatDate fatTime : UInt16) :
    80 ≤ (fatElements fatDate fatTime).tm.year ∧ (fatElements fatDate fatTime).tm.year < 208 := by
  have heq := congrArg (fun moment => moment.date.year) (fatElements_tm fatDate fatTime)
  have hbound := fatDate.toNat_lt
  simp only [Tm.dateTime, fatDateTime] at heq
  omega

theorem dosEpochSeconds_eq (hcore : core.Standard)
    (hvalid : (fatDateTime fatDate fatTime).Valid) :
    dosEpochSeconds core fatDate fatTime =
      some (toUInt32 (fatDateTime fatDate fatTime).seconds) := by
  rw [dosEpochSeconds, hcore.decode, ← fatElements_tm]
  rw [← fatElements_tm] at hvalid
  obtain ⟨hyear, hyear'⟩ := fatDateTime_year fatDate fatTime
  exact makeTime_eq hvalid (by omega) (by omega)

/-- The other direction, from the true second count of a stamp. -/
theorem dosDateTime_of_seconds (hcore : core.Standard)
    (hvalid : (fatDateTime fatDate fatTime).Valid)
    (hrange : (fatDateTime fatDate fatTime).seconds < 2 ^ 32) :
    (ofcFileTimeToDosDateTimeImpl core
      (core.epochTimeToFileTime (fatDateTime fatDate fatTime).seconds 0)).2 =
      (fatDate, fatTime) := by
  rw [← fatElements_tm] at hvalid hrange ⊢
  have hyear := fatDateTime_year fatDate fatTime
  have hnonneg := DateTime.seconds_nonneg hvalid (by
    show 1970 ≤ (fatElements fatDate fatTime).tm.year + 1900
    omega)
  rw [ofcFileTimeToDosDateTimeImpl, hcore.epoch _ hnonneg hrange]
  show core.timeElementsToDosDateTime (ofcTimeLocalTime _).elements = _
  rw [localTime_seconds hvalid (by omega) hrange, elements_tm,
    hcore.encode _ (fatElements_inFatRange fatDate fatTime), fatStamp_fatElements]

/-- A valid stamp passes its true second count on and comes back from its
FILETIME exactly when that count fits in 32 bits. -/
theorem dosDateTime_roundTrip_iff (hcore : core.Standard)
    (hvalid : (fatDateTime fatDate fatTime).Valid) (lpFileTime : FileTime) :
    (dosEpochSeconds core fatDate fatTime = some (fatDateTime fatDate fatTime).seconds ∧
      dosRoundTrip core fatDate fatTime lpFileTime = some (fatDate, fatTime)) ↔
      (fatDateTime fatDate fatTime).seconds < 2 ^ 32 := by
  rw [dosRoundTrip, ofcDosDateTimeToFileTimeImpl, dosEpochSeconds_eq hcore hvalid]
  constructor
  · rintro ⟨hseconds, -⟩
    rw [Option.some.injEq, toUInt32] at hseconds
    omega
  · intro hrange
    have hyear := fatDateTime_year fatDate fatTime
    have hnonneg := DateTime.seconds_nonneg hvalid (by
      show 1970 ≤ 1980 + (fatDate.toNat : ℤ) / 512
      omega)
    rw [toUInt32, Int.emod_eq_of_lt hnonneg hrange]
    refine ⟨rfl, ?_⟩
    simp only [Option.map_some, Option.some.injEq]
    exact dosDateTime_of_seconds hcore hvalid hrange

end RoundTrip

/-- 29 February 2104, 23:59:58. -/
theorem dosDateTime_roundTrip_leap_day :
    dosEpochSeconds tickCore 63581 49021 = some 4233772798 ∧
      dosRoundTrip tickCore 63581 49021 0 = some (63581, 49021) :=
  (@dosDateTime_roundTrip_iff _ tickCore 63581 49021 tickCore_standard
    ⟨⟨by decide, by decide, by decide, by decide⟩, by decide, by decide, by decide, by decide,
      by decide, by decide⟩ 0).mpr (by decide)

/-- 7 February 2106, 06:28:16 is `2 ^ 32` seconds after 1970, and is passed on
as 1970. -/
theorem dosDateTime_wraps :
    tickCore.Standard ∧ (fatDateTime 64583 13192).Valid ∧
      (fatDateTime 64583 13192).seconds = 2 ^ 32 ∧
      dosEpochSeconds tickCore 64583 13192 = some 0 ∧
      dosRoundTrip tickCore 64583 13192 0 ≠ some (64583, 13192) := by
  have hvalid : (fatDateTime 64583 13192).Valid :=
    ⟨⟨by decide, by decide, by decide, by decide⟩, by decide, by decide, by decide, by decide,
      by decide, by decide⟩
  have hseconds : (fatDateTime 64583 13192).seconds = 2 ^ 32 := by decide
  have hpassed := dosEpochSeconds_eq tickCore_standard hvalid
  rw [hseconds] at hpassed
  refine ⟨tickCore_standard, hvalid, hseconds, hpassed, ?_⟩
  rw [dosRoundTrip, ofcDosDateTimeToFileTimeImpl, hpassed]
  decide

end OfcDarwin.Time
