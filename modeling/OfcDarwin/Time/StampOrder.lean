import OfcDarwin.Time.Representable

/-!
# Comparing DOS stamps

A stamp, read as one number with the date above the time, says which of two moments is
the later one.  So stamps may be compared in place of FILETIMEs, and the other way round:

* two FILETIMEs of 1980 to 2107 have their stamps in the order of their UTC times, to two
  seconds (`stampNumber_order`);
* two valid stamps before 2106-02-07 06:28:16 have their FILETIMEs in their own order
  (`fileTime_order`);
* a FILETIME that goes through its stamp and back is rounded down to two seconds
  (`fileTime_roundTrip`).

The first rests on the bits alone: the fields lie in a stamp in the order in which the
calendar compares them (`stampNumber_lt_iff`).
-/

namespace OfcDarwin.Time

open Gregorian

/-- What the conversions rely on in the core library, both ways: an epoch time is stored
as the 100 ns ticks since 1601. -/
structure Core.Ticks (core : Core UInt64) : Prop where
  standard : core.Standard
  signed : core.SignedEpoch
  store : ∀ sec : ℤ, 0 ≤ sec → sec < 2 ^ 32 →
    ((core.epochTimeToFileTime sec 0).toNat : ℤ) = (sec + 11644473600) * 10000000

theorem tickCore_ticks : tickCore.Ticks := by
  refine ⟨tickCore_standard, tickCore_signedEpoch, fun sec hlow hhigh => ?_⟩
  have hfits : (sec + 11644473600) * 10000000 + 0 / 100 < 2 ^ 64 := by omega
  simp only [tickCore]
  rw [Int.emod_eq_of_lt (by omega) hfits, UInt64.toNat_ofNat', Nat.mod_eq_of_lt]
  · omega
  · exact (Int.toNat_lt (by omega)).mpr hfits

/-! ## The number of a stamp -/

/-- A stamp as one number. -/
def stampNumber (stamp : UInt16 × UInt16) : ℕ := stamp.1.toNat * 65536 + stamp.2.toNat

/-- The fields of a stamp are compared from the year down to the second. -/
theorem stampNumber_lt_iff (first second : UInt16 × UInt16) :
    stampNumber first < stampNumber second ↔
      (fatDateTime first.1 first.2).Before (fatDateTime second.1 second.2) := by
  have htime := first.2.toNat_lt
  have htime' := second.2.toNat_lt
  simp only [stampNumber, fatDateTime, DateTime.Before, Date.Before, Date.mk.injEq]
  omega

/-- Valid stamps are in the order of their second counts. -/
theorem stampNumber_seconds {first second : UInt16 × UInt16}
    (hfirst : (fatDateTime first.1 first.2).Valid)
    (hsecond : (fatDateTime second.1 second.2).Valid) :
    stampNumber first < stampNumber second ↔
      (fatDateTime first.1 first.2).seconds < (fatDateTime second.1 second.2).seconds := by
  calc stampNumber first < stampNumber second
      ↔ (fatDateTime first.1 first.2).Before (fatDateTime second.1 second.2) :=
        stampNumber_lt_iff first second
    _ ↔ (fatDateTime first.1 first.2).seconds < (fatDateTime second.1 second.2).seconds :=
        (DateTime.seconds_lt_iff hfirst hsecond).symm

section Order

variable {core : Core UInt64}

/-- The stamps of two FILETIMEs are in the order of their UTC times, to two seconds. -/
theorem stampNumber_order (hcore : core.SignedEpoch) {first second : UInt64}
    (hfirst : InDosRange first) (hsecond : InDosRange second) :
    stampNumber (ofcFileTimeToDosDateTimeImpl core first).2 <
        stampNumber (ofcFileTimeToDosDateTimeImpl core second).2 ↔
      utcSeconds first / 2 < utcSeconds second / 2 := by
  obtain ⟨hvalid, hseconds⟩ := represents hcore hfirst
  obtain ⟨hvalid', hseconds'⟩ := represents hcore hsecond
  rw [stampNumber_seconds hvalid hvalid', hseconds, hseconds']
  omega

/-- The FILETIME of a valid stamp that fits in the 32 bits of `tim`. -/
theorem fileTime_of_stamp (hcore : core.Ticks) {fatDate fatTime : UInt16}
    (hvalid : (fatDateTime fatDate fatTime).Valid)
    (hrange : (fatDateTime fatDate fatTime).seconds < 2 ^ 32) (lpFileTime : UInt64) :
    ∃ stored, ofcDosDateTimeToFileTimeImpl core fatDate fatTime lpFileTime =
        some (true, stored) ∧
      (stored.toNat : ℤ) = ((fatDateTime fatDate fatTime).seconds + 11644473600) * 10000000 := by
  have hnonneg := DateTime.seconds_nonneg hvalid (by
    show 1970 ≤ 1980 + (fatDate.toNat : ℤ) / 512
    omega)
  have hkept : toUInt32 (fatDateTime fatDate fatTime).seconds =
      (fatDateTime fatDate fatTime).seconds := Int.emod_eq_of_lt hnonneg hrange
  refine ⟨core.epochTimeToFileTime (fatDateTime fatDate fatTime).seconds 0, ?_, ?_⟩
  · rw [ofcDosDateTimeToFileTimeImpl, dosEpochSeconds_eq hcore.standard hvalid, hkept]
    rfl
  · exact hcore.store _ hnonneg hrange

/-- The FILETIMEs of two valid stamps are in the order of the stamps, as long as both fit
in the 32 bits of `tim`. -/
theorem fileTime_order (hcore : core.Ticks) {first second : UInt16 × UInt16}
    (hfirst : (fatDateTime first.1 first.2).Valid)
    (hsecond : (fatDateTime second.1 second.2).Valid)
    (hrange : (fatDateTime first.1 first.2).seconds < 2 ^ 32)
    (hrange' : (fatDateTime second.1 second.2).seconds < 2 ^ 32) (lpFileTime : UInt64) :
    ∃ stored stored',
      ofcDosDateTimeToFileTimeImpl core first.1 first.2 lpFileTime = some (true, stored) ∧
      ofcDosDateTimeToFileTimeImpl core second.1 second.2 lpFileTime = some (true, stored') ∧
      (stored < stored' ↔ stampNumber first < stampNumber second) := by
  obtain ⟨stored, hstored, hticks⟩ := fileTime_of_stamp hcore hfirst hrange lpFileTime
  obtain ⟨stored', hstored', hticks'⟩ := fileTime_of_stamp hcore hsecond hrange' lpFileTime
  refine ⟨stored, stored', hstored, hstored', ?_⟩
  rw [stampNumber_seconds hfirst hsecond, UInt64.lt_iff_toNat_lt]
  omega

/-- A FILETIME of 1980 to 2106-02-07 06:28:15 comes back from its stamp rounded down to
two seconds. -/
theorem fileTime_roundTrip (hcore : core.Ticks) {fileTime : UInt64} (hrange : InDosRange fileTime)
    (hlow : utcSeconds fileTime < 2 ^ 32) (lpFileTime : UInt64) :
    let stamp := (ofcFileTimeToDosDateTimeImpl core fileTime).2
    ofcDosDateTimeToFileTimeImpl core stamp.1 stamp.2 lpFileTime =
      some (true, fileTime / 20000000 * 20000000) := by
  intro stamp
  obtain ⟨hvalid, hseconds⟩ := represents hcore.signed hrange
  have heven : (fatDateTime stamp.1 stamp.2).seconds = utcSeconds fileTime / 2 * 2 := hseconds
  obtain ⟨stored, hstored, hticks⟩ :=
    @fileTime_of_stamp core hcore stamp.1 stamp.2 hvalid (by omega) lpFileTime
  have hfloor : stored = fileTime / 20000000 * 20000000 := by
    have hbound := fileTime.toNat_lt
    rw [heven, utcSeconds] at hticks
    rw [← UInt64.toNat_inj, UInt64.toNat_mul, UInt64.toNat_div]
    simp only [UInt64.reduceToNat]
    omega
  rw [hstored, hfloor]

end Order

/-- The last second of 29 February 2020, and the first of 1 March. -/
theorem stampNumber_order_leap_day :
    stampNumber (ofcFileTimeToDosDateTimeImpl tickCore 132274943990000000).2 <
      stampNumber (ofcFileTimeToDosDateTimeImpl tickCore 132274944000000000).2 :=
  (stampNumber_order tickCore_signedEpoch (by decide) (by decide)).mpr (by decide)

/-- 29 February 2020, 23:59:58, and 1 March 2020, 00:00:00. -/
theorem fileTime_order_leap_day :
    ∃ stored stored', ofcDosDateTimeToFileTimeImpl tickCore 20573 49021 0 = some (true, stored) ∧
      ofcDosDateTimeToFileTimeImpl tickCore 20577 0 0 = some (true, stored') ∧
      stored < stored' := by
  obtain ⟨stored, stored', hstored, hstored', horder⟩ :=
    @fileTime_order _ tickCore_ticks (20573, 49021) (20577, 0)
      ⟨⟨by decide, by decide, by decide, by decide⟩, by decide, by decide, by decide, by decide,
        by decide, by decide⟩
      ⟨⟨by decide, by decide, by decide, by decide⟩, by decide, by decide, by decide, by decide,
        by decide, by decide⟩ (by decide) (by decide) 0
  exact ⟨stored, stored', hstored, hstored', horder.mpr (by decide)⟩

/-- The last second of 29 February 2020 comes back as the one before. -/
theorem fileTime_roundTrip_leap_day :
    let stamp := (ofcFileTimeToDosDateTimeImpl tickCore 132274943990000000).2
    ofcDosDateTimeToFileTimeImpl tickCore stamp.1 stamp.2 0 = some (true, 132274943980000000) :=
  fileTime_roundTrip tickCore_ticks (by decide) (by decide) 0

end OfcDarwin.Time
