import OfcDarwin.Net.Nullable

/-!
# Where an enumeration reads through NULL

`readsNull` says of an entry that `match_families` is called for it and finds no
address, `counted` that it is counted.  In these terms each loop has one lemma for a
round and one for the list: the count reaches every entry (`count_eq`, `count_null`),
the lookup every entry up to the one it selects (`walk_cases`), which is the entry at
the place `index` among those counted (`lookup_eq`).
-/

namespace OfcDarwin.Net.Nullable

open Socket

/-! ## One entry -/

/-- The tests of an entry before `match_families`. -/
def guarded (config : Config) (entry : Ifaddrs) : Bool :=
  !ignored config entry && entry.has iffUp && (config.loopback || !entry.has iffLoopback)

/-- Some family is looked for, so that `match_families` reads the address. -/
def discovers (config : Config) : Bool := config.discoverIpv4 || config.discoverIpv6

/-- An address has a family that is looked for. -/
def familyMatches (config : Config) (addr : InterfaceAddr) : Bool :=
  config.discoverIpv4 && decide (addr.saFamily = afInet) ||
    config.discoverIpv6 && decide (addr.saFamily = afInet6)

/-- `match_families` is called for the entry and reads through NULL. -/
def readsNull (config : Config) (entry : Ifaddrs) : Bool :=
  guarded config entry && discovers config && entry.ifaAddr.isNone

/-- The entry has an address, and it is counted. -/
def counted (config : Config) (entry : Ifaddrs) : Bool :=
  guarded config entry && entry.ifaAddr.any (familyMatches config)

variable {config : Config}

theorem matchFamilies_eq (config : Config) (entry : Ifaddrs) :
    matchFamilies config entry =
      if discovers config && entry.ifaAddr.isNone then none
      else some (entry.ifaAddr.any (familyMatches config)) := by
  unfold matchFamilies discovers familyMatches
  cases entry.ifaAddr with
  | none => cases config.discoverIpv4 <;> cases config.discoverIpv6 <;> rfl
  | some addr =>
      cases config.discoverIpv4 <;> cases config.discoverIpv6 <;>
        by_cases hinet : addr.saFamily = afInet <;> by_cases hinet6 : addr.saFamily = afInet6 <;>
        simp [hinet, hinet6]

/-- Both loops test an entry with the same three conditions. -/
theorem ite_guarded {α : Type*} (config : Config) (entry : Ifaddrs) (yes no : α) :
    (if !ignored config entry then
      if config.loopback then if entry.has iffUp then yes else no
      else if !entry.has iffLoopback && entry.has iffUp then yes else no
    else no) = if guarded config entry then yes else no := by
  unfold guarded
  cases ignored config entry <;> cases config.loopback <;> cases entry.has iffUp <;>
    cases entry.has iffLoopback <;> rfl

/-- A loop past these tests goes on with `yes` when `match_families` finds a family looked
for, and with `no` otherwise. -/
theorem guarded_matchFamilies {α : Type} (config : Config) (entry : Ifaddrs)
    (yes no : Option α) :
    (if guarded config entry then
      matchFamilies config entry >>= fun found => if found then yes else no
    else no) =
      if readsNull config entry then none else if counted config entry then yes else no := by
  unfold readsNull counted
  rw [matchFamilies_eq]
  cases guarded config entry with
  | false => rfl
  | true =>
      rw [if_pos rfl, Bool.true_and, Bool.true_and]
      cases discovers config && entry.ifaAddr.isNone <;> rfl

theorem countRound_eq (config : Config) (maxCount : ℤ) (entry : Ifaddrs) :
    countRound config maxCount entry =
      if readsNull config entry then none
      else some (if counted config entry then maxCount + 1 else maxCount) := by
  unfold countRound
  rw [ite_guarded, guarded_matchFamilies, apply_ite some]
  rfl

theorem walk_cons (config : Config) (index : ℤ) (entry : Ifaddrs) (next : List Ifaddrs)
    (maxCount : ℤ) :
    walk config index (entry :: next) maxCount =
      if readsNull config entry then none
      else if counted config entry then
        if maxCount = index then some (entry :: next, true)
        else walk config index next (maxCount + 1)
      else walk config index next maxCount := by
  rw [walk, ite_guarded, guarded_matchFamilies]
  rfl

/-- A counted entry has an address of one of the two families. -/
theorem exists_addr_of_counted {entry : Ifaddrs} (hcounted : counted config entry = true) :
    ∃ addr, entry.ifaAddr = some addr ∧
      (addr.saFamily = afInet ∨ addr.saFamily = afInet6) := by
  rw [counted, Bool.and_eq_true, Option.any_eq_true] at hcounted
  obtain ⟨-, addr, haddr, hmatches⟩ := hcounted
  refine ⟨addr, haddr, ?_⟩
  simp only [familyMatches, Bool.or_eq_true, Bool.and_eq_true, decide_eq_true_eq] at hmatches
  exact hmatches.imp And.right And.right

/-! ## The two loops -/

/-- The entries that have an address. -/
def addressed (ifap : List Ifaddrs) : List Ifaddrs := ifap.filter (·.ifaAddr.isSome)

theorem filter_counted_addressed (config : Config) (ifap : List Ifaddrs) :
    (addressed ifap).filter (counted config) = ifap.filter (counted config) := by
  rw [addressed, List.filter_filter]
  apply List.filter_congr
  intro entry _
  cases hcounted : counted config entry with
  | false => rfl
  | true =>
      obtain ⟨addr, haddr, -⟩ := exists_addr_of_counted hcounted
      rw [haddr]
      rfl

theorem not_readsNull_addressed (config : Config) (ifap : List Ifaddrs) :
    ∀ entry ∈ addressed ifap, readsNull config entry = false := by
  intro entry hmem
  have haddr := (List.mem_filter.mp hmem).2
  rw [readsNull, Option.isNone_eq_false_iff.mpr haddr, Bool.and_false]

/-- Without a NULL read the loop counts the counted entries. -/
theorem count_eq {ifap : List Ifaddrs}
    (hsafe : ∀ entry ∈ ifap, readsNull config entry = false) :
    ofcNetInterfaceCountImpl config (some ifap) =
      some ((ifap.filter (counted config)).length : ℤ) := by
  have hfold : ∀ maxCount : ℤ, ifap.foldlM (countRound config) maxCount =
      some (maxCount + (ifap.filter (counted config)).length) := by
    induction ifap with
    | nil => exact fun maxCount => congrArg some (add_zero maxCount).symm
    | cons entry next ih =>
        intro maxCount
        have hnext := ih fun other hmem => hsafe other (List.mem_cons_of_mem _ hmem)
        rw [List.foldlM_cons, countRound_eq, hsafe entry List.mem_cons_self, List.filter_cons]
        cases counted config entry with
        | false => exact hnext maxCount
        | true =>
            refine (hnext (maxCount + 1)).trans ?_
            rw [if_pos rfl, List.length_cons, Nat.cast_succ, add_assoc, add_comm (1 : ℤ)]
  rw [ofcNetInterfaceCountImpl, hfold, zero_add]

/-- The count reaches every entry. -/
theorem count_null {ifap : List Ifaddrs} {entry : Ifaddrs} (hmem : entry ∈ ifap)
    (hnull : readsNull config entry = true) :
    ofcNetInterfaceCountImpl config (some ifap) = none := by
  have hfold : ∀ maxCount : ℤ, ifap.foldlM (countRound config) maxCount = none := by
    induction ifap with
    | nil => exact absurd hmem List.not_mem_nil
    | cons first next ih =>
        intro maxCount
        rw [List.foldlM_cons, countRound_eq]
        rcases List.mem_cons.mp hmem with rfl | hmem
        · rw [if_pos hnull]
          rfl
        · cases readsNull config first with
          | true => rfl
          | false => exact ih hmem _
  exact hfold 0

/-- The entry at the place `index` among the counted ones. -/
def selected (config : Config) (index : ℤ) (ifap : List Ifaddrs) : Option Ifaddrs :=
  if 0 ≤ index then (ifap.filter (counted config))[index.toNat]? else none

/-- Without a NULL read the loop stops at the entry it selects, or passes the list. -/
theorem walk_cases {ifap : List Ifaddrs}
    (hsafe : ∀ entry ∈ ifap, readsNull config entry = false) (index maxCount : ℤ) :
    (∃ entry after, selected config (index - maxCount) ifap = some entry ∧
        walk config index ifap maxCount = some (entry :: after, true)) ∨
      selected config (index - maxCount) ifap = none ∧
        walk config index ifap maxCount = some ([], false) := by
  induction ifap generalizing maxCount with
  | nil =>
      refine Or.inr ⟨?_, rfl⟩
      rw [selected]
      split <;> rfl
  | cons entry next ih =>
      have hnext := ih fun other hmem => hsafe other (List.mem_cons_of_mem _ hmem)
      rw [walk_cons, hsafe entry List.mem_cons_self]
      cases hcounted : counted config entry with
      | false =>
          have hskip : selected config (index - maxCount) (entry :: next) =
              selected config (index - maxCount) next := by
            rw [selected, selected, List.filter_cons_of_neg (by simp [hcounted])]
          rw [hskip]
          exact hnext maxCount
      | true =>
          simp only [Bool.false_eq_true, if_false, if_true]
          split
          · rename_i hindex
            refine Or.inl ⟨entry, next, ?_, rfl⟩
            rw [selected, hindex, sub_self, if_pos le_rfl,
              List.filter_cons_of_pos (by simp [hcounted])]
            rfl
          · rename_i hindex
            have hlater : selected config (index - maxCount) (entry :: next) =
                selected config (index - (maxCount + 1)) next := by
              rw [selected, selected, List.filter_cons_of_pos (by simp [hcounted])]
              by_cases hrange : maxCount < index
              · rw [if_pos (by omega), if_pos (by omega),
                  show (index - maxCount).toNat = (index - (maxCount + 1)).toNat + 1 by omega,
                  List.getElem?_cons_succ]
              · rw [if_neg (by omega), if_neg (by omega)]
            rw [hlater]
            exact hnext (maxCount + 1)

/-- Without a NULL read in its loop, the lookup stores for the selected entry. -/
theorem lookup_eq {ifap : List Ifaddrs} (hsafe : ∀ entry ∈ ifap, readsNull config entry = false)
    (constants : Constants) (net : NetOrder) (index : ℤ) (out : Outputs) :
    ofcNetInterfaceAddrImpl config constants net (some ifap) index out =
      match selected config index ifap with
      | none => some (clearOutputs constants out)
      | some entry => storeFound constants net entry (clearOutputs constants out) := by
  have hwalk := walk_cases hsafe index 0
  rw [sub_zero] at hwalk
  unfold ofcNetInterfaceAddrImpl
  rcases hwalk with ⟨entry, after, hselected, hwalk⟩ | ⟨hselected, hwalk⟩
  · simp only [hwalk, hselected]
    rfl
  · simp only [hwalk, hselected]
    rfl

/-! ## The stores -/

/-- An output is asked for that takes the mask of the entry. -/
def NeedsMask (entry : Ifaddrs) (out : Outputs) : Prop :=
  out.pmask.isSome = true ∨
    out.pbcast.isSome = true ∧ entry.has iffLoopback = false ∧
      entry.ifaAddr.map InterfaceAddr.saFamily = some afInet

theorem storeInet_eq_none_iff (constants : Constants) (net : NetOrder) (entry : Ifaddrs)
    (addr : InterfaceAddr) (out : Outputs) :
    storeInet constants net entry addr out = none ↔ entry.ifaNetmask = none ∧
      (out.pmask.isSome = true ∨ out.pbcast.isSome = true ∧ entry.has iffLoopback = false) := by
  obtain ⟨pinaddr, pbcast, pmask⟩ := out
  unfold storeInet
  cases entry.ifaNetmask <;> cases pmask <;> cases pbcast <;> cases entry.has iffLoopback <;> simp

theorem storeInet6_eq_none_iff (constants : Constants) (entry : Ifaddrs) (addr : InterfaceAddr)
    (out : Outputs) :
    storeInet6 constants entry addr out = none ↔
      entry.ifaNetmask = none ∧ out.pmask.isSome = true := by
  obtain ⟨pinaddr, pbcast, pmask⟩ := out
  unfold storeInet6
  cases entry.ifaNetmask <;> cases pmask <;> simp

/-- The stores for a counted entry read through NULL when they need a mask that is not
there. -/
theorem storeFound_eq_none_iff {entry : Ifaddrs} (hcounted : counted config entry = true)
    (constants : Constants) (net : NetOrder) (out : Outputs) :
    storeFound constants net entry out = none ↔
      entry.ifaNetmask = none ∧ NeedsMask entry out := by
  obtain ⟨addr, haddr, hfamily⟩ := exists_addr_of_counted hcounted
  have hdistinct : afInet6 ≠ afInet := by decide
  unfold storeFound NeedsMask
  rw [haddr]
  simp only [Option.bind_eq_bind, Option.bind_some, Option.map_some, Option.some.injEq]
  rcases hfamily with hinet | hinet6
  · rw [if_pos hinet, storeInet_eq_none_iff]
    simp only [hinet, and_true]
  · rw [hinet6, if_neg hdistinct, if_pos rfl, storeInet6_eq_none_iff]
    simp only [hdistinct, and_false, or_false]

theorem needsMask_clearOutputs (constants : Constants) (entry : Ifaddrs) (out : Outputs) :
    NeedsMask entry (clearOutputs constants out) ↔ NeedsMask entry out := by
  simp only [NeedsMask, clearOutputs, Option.isSome_map]

theorem counted_of_selected {index : ℤ} {ifap : List Ifaddrs} {entry : Ifaddrs}
    (hselected : selected config index ifap = some entry) : counted config entry = true := by
  rw [selected] at hselected
  split at hselected
  · exact (List.mem_filter.mp (List.mem_of_getElem? hselected)).2
  · cases hselected

/-! ## Safety -/

/-- The two functions return, and what they return does not depend on the entries without
an address: they are neither counted nor selected. -/
structure EnumerationSafe (config : Config) (constants : Constants) (net : NetOrder)
    (ifap : List Ifaddrs) (index : ℤ) (out : Outputs) : Prop where
  count : ∃ maxCount, ofcNetInterfaceCountImpl config (some ifap) = some maxCount ∧
    ofcNetInterfaceCountImpl config (some (addressed ifap)) = some maxCount
  lookup : ∃ result,
    ofcNetInterfaceAddrImpl config constants net (some ifap) index out = some result ∧
      ofcNetInterfaceAddrImpl config constants net (some (addressed ifap)) index out = some result

/-- Every entry that is up, is not ignored and, unless `OFC_LOOPBACK` is defined, is not a
loopback interface has an address, if there is a family to look for; and the entry at
`index` among those counted has a mask, if an output is asked for that needs it. -/
structure NothingMissing (config : Config) (ifap : List Ifaddrs) (index : ℤ) (out : Outputs) :
    Prop where
  addr : ∀ entry ∈ ifap, guarded config entry = true → discovers config = true →
    entry.ifaAddr ≠ none
  netmask : ∀ entry, selected config index ifap = some entry → NeedsMask entry out →
    entry.ifaNetmask ≠ none

theorem NothingMissing.not_readsNull {ifap : List Ifaddrs} {index : ℤ} {out : Outputs}
    (hpresent : NothingMissing config ifap index out) :
    ∀ entry ∈ ifap, readsNull config entry = false := by
  intro entry hmem
  by_contra hnull
  simp only [readsNull, Bool.not_eq_false, Bool.and_eq_true, Option.isNone_iff_eq_none] at hnull
  exact hpresent.addr entry hmem hnull.1.1 hnull.1.2 hnull.2

/-- The lookup on a list without a NULL read in its loops. -/
theorem lookup_ne_none_iff {ifap : List Ifaddrs}
    (hsafe : ∀ entry ∈ ifap, readsNull config entry = false) (constants : Constants)
    (net : NetOrder) (index : ℤ) (out : Outputs) :
    ofcNetInterfaceAddrImpl config constants net (some ifap) index out ≠ none ↔
      ∀ entry, selected config index ifap = some entry → NeedsMask entry out →
        entry.ifaNetmask ≠ none := by
  rw [lookup_eq hsafe]
  cases hselected : selected config index ifap with
  | none => exact iff_of_true nofun nofun
  | some entry =>
      have hcounted := counted_of_selected hselected
      show storeFound constants net entry (clearOutputs constants out) ≠ none ↔ _
      rw [Ne, storeFound_eq_none_iff hcounted, needsMask_clearOutputs]
      constructor
      · rintro hstores _ ⟨⟩ hneeds hnone
        exact hstores ⟨hnone, hneeds⟩
      · rintro hmask ⟨hnone, hneeds⟩
        exact hmask entry rfl hneeds hnone

/-- The enumeration is safe exactly when no address and no mask that it needs is
missing. -/
theorem enumerationSafe_iff (config : Config) (constants : Constants) (net : NetOrder)
    (ifap : List Ifaddrs) (index : ℤ) (out : Outputs) :
    EnumerationSafe config constants net ifap index out ↔
      NothingMissing config ifap index out := by
  constructor
  · rintro ⟨⟨maxCount, hcount, -⟩, result, hlookup, -⟩
    have hsafe : ∀ entry ∈ ifap, readsNull config entry = false := by
      intro entry hmem
      by_contra hnull
      rw [count_null hmem (Bool.not_eq_false _ ▸ hnull)] at hcount
      cases hcount
    refine ⟨?_, (lookup_ne_none_iff hsafe constants net index out).mp (by rw [hlookup]; simp)⟩
    intro entry hmem hguarded hdiscovers hnone
    have hread := hsafe entry hmem
    simp [readsNull, hguarded, hdiscovers, hnone] at hread
  · intro hpresent
    have hsafe := hpresent.not_readsNull
    have haddressed := not_readsNull_addressed config ifap
    refine ⟨⟨_, count_eq hsafe, ?_⟩, ?_⟩
    · rw [count_eq haddressed, filter_counted_addressed]
    · obtain ⟨result, hresult⟩ := Option.ne_none_iff_exists'.mp
        ((lookup_ne_none_iff hsafe constants net index out).mpr hpresent.netmask)
      refine ⟨result, hresult, ?_⟩
      rw [lookup_eq haddressed, selected, filter_counted_addressed, ← hresult, lookup_eq hsafe]
      rfl

/-- An interface that is up and has no address: both functions read through NULL,
whatever is asked for. -/
theorem enumeration_reads_null :
    let config : Config :=
      { loopback := false, ignoreEn5 := false, discoverIpv4 := true, discoverIpv6 := true }
    let entry : Ifaddrs :=
      { ifaName := "utun0", ifaFlags := iffUp, ifaAddr := none, ifaNetmask := none }
    ofcNetInterfaceCountImpl config (some [entry]) = none ∧
      ∀ constants net index out,
        ofcNetInterfaceAddrImpl config constants net (some [entry]) index out = none ∧
          ¬ EnumerationSafe config constants net [entry] index out := by
  intro config entry
  have hnull : readsNull config entry = true := by decide
  have hcount := @count_null config _ _ (List.mem_singleton_self entry) hnull
  refine ⟨hcount, fun constants net index out => ⟨?_, ?_⟩⟩
  · simp only [ofcNetInterfaceAddrImpl, walk_cons, hnull, if_true]
    rfl
  · rintro ⟨⟨maxCount, hreturns, -⟩, -⟩
    rw [hcount] at hreturns
    cases hreturns

end OfcDarwin.Net.Nullable
