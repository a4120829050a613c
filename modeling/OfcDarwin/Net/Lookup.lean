import Mathlib.Data.Nat.Nth
import OfcDarwin.Net.Model

/-!
# Interface count and interface lookup agree

Both loops apply one condition to an entry (`eligible`), so both are about the
eligible places of the list: the count is their number (`count_eq`), and the
cursor of the lookup stops at the place with `index` eligible places before it
(`walk_of_place`).  The place numbered `i` is `Nat.nth`, which is injective and
reaches every eligible place.
-/

namespace OfcDarwin.Net

open Socket

variable {config : Config} {constants : Constants} {net : NetOrder}

/-! ## The eligible places of a list -/

/-- The entries that are interfaces of the configuration, by their flags, their name and
the family of their address. -/
def eligible (config : Config) (entry : Ifaddrs) : Bool :=
  entry.ifaFlags &&& iffUp != 0 &&
    (config.loopback || entry.ifaFlags &&& iffLoopback == 0) &&
    (!config.ignoreEn5 || entry.ifaName != "en5") &&
    (config.discoverIpv4 && entry.ifaAddr.saFamily == afInet ||
      config.discoverIpv6 && entry.ifaAddr.saFamily == afInet6)

/-- The place `q` of the list holds an eligible entry. -/
def EligibleAt (config : Config) (ifap : List Ifaddrs) (q : ℕ) : Prop :=
  (ifap[q]?).any (eligible config)

instance (ifap : List Ifaddrs) : DecidablePred (EligibleAt config ifap) :=
  fun _ => inferInstanceAs (Decidable (_ = true))

/-- How many of the first `n` places are eligible. -/
abbrev eligibleCount (config : Config) (ifap : List Ifaddrs) (n : ℕ) : ℕ :=
  Nat.count (EligibleAt config ifap) n

theorem eligibleAt_iff {ifap : List Ifaddrs} {q : ℕ} :
    EligibleAt config ifap q ↔ ∃ entry, ifap[q]? = some entry ∧ eligible config entry = true := by
  unfold EligibleAt
  cases ifap[q]? <;> simp

theorem EligibleAt.lt_length {ifap : List Ifaddrs} {q : ℕ} (hq : EligibleAt config ifap q) :
    q < ifap.length := by
  obtain ⟨entry, hentry, -⟩ := eligibleAt_iff.mp hq
  exact (List.getElem?_eq_some_iff.mp hentry).1

theorem eligibleCount_cons (entry : Ifaddrs) (next : List Ifaddrs) (n : ℕ) :
    eligibleCount config (entry :: next) (n + 1) =
      eligibleCount config next n + if eligible config entry then 1 else 0 := by
  unfold eligibleCount
  rw [Nat.count_succ']
  rfl

/-! ## The two loops -/

theorem matchFamilies_eq (config : Config) (entry : Ifaddrs) :
    matchFamilies config entry =
      (config.discoverIpv4 && entry.ifaAddr.saFamily == afInet ||
        config.discoverIpv6 && entry.ifaAddr.saFamily == afInet6) := by
  unfold matchFamilies
  cases config.discoverIpv4 <;> cases config.discoverIpv6 <;>
    cases hinet : entry.ifaAddr.saFamily == afInet <;>
    cases hinet6 : entry.ifaAddr.saFamily == afInet6 <;> simp_all

/-- What the two loops ask of an entry. -/
theorem eligible_eq (config : Config) (entry : Ifaddrs) :
    eligible config entry =
      (!ignored config entry && (config.loopback || !entry.has iffLoopback) &&
        entry.has iffUp && matchFamilies config entry) := by
  unfold eligible ignored Ifaddrs.has
  rw [← matchFamilies_eq]
  simp only [bne]
  cases config.ignoreEn5 <;> cases entry.ifaName == "en5" <;> cases config.loopback <;>
    cases entry.ifaFlags &&& iffUp == 0 <;> cases entry.ifaFlags &&& iffLoopback == 0 <;> simp

theorem countRound_eq (maxCount : ℤ) (entry : Ifaddrs) :
    countRound config maxCount entry = maxCount + if eligible config entry then 1 else 0 := by
  rw [eligible_eq]
  unfold countRound
  cases ignored config entry <;> cases config.loopback <;> cases entry.has iffLoopback <;>
    cases entry.has iffUp <;> cases matchFamilies config entry <;> simp

/-- The loop of the lookup moves past an entry that is not eligible, and at an
eligible one stops or counts. -/
theorem walk_cons (index maxCount : ℤ) (entry : Ifaddrs) (next : List Ifaddrs) :
    walk config index (entry :: next) maxCount =
      if eligible config entry then
        if maxCount = index then (entry :: next, true) else walk config index next (maxCount + 1)
      else walk config index next maxCount := by
  rw [walk, eligible_eq]
  cases ignored config entry <;> cases config.loopback <;> cases entry.has iffLoopback <;>
    cases entry.has iffUp <;> cases matchFamilies config entry <;> simp

theorem foldl_countRound (ifap : List Ifaddrs) (maxCount : ℤ) :
    ifap.foldl (countRound config) maxCount =
      maxCount + eligibleCount config ifap ifap.length := by
  induction ifap generalizing maxCount with
  | nil => simp
  | cons entry next ih =>
      rw [List.foldl_cons, ih, countRound_eq, List.length_cons, eligibleCount_cons]
      split <;> omega

/-- The count is the number of eligible places. -/
theorem count_eq (ifap : List Ifaddrs) :
    ofcNetInterfaceCountImpl config (some ifap) = eligibleCount config ifap ifap.length := by
  rw [ofcNetInterfaceCountImpl, foldl_countRound, zero_add]

/-- The cursor stops at the eligible place with `index` eligible ones before it. -/
theorem walk_of_place {ifap : List Ifaddrs} {index maxCount : ℤ} {q : ℕ}
    (hplace : EligibleAt config ifap q)
    (hindex : maxCount + eligibleCount config ifap q = index) :
    walk config index ifap maxCount = (ifap.drop q, true) := by
  induction ifap generalizing maxCount q with
  | nil => simp [EligibleAt] at hplace
  | cons entry next ih =>
      rw [walk_cons]
      cases q with
      | zero =>
          have heligible : eligible config entry = true := by simpa [EligibleAt] using hplace
          rw [if_pos heligible, if_pos (by simpa using hindex), List.drop_zero]
      | succ q =>
          have hnext : EligibleAt config next q := by simpa [EligibleAt] using hplace
          rw [eligibleCount_cons] at hindex
          rw [List.drop_succ_cons]
          split
          · rename_i heligible
            rw [if_pos heligible] at hindex
            rw [if_neg (by omega)]
            exact ih hnext (by omega)
          · rename_i heligible
            rw [if_neg heligible] at hindex
            exact ih hnext (by omega)

/-- Where no eligible place has `index` eligible ones before it, the cursor runs
off the list. -/
theorem walk_of_no_place {ifap : List Ifaddrs} {index maxCount : ℤ}
    (hnone : ∀ q, EligibleAt config ifap q → maxCount + eligibleCount config ifap q ≠ index) :
    walk config index ifap maxCount = ([], false) := by
  induction ifap generalizing maxCount with
  | nil => rfl
  | cons entry next ih =>
      have hnext : ∀ q, EligibleAt config next q →
          maxCount + (if eligible config entry then 1 else 0) + eligibleCount config next q ≠
            index := by
        intro q hq
        have hne := hnone (q + 1) (by simpa [EligibleAt] using hq)
        rw [eligibleCount_cons] at hne
        split at hne <;> rename_i heligible <;> simp only [heligible] <;> simp <;> omega
      rw [walk_cons]
      split
      · rename_i heligible
        have hhere := hnone 0 (by simpa [EligibleAt] using heligible)
        rw [if_neg (by simpa using hhere)]
        exact ih (by simpa only [heligible, if_true] using hnext)
      · rename_i heligible
        exact ih (by simpa [heligible] using hnext)

/-! ## Indices and places -/

/-- The place that the index `i` stands for: the eligible one with `i` eligible
places before it. -/
noncomputable def placeOf (config : Config) (ifap : List Ifaddrs) (i : ℕ) : ℕ :=
  Nat.nth (EligibleAt config ifap) i

section Places

variable {ifap : List Ifaddrs} {i : ℕ}

/-- An index below the count stands for an eligible place. -/
theorem placeOf_spec (hi : i < eligibleCount config ifap ifap.length) :
    EligibleAt config ifap (placeOf config ifap i) ∧
      eligibleCount config ifap (placeOf config ifap i) = i := by
  have hcard : ∀ hfinite : (Set.ofPred (EligibleAt config ifap)).Finite,
      i < hfinite.toFinset.card :=
    fun hfinite => hi.trans_le (Nat.count_le_card hfinite _)
  exact ⟨Nat.nth_mem i hcard, Nat.count_nth hcard⟩

/-- Every eligible place has an index below the count. -/
theorem exists_index {q : ℕ} (hq : EligibleAt config ifap q) :
    ∃ i, i < eligibleCount config ifap ifap.length ∧ placeOf config ifap i = q :=
  ⟨eligibleCount config ifap q, Nat.count_strict_mono hq hq.lt_length, Nat.nth_count hq⟩

/-- Distinct indices stand for distinct places, in list order. -/
theorem placeOf_lt {j : ℕ} (hj : j < eligibleCount config ifap ifap.length) (hij : i < j) :
    placeOf config ifap i < placeOf config ifap j := by
  apply Nat.nth_lt_of_lt_count
  exact hij.trans_eq (placeOf_spec hj).2.symm

theorem walk_placeOf (hi : i < eligibleCount config ifap ifap.length) :
    walk config i ifap 0 = (ifap.drop (placeOf config ifap i), true) := by
  obtain ⟨hplace, hcount⟩ := placeOf_spec hi
  exact walk_of_place hplace (by rw [hcount, zero_add])

theorem walk_out_of_range {index : ℤ}
    (hout : ¬ (0 ≤ index ∧ index < eligibleCount config ifap ifap.length)) :
    walk config index ifap 0 = ([], false) := by
  refine walk_of_no_place fun q hq => ?_
  have hlt : eligibleCount config ifap q < eligibleCount config ifap ifap.length :=
    Nat.count_strict_mono hq hq.lt_length
  omega

end Places

/-! ## What the lookup reports -/

/-- Every requested output is an IPv4 address, and this one. -/
def AllIpv4 (addr : UInt32) (out : Outputs) : Prop :=
  ∀ ip, some ip ∈ [out.pinaddr, out.pbcast, out.pmask] → ip.ipVersion = .ip ∧ ip.ipv4 = addr

/-- What a lookup reports of an entry of family `AF_INET`. -/
structure ReportsInet (constants : Constants) (net : NetOrder) (entry : Ifaddrs)
    (out : Outputs) : Prop where
  inaddr : ∀ ip, out.pinaddr = some ip →
    ip.ipVersion = .ip ∧ ip.ipv4 = net.ntol entry.ifaAddr.sinAddr
  mask : ∀ ip, out.pmask = some ip →
    ip.ipVersion = .ip ∧ ip.ipv4 = net.ntol entry.ifaNetmask.sinAddr
  bcast : ∀ ip, out.pbcast = some ip → ip.ipVersion = .ip
  loopback : ∀ ip, out.pbcast = some ip → entry.has iffLoopback = true →
    ip.ipv4 = constants.inaddrLoopback
  /-- The address on the bits of the mask, and ones on the others. -/
  directed : ∀ ip, out.pbcast = some ip → entry.has iffLoopback = false →
    ip.ipv4 &&& net.ntol entry.ifaNetmask.sinAddr =
        net.ntol entry.ifaAddr.sinAddr &&& net.ntol entry.ifaNetmask.sinAddr ∧
      ip.ipv4 &&& ~~~(net.ntol entry.ifaNetmask.sinAddr) =
        ~~~(net.ntol entry.ifaNetmask.sinAddr)

/-- What a lookup reports of an entry of family `AF_INET6`. -/
structure ReportsInet6 (constants : Constants) (entry : Ifaddrs) (out : Outputs) : Prop where
  inaddr : ∀ ip, out.pinaddr = some ip → ip.ipVersion = .ipv6 ∧
    ip.ipv6 = { s6Addr := entry.ifaAddr.sin6Addr, scope := entry.ifaAddr.sin6ScopeId }
  mask : ∀ ip, out.pmask = some ip → ip.ipVersion = .ipv6 ∧
    ip.ipv6 = { s6Addr := entry.ifaNetmask.sin6Addr, scope := entry.ifaAddr.sin6ScopeId }
  bcast : ∀ ip, out.pbcast = some ip → ip.ipVersion = .ipv6 ∧
    ip.ipv6 =
      { s6Addr := if entry.has iffLoopback then constants.in6addrLoopback.s6Addr
          else constants.in6addrBcast.s6Addr
        scope := entry.ifaAddr.sin6ScopeId }

/-- The outputs are those of one entry, all of its family. -/
def Reports (constants : Constants) (net : NetOrder) (entry : Ifaddrs) (out : Outputs) : Prop :=
  entry.ifaAddr.saFamily = afInet ∧ ReportsInet constants net entry out ∨
    entry.ifaAddr.saFamily = afInet6 ∧ ReportsInet6 constants entry out

/-- The outputs that are asked for. -/
def Outputs.requested (out : Outputs) : Bool × Bool × Bool :=
  (out.pinaddr.isSome, out.pbcast.isSome, out.pmask.isSome)

/-- The broadcast address keeps the bits of the mask and sets the others. -/
theorem bcast_bits (addr mask : UInt32) :
    ((0xFFFFFFFF &&& ~~~mask) ||| addr) &&& mask = addr &&& mask ∧
      ((0xFFFFFFFF &&& ~~~mask) ||| addr) &&& ~~~mask = ~~~mask := by
  have hones : (0xFFFFFFFF : UInt32) = -1 := rfl
  rw [hones, UInt32.neg_one_and]
  simp only [← UInt32.toBitVec_inj, UInt32.toBitVec_and, UInt32.toBitVec_or, UInt32.toBitVec_not]
  constructor
  all_goals
    ext i hi
    simp only [BitVec.getElem_and, BitVec.getElem_or, BitVec.getElem_not]
    cases mask.toBitVec[i] <;> simp

theorem storeInet_reports (hbroadcast : constants.inaddrBroadcast = 0xFFFFFFFF) (entry : Ifaddrs)
    (out : Outputs) : ReportsInet constants net entry (storeInet constants net entry out) := by
  refine ⟨?_, ?_, ?_, ?_, ?_⟩
  · exact Option.forall_mem_map.mpr fun old _ => ⟨rfl, rfl⟩
  · exact Option.forall_mem_map.mpr fun old _ => ⟨rfl, rfl⟩
  · exact Option.forall_mem_map.mpr fun old _ => rfl
  · refine Option.forall_mem_map.mpr fun old _ hloopback => ?_
    simp [storeIpv4, hloopback]
  · refine Option.forall_mem_map.mpr fun old _ hloopback => ?_
    simp only [storeIpv4, hloopback, hbroadcast, Bool.not_false, if_true]
    exact bcast_bits _ _

theorem storeInet6_reports (entry : Ifaddrs) (out : Outputs) :
    ReportsInet6 constants entry (storeInet6 constants entry out) := by
  refine ⟨?_, ?_, ?_⟩
  · exact Option.forall_mem_map.mpr fun old _ => ⟨rfl, rfl⟩
  · exact Option.forall_mem_map.mpr fun old _ => ⟨rfl, rfl⟩
  · refine Option.forall_mem_map.mpr fun old _ => ?_
    cases hloopback : entry.has iffLoopback <;> simp [storeIpv6]

/-! ## Agreement -/

theorem clearOutputs_allIpv4 (constants : Constants) (out : Outputs) :
    AllIpv4 constants.inaddrNone (clearOutputs constants out) := by
  intro ip hip
  simp only [clearOutputs, List.mem_cons, List.not_mem_nil, or_false] at hip
  rcases hip with hip | hip | hip
  all_goals
    obtain ⟨old, -, rfl⟩ := Option.map_eq_some_iff.mp hip.symm
    exact ⟨rfl, rfl⟩

/-- An eligible entry has one of the two families. -/
theorem eligible_family {entry : Ifaddrs} (heligible : eligible config entry = true) :
    entry.ifaAddr.saFamily = afInet ∨ entry.ifaAddr.saFamily = afInet6 := by
  by_contra hneither
  rw [not_or] at hneither
  simp [eligible, hneither] at heligible

section Agreement

variable {ifap : List Ifaddrs} {index : ℤ} {out : Outputs}

/-- A lookup in range reports the eligible entry that its index stands for. -/
theorem lookup_in_range (hbroadcast : constants.inaddrBroadcast = 0xFFFFFFFF) (hlow : 0 ≤ index)
    (hhigh : index < ofcNetInterfaceCountImpl config (some ifap)) :
    ∃ entry, ifap[placeOf config ifap index.toNat]? = some entry ∧
      eligible config entry = true ∧
      Reports constants net entry
        (ofcNetInterfaceAddrImpl config constants net (some ifap) index out) ∧
      (ofcNetInterfaceAddrImpl config constants net (some ifap) index out).requested =
        out.requested := by
  obtain ⟨i, rfl⟩ := Int.eq_ofNat_of_zero_le hlow
  rw [count_eq] at hhigh
  have hi : i < eligibleCount config ifap ifap.length := by omega
  obtain ⟨entry, hentry, heligible⟩ := eligibleAt_iff.mp (placeOf_spec hi).1
  have hcursor : ifap.drop (placeOf config ifap i) =
      entry :: ifap.drop (placeOf config ifap i + 1) := by
    obtain ⟨hlt, hget⟩ := List.getElem?_eq_some_iff.mp hentry
    rw [List.drop_eq_getElem_cons hlt, hget]
  refine ⟨entry, hentry, heligible, ?_⟩
  unfold ofcNetInterfaceAddrImpl
  simp only [walk_placeOf hi, hcursor]
  rcases eligible_family heligible with hfamily | hfamily
  · rw [if_pos hfamily]
    exact ⟨Or.inl ⟨hfamily, storeInet_reports hbroadcast entry _⟩, by
      simp [Outputs.requested, storeInet, clearOutputs]⟩
  · rw [if_neg (by rw [hfamily]; decide), if_pos hfamily]
    exact ⟨Or.inr ⟨hfamily, storeInet6_reports entry _⟩, by
      simp [Outputs.requested, storeInet6, clearOutputs]⟩

/-- A lookup out of range leaves its outputs at no address. -/
theorem lookup_out_of_range
    (hout : ¬ (0 ≤ index ∧ index < ofcNetInterfaceCountImpl config (some ifap))) :
    ofcNetInterfaceAddrImpl config constants net (some ifap) index out =
      clearOutputs constants out := by
  rw [count_eq] at hout
  unfold ofcNetInterfaceAddrImpl
  simp only [walk_out_of_range hout]

end Agreement

/-- The interface count and the interface lookup are about the same entries. -/
structure Agree (config : Config) (constants : Constants) (net : NetOrder)
    (ifap : List Ifaddrs) (out : Outputs) : Prop where
  /-- An index below the count reports the eligible entry it stands for. -/
  reports : ∀ index : ℤ, 0 ≤ index → index < ofcNetInterfaceCountImpl config (some ifap) →
    ∃ entry, ifap[placeOf config ifap index.toNat]? = some entry ∧
      eligible config entry = true ∧
      Reports constants net entry
        (ofcNetInterfaceAddrImpl config constants net (some ifap) index out) ∧
      (ofcNetInterfaceAddrImpl config constants net (some ifap) index out).requested =
        out.requested
  /-- The entries come in list order, and none twice. -/
  ordered : ∀ i j : ℤ, 0 ≤ i → i < j → j < ofcNetInterfaceCountImpl config (some ifap) →
    placeOf config ifap i.toNat < placeOf config ifap j.toNat
  /-- No eligible entry is left out. -/
  covers : ∀ (q : ℕ) (entry : Ifaddrs), ifap[q]? = some entry → eligible config entry = true →
    ∃ index : ℤ, 0 ≤ index ∧ index < ofcNetInterfaceCountImpl config (some ifap) ∧
      placeOf config ifap index.toNat = q
  /-- Any other index reports no address. -/
  outside : ∀ index : ℤ, ¬ (0 ≤ index ∧ index < ofcNetInterfaceCountImpl config (some ifap)) →
    AllIpv4 constants.inaddrNone
        (ofcNetInterfaceAddrImpl config constants net (some ifap) index out) ∧
      (ofcNetInterfaceAddrImpl config constants net (some ifap) index out).requested =
        out.requested

theorem count_lookup_agree (config : Config) (constants : Constants) (net : NetOrder)
    (hbroadcast : constants.inaddrBroadcast = 0xFFFFFFFF) (ifap : List Ifaddrs)
    (out : Outputs) : Agree config constants net ifap out where
  reports _ hlow hhigh := lookup_in_range hbroadcast hlow hhigh
  ordered i j hlow hij hhigh := by
    rw [count_eq] at hhigh
    exact placeOf_lt (by omega) (by omega)
  covers q entry hentry heligible := by
    obtain ⟨i, hi, hplace⟩ := exists_index (eligibleAt_iff.mpr ⟨entry, hentry, heligible⟩)
    rw [count_eq]
    exact ⟨i, by omega, by omega, hplace⟩
  outside index hout := by
    rw [lookup_out_of_range hout]
    exact ⟨clearOutputs_allIpv4 constants out, by simp [Outputs.requested, clearOutputs]⟩

/-- The loopback interface and one address each of IPv4 and IPv6 on `en0`: the two of
`en0` are counted, and reported in their order. -/
theorem count_lookup_agree_en0 :
    let noAddr := Vector.replicate 16 (0 : UInt8)
    let inet (addr : AddrBytes) : InterfaceAddr :=
      { saFamily := afInet, sinAddr := addr, sin6Addr := noAddr, sin6ScopeId := 0 }
    let inet6 (addr : Vector UInt8 16) : InterfaceAddr :=
      { saFamily := afInet6, sinAddr := (0, 0, 0, 0), sin6Addr := addr, sin6ScopeId := 4 }
    let constants : Constants :=
      { inaddrNone := 0xFFFFFFFF
        inaddrBroadcast := 0xFFFFFFFF
        inaddrLoopback := 0x7F000001
        in6addrBcast := { s6Addr := Vector.replicate 16 255, scope := 0 }
        in6addrLoopback := { s6Addr := noAddr.set 15 1, scope := 0 } }
    let noIp : IPAddr := { ipVersion := .ip, ipv4 := 0, ipv6 := { s6Addr := noAddr, scope := 0 } }
    let config : Config :=
      { loopback := false, ignoreEn5 := true, discoverIpv4 := true, discoverIpv6 := true }
    let ifap : List Ifaddrs :=
      [ { ifaName := "lo0", ifaFlags := 0x8049, ifaAddr := inet (127, 0, 0, 1),
          ifaNetmask := inet (255, 0, 0, 0) },
        { ifaName := "en0", ifaFlags := 0x8863, ifaAddr := inet (192, 168, 1, 20),
          ifaNetmask := inet (255, 255, 255, 0) },
        { ifaName := "en0", ifaFlags := 0x8863, ifaAddr := inet6 (Vector.replicate 16 0xFE),
          ifaNetmask := inet6 (Vector.replicate 16 0xFF) } ]
    let out : Outputs := { pinaddr := some noIp, pbcast := some noIp, pmask := some noIp }
    let lookup (index : ℤ) :=
      ofcNetInterfaceAddrImpl config constants NetOrder.bigEndian (some ifap) index out
    Agree config constants NetOrder.bigEndian ifap out ∧
      ofcNetInterfaceCountImpl config (some ifap) = 2 ∧
      (lookup 0).pinaddr.map IPAddr.ipv4 = some 0xC0A80114 ∧
      (lookup 0).pbcast.map IPAddr.ipv4 = some 0xC0A801FF ∧
      (lookup 1).pinaddr.map IPAddr.ipv6 =
        some { s6Addr := Vector.replicate 16 0xFE, scope := 4 } ∧
      (lookup 2).pinaddr.map IPAddr.ipv4 = some 0xFFFFFFFF := by
  intro noAddr inet inet6 constants noIp config ifap out lookup
  exact ⟨count_lookup_agree config constants _ rfl ifap out, by decide, by decide, by decide,
    by decide, by decide⟩

end OfcDarwin.Net
