import Mathlib.Data.List.Count
import OfcDarwin.Net.Model

/-!
# Interfaces without an address or a mask

`getifaddrs` may leave `ifa_addr` or `ifa_netmask` of an entry NULL.  Here the two
functions of `Net/Model.lean` stand once more over entries whose pointers may be NULL,
and a read through a NULL pointer makes the whole call `none`.  On entries with both
pointers they are the functions of `Net/Model.lean` (`ofcNetInterfaceCountImpl_full`,
`ofcNetInterfaceAddrImpl_full`).

Neither function tests a pointer.  What keeps `match_families` from an entry without an
address is only that the entry is ignored, down or a loopback interface; what keeps the
stores from an entry without a mask is only that nothing which needs the mask is asked
for.  `enumerationSafe_iff` makes that exact.
-/

namespace OfcDarwin.Net.Nullable

open Socket

/-- `struct ifaddrs`, with `none` for a NULL pointer. -/
structure Ifaddrs where
  ifaName : String
  ifaFlags : UInt32
  ifaAddr : Option InterfaceAddr
  ifaNetmask : Option InterfaceAddr
deriving DecidableEq

/-- `ifa_flags & flag`. -/
def Ifaddrs.has (entry : Ifaddrs) (flag : UInt32) : Bool := entry.ifaFlags &&& flag != 0

/-- `match_families`. -/
def matchFamilies (config : Config) (entry : Ifaddrs) : Option Bool := do
  let ret := false
  let ret ←
    if config.discoverIpv4 then do
      let addr ← entry.ifaAddr
      pure (if addr.saFamily = afInet then true else ret)
    else pure ret
  if config.discoverIpv6 then do
    let addr ← entry.ifaAddr
    pure (if addr.saFamily = afInet6 then true else ret)
  else pure ret

/-- `ignore` in the two loops. -/
def ignored (config : Config) (entry : Ifaddrs) : Bool :=
  config.ignoreEn5 && entry.ifaName == "en5"

/-! ## The count -/

/-- One round of the `for` loop of `ofc_net_interface_count_impl`; the tests of the flags
stand before `match_families`. -/
def countRound (config : Config) (maxCount : ℤ) (entry : Ifaddrs) : Option ℤ :=
  if !ignored config entry then
    if config.loopback then
      if entry.has iffUp then do
        if ← matchFamilies config entry then pure (maxCount + 1) else pure maxCount
      else pure maxCount
    else
      if !entry.has iffLoopback && entry.has iffUp then do
        if ← matchFamilies config entry then pure (maxCount + 1) else pure maxCount
      else pure maxCount
  else pure maxCount

/-- `ofc_net_interface_count_impl`. -/
def ofcNetInterfaceCountImpl (config : Config) : Option (List Ifaddrs) → Option ℤ
  | none => some 0
  | some ifap => ifap.foldlM (countRound config) 0

/-! ## The lookup -/

/-- The loop of `ofc_net_interface_addr_impl`. -/
def walk (config : Config) (index : ℤ) : List Ifaddrs → ℤ → Option (List Ifaddrs × Bool)
  | [], _ => some ([], false)
  | entry :: next, maxCount =>
      if !ignored config entry then
        if config.loopback then
          if entry.has iffUp then do
            if ← matchFamilies config entry then
              if maxCount = index then pure (entry :: next, true)
              else walk config index next (maxCount + 1)
            else walk config index next maxCount
          else walk config index next maxCount
        else
          if !entry.has iffLoopback && entry.has iffUp then do
            if ← matchFamilies config entry then
              if maxCount = index then pure (entry :: next, true)
              else walk config index next (maxCount + 1)
            else walk config index next maxCount
          else walk config index next maxCount
      else walk config index next maxCount

/-- The stores for a found entry of family `AF_INET`.  Only a mask and the broadcast
address of an interface other than loopback read through `ifa_netmask`. -/
def storeInet (constants : Constants) (net : NetOrder) (entry : Ifaddrs) (addr : InterfaceAddr)
    (out : Outputs) : Option Outputs := do
  let pinaddr := out.pinaddr.map (storeIpv4 (net.ntol addr.sinAddr))
  let pmask ←
    match out.pmask with
    | none => pure none
    | some old => do
        let netmask ← entry.ifaNetmask
        pure (some (storeIpv4 (net.ntol netmask.sinAddr) old))
  let pbcast ←
    match out.pbcast with
    | none => pure none
    | some old =>
        if !entry.has iffLoopback then do
          let netmask ← entry.ifaNetmask
          let mask := net.ntol netmask.sinAddr
          let bcast := (constants.inaddrBroadcast &&& ~~~mask) ||| net.ntol addr.sinAddr
          pure (some (storeIpv4 bcast old))
        else pure (some (storeIpv4 constants.inaddrLoopback old))
  pure { pinaddr := pinaddr, pbcast := pbcast, pmask := pmask }

/-- The stores for a found entry of family `AF_INET6`. -/
def storeInet6 (constants : Constants) (entry : Ifaddrs) (addr : InterfaceAddr) (out : Outputs) :
    Option Outputs := do
  let scope := addr.sin6ScopeId
  let pinaddr := out.pinaddr.map (storeIpv6 addr.sin6Addr scope)
  let pmask ←
    match out.pmask with
    | none => pure none
    | some old => do
        let netmask ← entry.ifaNetmask
        pure (some (storeIpv6 netmask.sin6Addr scope old))
  let bcast := if !entry.has iffLoopback then constants.in6addrBcast else constants.in6addrLoopback
  pure { pinaddr := pinaddr, pbcast := out.pbcast.map (storeIpv6 bcast.s6Addr scope),
         pmask := pmask }

/-- The stores for a found entry. -/
def storeFound (constants : Constants) (net : NetOrder) (entry : Ifaddrs) (out : Outputs) :
    Option Outputs := do
  let addr ← entry.ifaAddr
  if addr.saFamily = afInet then storeInet constants net entry addr out
  else if addr.saFamily = afInet6 then storeInet6 constants entry addr out
  else pure out

/-- `ofc_net_interface_addr_impl`. -/
def ofcNetInterfaceAddrImpl (config : Config) (constants : Constants) (net : NetOrder)
    (getifaddrs : Option (List Ifaddrs)) (index : ℤ) (out : Outputs) : Option Outputs :=
  let out := clearOutputs constants out
  match getifaddrs with
  | none => some out
  | some ifap => do
      match ← walk config index ifap 0 with
      | (entry :: _, true) => storeFound constants net entry out
      | _ => pure out

/-! ## Entries with both pointers -/

/-- An entry of `Net/Model.lean`. -/
def full (entry : Net.Ifaddrs) : Ifaddrs :=
  { ifaName := entry.ifaName
    ifaFlags := entry.ifaFlags
    ifaAddr := some entry.ifaAddr
    ifaNetmask := some entry.ifaNetmask }

theorem matchFamilies_full (config : Config) (entry : Net.Ifaddrs) :
    matchFamilies config (full entry) = some (Net.matchFamilies config entry) := by
  unfold matchFamilies Net.matchFamilies full
  cases config.discoverIpv4 <;> cases config.discoverIpv6 <;> simp

theorem countRound_full (config : Config) (maxCount : ℤ) (entry : Net.Ifaddrs) :
    countRound config maxCount (full entry) = some (Net.countRound config maxCount entry) := by
  unfold countRound Net.countRound
  rw [matchFamilies_full]
  show (if !Net.ignored config entry then
      if config.loopback then if entry.has iffUp then _ else _
      else if !entry.has iffLoopback && entry.has iffUp then _ else _
    else _) = _
  cases Net.ignored config entry <;> cases config.loopback <;> cases entry.has iffUp <;>
    cases entry.has iffLoopback <;> cases Net.matchFamilies config entry <;> rfl

/-- On full entries the count is that of `Net/Model.lean`. -/
theorem ofcNetInterfaceCountImpl_full (config : Config) (ifap : List Net.Ifaddrs) :
    ofcNetInterfaceCountImpl config (some (ifap.map full)) =
      some (Net.ofcNetInterfaceCountImpl config (some ifap)) := by
  have hfold : ∀ maxCount, (ifap.map full).foldlM (countRound config) maxCount =
      some (ifap.foldl (Net.countRound config) maxCount) := by
    induction ifap with
    | nil => exact fun _ => rfl
    | cons entry next ih =>
        intro maxCount
        rw [List.map_cons, List.foldlM_cons, countRound_full, List.foldl_cons]
        exact ih _
  exact hfold 0

theorem walk_full (config : Config) (index : ℤ) (ifap : List Net.Ifaddrs) (maxCount : ℤ) :
    walk config index (ifap.map full) maxCount =
      some ((Net.walk config index ifap maxCount).1.map full,
        (Net.walk config index ifap maxCount).2) := by
  induction ifap generalizing maxCount with
  | nil => rfl
  | cons entry next ih =>
      rw [List.map_cons, walk, Net.walk, matchFamilies_full, ih, ih]
      show (if !Net.ignored config entry then
          if config.loopback then if entry.has iffUp then _ else _
          else if !entry.has iffLoopback && entry.has iffUp then _ else _
        else _) = _
      cases Net.ignored config entry <;> cases config.loopback <;> cases entry.has iffUp <;>
        cases entry.has iffLoopback <;> cases Net.matchFamilies config entry <;>
        by_cases hindex : maxCount = index <;> simp [hindex]

theorem storeInet_full (constants : Constants) (net : NetOrder) (entry : Net.Ifaddrs)
    (out : Outputs) :
    storeInet constants net (full entry) entry.ifaAddr out =
      some (Net.storeInet constants net entry out) := by
  obtain ⟨pinaddr, pbcast, pmask⟩ := out
  have hflag : (full entry).has iffLoopback = entry.has iffLoopback := rfl
  unfold storeInet Net.storeInet
  rw [hflag]
  cases pbcast <;> cases pmask <;> cases entry.has iffLoopback <;> simp [full]

theorem storeInet6_full (constants : Constants) (entry : Net.Ifaddrs) (out : Outputs) :
    storeInet6 constants (full entry) entry.ifaAddr out =
      some (Net.storeInet6 constants entry out) := by
  obtain ⟨pinaddr, pbcast, pmask⟩ := out
  have hflag : (full entry).has iffLoopback = entry.has iffLoopback := rfl
  unfold storeInet6 Net.storeInet6
  rw [hflag]
  cases pmask <;> simp [full]

theorem storeFound_full (constants : Constants) (net : NetOrder) (entry : Net.Ifaddrs)
    (out : Outputs) :
    storeFound constants net (full entry) out =
      some (if entry.ifaAddr.saFamily = afInet then Net.storeInet constants net entry out
        else if entry.ifaAddr.saFamily = afInet6 then Net.storeInet6 constants entry out
        else out) := by
  show (if entry.ifaAddr.saFamily = afInet then
      storeInet constants net (full entry) entry.ifaAddr out
    else if entry.ifaAddr.saFamily = afInet6 then
      storeInet6 constants (full entry) entry.ifaAddr out
    else some out) = _
  rw [storeInet_full, storeInet6_full]
  split
  · rfl
  · split <;> rfl

/-- On full entries the lookup is that of `Net/Model.lean`. -/
theorem ofcNetInterfaceAddrImpl_full (config : Config) (constants : Constants) (net : NetOrder)
    (ifap : List Net.Ifaddrs) (index : ℤ) (out : Outputs) :
    ofcNetInterfaceAddrImpl config constants net (some (ifap.map full)) index out =
      some (Net.ofcNetInterfaceAddrImpl config constants net (some ifap) index out) := by
  unfold ofcNetInterfaceAddrImpl Net.ofcNetInterfaceAddrImpl
  simp only [walk_full]
  rcases Net.walk config index ifap 0 with ⟨_ | ⟨entry, next⟩, _ | _⟩
  · rfl
  · rfl
  · rfl
  · exact storeFound_full constants net entry _

end OfcDarwin.Net.Nullable
