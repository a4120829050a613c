import Mathlib.Logic.Function.Basic
import OfcDarwin.Net.Model

/-!
# Resolving a name

`ofc_net_resolve_dns_name_impl` copies the results of `getaddrinfo` into an array whose
capacity it is told through the same location in which it returns their number.
`copyResults` is its loop, with the index, the cursor and the array; `copyResults_spec`
says what each element holds after it.
-/

namespace OfcDarwin.Net

open Socket

/-- `struct addrinfo`, with the storage behind `ai_addr`. -/
structure Addrinfo where
  aiFamily : ℤ
  aiAddr : InterfaceAddr
deriving DecidableEq

/-- The fields of the hints that are set. -/
structure Hints where
  aiFamily : ℤ
  aiSocktype : ℤ
  aiFlags : UInt32
deriving DecidableEq, Repr

/-- `AF_UNSPEC`. -/
def afUnspec : UInt8 := 0

/-- `AI_NUMERICHOST`. -/
def aiNumerichost : UInt32 := 0x4

/-- `AI_ADDRCONFIG`. -/
def aiAddrconfig : UInt32 := 0x400

/-- The hints for a name, which is numeric when `ofc_pton` can read it.  Without a family
to discover the source does not compile. -/
def resolveHints (config : Config) (numeric : Bool) : Hints :=
  let family :=
    if config.discoverIpv6 then if config.discoverIpv4 then afUnspec else afInet6 else afInet
  { aiFamily := family.toNat
    aiSocktype := 0
    aiFlags := if numeric then aiAddrconfig ||| aiNumerichost else aiAddrconfig }

/-- The body of the loop, on `ip[i]`. -/
def storeResult (net : NetOrder) (p : Addrinfo) (old : IPAddr) : IPAddr :=
  if p.aiFamily = afInet.toNat then storeIpv4 (net.ntol p.aiAddr.sinAddr) old
  else if p.aiFamily = afInet6.toNat then storeIpv6 p.aiAddr.sin6Addr p.aiAddr.sin6ScopeId old
  else old

/-- `for (i = 0, p = res; p != NULL && i < *num_addrs; i++, p = p->ai_next)`: the index at
its end, and the array. -/
def copyResults (net : NetOrder) (numAddrs : ℕ) : List Addrinfo → ℕ → (ℕ → IPAddr) →
    ℕ × (ℕ → IPAddr)
  | [], i, ip => (i, ip)
  | p :: next, i, ip =>
      if i < numAddrs then
        copyResults net numAddrs next (i + 1) (Function.update ip i (storeResult net p (ip i)))
      else (i, ip)

/-- `ofc_net_resolve_dns_name_impl`: what it leaves in `*num_addrs` and in the array. -/
def ofcNetResolveDnsNameImpl (config : Config) (net : NetOrder) (ofcPton : String → Bool)
    (getaddrinfo : String → Hints → Option (List Addrinfo)) (name : String) (numAddrs : UInt16)
    (ip : ℕ → IPAddr) : UInt16 × (ℕ → IPAddr) :=
  match getaddrinfo name (resolveHints config (ofcPton name)) with
  | none => (0, ip)
  | some res =>
      let (i, ip) := copyResults net numAddrs.toNat res 0 ip
      (UInt16.ofNat i, ip)

/-! ## The loop -/

variable {net : NetOrder} {numAddrs : ℕ}

theorem copyResults_count (res : List Addrinfo) {i : ℕ} (hi : i ≤ numAddrs) (ip : ℕ → IPAddr) :
    (copyResults net numAddrs res i ip).1 = min (i + res.length) numAddrs := by
  induction res generalizing i ip with
  | nil =>
      rw [copyResults, List.length_nil, add_zero]
      exact (min_eq_left hi).symm
  | cons p next ih =>
      rw [copyResults, List.length_cons]
      split
      · rename_i hfits
        rw [ih hfits]
        show min (i + 1 + next.length) numAddrs = min (i + (next.length + 1)) numAddrs
        rw [add_right_comm, add_assoc]
      · rename_i hfull
        show i = min (i + (next.length + 1)) numAddrs
        omega

/-- What the array holds after the loop: below the index it started with and from the
index it ended with, what it held before; in between, the results in their order. -/
theorem copyResults_spec (res : List Addrinfo) (i : ℕ) (ip : ℕ → IPAddr) (j : ℕ) :
    (copyResults net numAddrs res i ip).2 j =
      if i ≤ j ∧ j < numAddrs then
        (res[j - i]?).elim (ip j) fun p => storeResult net p (ip j)
      else ip j := by
  induction res generalizing i ip with
  | nil =>
      rw [copyResults, List.getElem?_nil, Option.elim_none, ite_self]
  | cons p next ih =>
      rw [copyResults]
      split
      · rename_i hfits
        rw [ih]
        rcases lt_trichotomy j i with hbelow | rfl | habove
        · rw [if_neg (by omega), if_neg (by omega), Function.update_of_ne (ne_of_lt hbelow)]
        · rw [if_neg (by omega), if_pos ⟨le_rfl, hfits⟩, Function.update_self, Nat.sub_self,
            List.getElem?_cons_zero, Option.elim_some]
        · rw [show j - i = j - (i + 1) + 1 by omega, List.getElem?_cons_succ,
            Function.update_of_ne (ne_of_gt habove)]
          exact if_congr (by omega) rfl rfl
      · rename_i hfull
        rw [if_neg (by omega)]

/-! ## The prefix that fits -/

/-- An element holds the family, the address and, for IPv6, the scope of a result. -/
def HoldsResult (net : NetOrder) (p : Addrinfo) (ip : IPAddr) : Prop :=
  p.aiFamily = afInet.toNat ∧ ip.ipVersion = .ip ∧ ip.ipv4 = net.ntol p.aiAddr.sinAddr ∨
    p.aiFamily = afInet6.toNat ∧ ip.ipVersion = .ipv6 ∧
      ip.ipv6 = { s6Addr := p.aiAddr.sin6Addr, scope := p.aiAddr.sin6ScopeId }

theorem storeResult_holds {p : Addrinfo}
    (hfamily : p.aiFamily = afInet.toNat ∨ p.aiFamily = afInet6.toNat) (old : IPAddr) :
    HoldsResult net p (storeResult net p old) := by
  unfold storeResult
  by_cases hinet : p.aiFamily = afInet.toNat
  · rw [if_pos hinet]
    exact Or.inl ⟨hinet, rfl, rfl⟩
  · have hinet6 := hfamily.resolve_left hinet
    rw [if_neg hinet, if_pos hinet6]
    exact Or.inr ⟨hinet6, rfl, rfl⟩

/-- The results fill the array in their order as far as it goes, and nothing is written
behind them; a failed `getaddrinfo` leaves the array alone and the count at 0. -/
theorem resolve_fills (config : Config) (net : NetOrder) (ofcPton : String → Bool)
    (getaddrinfo : String → Hints → Option (List Addrinfo)) (name : String) (numAddrs : UInt16)
    (ip : ℕ → IPAddr)
    (hfamilies : ∀ hints res, getaddrinfo name hints = some res →
      ∀ p ∈ res, p.aiFamily = afInet.toNat ∨ p.aiFamily = afInet6.toNat) :
    let answer := getaddrinfo name (resolveHints config (ofcPton name))
    let left := ofcNetResolveDnsNameImpl config net ofcPton getaddrinfo name numAddrs ip
    (∀ res, answer = some res →
      left.1.toNat = min res.length numAddrs.toNat ∧
        (∀ i, (hi : i < res.length) → i < left.1.toNat → HoldsResult net res[i] (left.2 i)) ∧
        ∀ i, left.1.toNat ≤ i → left.2 i = ip i) ∧
      (answer = none → left.1 = 0 ∧ left.2 = ip) := by
  intro answer left
  constructor
  · intro res hres
    have hleft : left = (UInt16.ofNat (copyResults net numAddrs.toNat res 0 ip).1,
        (copyResults net numAddrs.toNat res 0 ip).2) := by
      simp only [left, ofcNetResolveDnsNameImpl]
      rw [show getaddrinfo name _ = some res from hres]
    have hcount : left.1.toNat = min res.length numAddrs.toNat := by
      have hcapacity := numAddrs.toNat_lt
      rw [hleft, copyResults_count res (Nat.zero_le _), Nat.zero_add, UInt16.toNat_ofNat']
      exact Nat.mod_eq_of_lt (by omega)
    refine ⟨hcount, ?_, ?_⟩
    · intro i hi hwritten
      rw [hleft]
      simp only
      rw [copyResults_spec, if_pos (by omega), Nat.sub_zero, List.getElem?_eq_getElem hi,
        Option.elim_some]
      exact storeResult_holds (hfamilies _ res hres _ (List.getElem_mem hi)) _
    · intro i hbehind
      rw [hleft]
      simp only
      rw [copyResults_spec]
      split
      · rw [List.getElem?_eq_none (by omega), Option.elim_none]
      · rfl
  · intro hnone
    have hleft : left = (0, ip) := by
      simp only [left, ofcNetResolveDnsNameImpl]
      rw [show getaddrinfo name _ = none from hnone]
    rw [hleft]
    exact ⟨rfl, rfl⟩

/-- A result of family `AF_INET`. -/
def inetResult : Addrinfo :=
  { aiFamily := afInet.toNat
    aiAddr :=
      { saFamily := afInet, sinAddr := (192, 0, 2, 1), sin6Addr := Vector.replicate 16 0,
        sin6ScopeId := 0 } }

/-- An element of a cleared array. -/
def clearedAddr : IPAddr :=
  { ipVersion := .ip, ipv4 := 0, ipv6 := { s6Addr := Vector.replicate 16 0, scope := 0 } }

/-- Two results in an array of one element. -/
theorem resolve_fills_one :
    (ofcNetResolveDnsNameImpl
      { loopback := false, ignoreEn5 := false, discoverIpv4 := true, discoverIpv6 := true }
      NetOrder.bigEndian (fun _ => false) (fun _ _ => some [inetResult, inetResult]) "example" 1
      (fun _ => clearedAddr)).1.toNat = 1 := by
  have hfamilies : ∀ (hints : Hints) (res : List Addrinfo),
      some [inetResult, inetResult] = some res →
        ∀ p ∈ res, p.aiFamily = afInet.toNat ∨ p.aiFamily = afInet6.toNat := by
    intro _ res hres p hmem
    rw [← Option.some.inj hres] at hmem
    have hp : p = inetResult := by simpa using hmem
    exact Or.inl (hp ▸ rfl)
  exact ((resolve_fills
    { loopback := false, ignoreEn5 := false, discoverIpv4 := true, discoverIpv6 := true }
    NetOrder.bigEndian (fun _ => false) (fun _ _ => some [inetResult, inetResult]) "example" 1 _
    hfamilies).1 _ rfl).1

end OfcDarwin.Net
