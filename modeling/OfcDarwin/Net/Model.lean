import OfcDarwin.Socket.Address

/-!
# Network interfaces

The interface count and the interface lookup of `net_darwin.c` over the list that
`getifaddrs` returns, or `none` when it fails.  The two were written apart: a `for`
loop that counts, and a loop whose cursor moves at five places and stops at a
`found` flag.  Both are translated as they stand.

What the preprocessor decides is a `Config`.
-/

namespace OfcDarwin.Net

open Socket

/-- The macros under which `net_darwin.c` is compiled. -/
structure Config where
  /-- `OFC_LOOPBACK`. -/
  loopback : Bool
  /-- `OFC_DARWIN_IGNORE_EN5`. -/
  ignoreEn5 : Bool
  /-- `OFC_DISCOVER_IPV4`. -/
  discoverIpv4 : Bool
  /-- `OFC_DISCOVER_IPV6`. -/
  discoverIpv6 : Bool
deriving DecidableEq, Repr

/-- The addresses that the core library names. -/
structure Constants where
  /-- `OFC_INADDR_NONE`. -/
  inaddrNone : UInt32
  /-- `OFC_INADDR_BROADCAST`. -/
  inaddrBroadcast : UInt32
  /-- `OFC_INADDR_LOOPBACK`. -/
  inaddrLoopback : UInt32
  /-- `ofc_in6addr_bcast`. -/
  in6addrBcast : Ipv6
  /-- `ofc_in6addr_loopback`. -/
  in6addrLoopback : Ipv6

/-- `AF_INET`. -/
def afInet : UInt8 := 2

/-- `AF_INET6`. -/
def afInet6 : UInt8 := 30

/-- `IFF_UP`. -/
def iffUp : UInt32 := 0x1

/-- `IFF_LOOPBACK`. -/
def iffLoopback : UInt32 := 0x8

/-- The storage behind an interface's `struct sockaddr *`: its family, and what is
read from it through a cast to `struct sockaddr_in` or to `struct sockaddr_in6`. -/
structure InterfaceAddr where
  saFamily : UInt8
  sinAddr : AddrBytes
  sin6Addr : Vector UInt8 16
  sin6ScopeId : UInt32
deriving DecidableEq

/-- `struct ifaddrs`. -/
structure Ifaddrs where
  ifaName : String
  ifaFlags : UInt32
  ifaAddr : InterfaceAddr
  ifaNetmask : InterfaceAddr
deriving DecidableEq

/-- `ifa_flags & flag`. -/
def Ifaddrs.has (entry : Ifaddrs) (flag : UInt32) : Bool := entry.ifaFlags &&& flag != 0

/-- `match_families`. -/
def matchFamilies (config : Config) (entry : Ifaddrs) : Bool :=
  let ret := false
  let ret := if config.discoverIpv4 ∧ entry.ifaAddr.saFamily = afInet then true else ret
  if config.discoverIpv6 ∧ entry.ifaAddr.saFamily = afInet6 then true else ret

/-- `ignore` in the two loops. -/
def ignored (config : Config) (entry : Ifaddrs) : Bool :=
  config.ignoreEn5 && entry.ifaName == "en5"

/-! ## The count -/

/-- One round of the `for` loop of `ofc_net_interface_count_impl`.  A list has fewer than
`2 ^ 31` entries, so that `max_count`, an `int`, stays in its range in both loops. -/
def countRound (config : Config) (maxCount : ℤ) (entry : Ifaddrs) : ℤ :=
  if !ignored config entry then
    if config.loopback then
      if entry.has iffUp && matchFamilies config entry then maxCount + 1 else maxCount
    else
      if !entry.has iffLoopback && entry.has iffUp && matchFamilies config entry then
        maxCount + 1
      else maxCount
  else maxCount

/-- `ofc_net_interface_count_impl`. -/
def ofcNetInterfaceCountImpl (config : Config) : Option (List Ifaddrs) → ℤ
  | none => 0
  | some ifap => ifap.foldl (countRound config) 0

/-! ## The lookup -/

/-- The loop of `ofc_net_interface_addr_impl`: where the cursor is at its end, and
`found`.  A list is what the cursor points to. -/
def walk (config : Config) (index : ℤ) : List Ifaddrs → ℤ → List Ifaddrs × Bool
  | [], _ => ([], false)
  | entry :: next, maxCount =>
      if !ignored config entry then
        if config.loopback then
          if entry.has iffUp && matchFamilies config entry then
            -- `found` ends the loop with the cursor where it is
            if maxCount = index then (entry :: next, true)
            else walk config index next (maxCount + 1)
          else walk config index next maxCount
        else
          if !entry.has iffLoopback && entry.has iffUp && matchFamilies config entry then
            if maxCount = index then (entry :: next, true)
            else walk config index next (maxCount + 1)
          else walk config index next maxCount
      else walk config index next maxCount

/-- The three destinations, each `none` for `OFC_NULL`. -/
structure Outputs where
  pinaddr : Option IPAddr
  pbcast : Option IPAddr
  pmask : Option IPAddr
deriving DecidableEq

/-- A store of an IPv4 address. -/
def storeIpv4 (addr : UInt32) (old : IPAddr) : IPAddr := { old with ipVersion := .ip, ipv4 := addr }

/-- A store of an IPv6 address and its scope. -/
def storeIpv6 (addr : Vector UInt8 16) (scope : UInt32) (old : IPAddr) : IPAddr :=
  { old with ipVersion := .ipv6, ipv6 := { s6Addr := addr, scope := scope } }

/-- The stores for a found entry of family `AF_INET`. -/
def storeInet (constants : Constants) (net : NetOrder) (entry : Ifaddrs) (out : Outputs) :
    Outputs :=
  let mask := net.ntol entry.ifaNetmask.sinAddr
  let bcast :=
    if !entry.has iffLoopback then
      (constants.inaddrBroadcast &&& ~~~mask) ||| net.ntol entry.ifaAddr.sinAddr
    else constants.inaddrLoopback
  { pinaddr := out.pinaddr.map (storeIpv4 (net.ntol entry.ifaAddr.sinAddr))
    pbcast := out.pbcast.map (storeIpv4 bcast)
    pmask := out.pmask.map (storeIpv4 mask) }

/-- The stores for a found entry of family `AF_INET6`. -/
def storeInet6 (constants : Constants) (entry : Ifaddrs) (out : Outputs) : Outputs :=
  let scope := entry.ifaAddr.sin6ScopeId
  let bcast :=
    if !entry.has iffLoopback then constants.in6addrBcast else constants.in6addrLoopback
  { pinaddr := out.pinaddr.map (storeIpv6 entry.ifaAddr.sin6Addr scope)
    pbcast := out.pbcast.map (storeIpv6 bcast.s6Addr scope)
    pmask := out.pmask.map (storeIpv6 entry.ifaNetmask.sin6Addr scope) }

/-- The stores of `OFC_INADDR_NONE` at the start of `ofc_net_interface_addr_impl`. -/
def clearOutputs (constants : Constants) (out : Outputs) : Outputs :=
  { pinaddr := out.pinaddr.map (storeIpv4 constants.inaddrNone)
    pbcast := out.pbcast.map (storeIpv4 constants.inaddrNone)
    pmask := out.pmask.map (storeIpv4 constants.inaddrNone) }

/-- `ofc_net_interface_addr_impl`. -/
def ofcNetInterfaceAddrImpl (config : Config) (constants : Constants) (net : NetOrder)
    (getifaddrs : Option (List Ifaddrs)) (index : ℤ) (out : Outputs) : Outputs :=
  let out := clearOutputs constants out
  match getifaddrs with
  | none => out
  | some ifap =>
      match walk config index ifap 0 with
      | (entry :: _, true) =>
          if entry.ifaAddr.saFamily = afInet then storeInet constants net entry out
          else if entry.ifaAddr.saFamily = afInet6 then storeInet6 constants entry out
          else out
      | _ => out

end OfcDarwin.Net
