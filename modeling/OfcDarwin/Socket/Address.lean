import Mathlib.Data.UInt

/-!
# Socket addresses

The two conversions of `socket_darwin.c` between an `OFC_IPADDR` and the
`struct sockaddr` of the kernel, and the socket operations that use them.  A
pointer argument that may be `OFC_NULL` is an `Option` of what it points to, and
what the kernel does in a call is an argument of the function that makes it.

`u` of an `OFC_IPADDR` is a union.  Both members are fields here, of which only
the one selected by `ip_version` is ever meant to be read; a store to one member
leaves the other as it was.
-/

namespace OfcDarwin.Socket

/-- `OFC_FAMILY_TYPE`. -/
inductive FamilyType where
  | ip
  | ipv6
deriving DecidableEq, Repr

/-- The IPv6 member of an `OFC_IPADDR`. -/
structure Ipv6 where
  s6Addr : Vector UInt8 16
  scope : UInt32
deriving DecidableEq

/-- `OFC_IPADDR`, with the IPv4 address in host order. -/
structure IPAddr where
  ipVersion : FamilyType
  ipv4 : UInt32
  ipv6 : Ipv6
deriving DecidableEq

/-! ## Network order -/

/-- The two bytes of a port in memory. -/
abbrev PortBytes := UInt8 × UInt8

/-- The four bytes of an IPv4 address in memory. -/
abbrev AddrBytes := UInt8 × UInt8 × UInt8 × UInt8

/-- The stores and loads `OFC_NET_STON`, `OFC_NET_NTOS`, `OFC_NET_LTON` and
`OFC_NET_NTOL`, each load inverse to its store. -/
structure NetOrder where
  ston : UInt16 → PortBytes
  ntos : PortBytes → UInt16
  lton : UInt32 → AddrBytes
  ntol : AddrBytes → UInt32
  ntos_ston : ∀ port, ntos (ston port) = port
  ston_ntos : ∀ bytes, ston (ntos bytes) = bytes
  ntol_lton : ∀ addr, ntol (lton addr) = addr
  lton_ntol : ∀ bytes, lton (ntol bytes) = bytes

attribute [simp] NetOrder.ntos_ston NetOrder.ston_ntos NetOrder.ntol_lton NetOrder.lton_ntol

/-- Most significant byte first. -/
def NetOrder.bigEndian : NetOrder where
  ston port := (UInt8.ofNat (port.toNat / 256), UInt8.ofNat port.toNat)
  ntos bytes := UInt16.ofNat (bytes.1.toNat * 256 + bytes.2.toNat)
  lton addr :=
    (UInt8.ofNat (addr.toNat / 16777216), UInt8.ofNat (addr.toNat / 65536),
      UInt8.ofNat (addr.toNat / 256), UInt8.ofNat addr.toNat)
  ntol bytes :=
    UInt32.ofNat (bytes.1.toNat * 16777216 + bytes.2.1.toNat * 65536 + bytes.2.2.1.toNat * 256 +
      bytes.2.2.2.toNat)
  ntos_ston port := by
    have hport := port.toNat_lt
    simp only [← UInt16.toNat_inj, UInt16.toNat_ofNat', UInt8.toNat_ofNat']
    omega
  ston_ntos bytes := by
    have hhigh := bytes.1.toNat_lt
    have hlow := bytes.2.toNat_lt
    simp only [Prod.ext_iff, ← UInt8.toNat_inj, UInt16.toNat_ofNat', UInt8.toNat_ofNat']
    constructor <;> omega
  ntol_lton addr := by
    have haddr := addr.toNat_lt
    simp only [← UInt32.toNat_inj, UInt32.toNat_ofNat', UInt8.toNat_ofNat']
    omega
  lton_ntol bytes := by
    have h0 := bytes.1.toNat_lt
    have h1 := bytes.2.1.toNat_lt
    have h2 := bytes.2.2.1.toNat_lt
    have h3 := bytes.2.2.2.toNat_lt
    simp only [Prod.ext_iff, ← UInt8.toNat_inj, UInt32.toNat_ofNat', UInt8.toNat_ofNat']
    refine ⟨?_, ?_, ?_, ?_⟩ <;> omega

/-! ## `struct sockaddr` -/

/-- `sa_family`. -/
inductive SaFamily where
  | unspec
  | inet
  | inet6
deriving DecidableEq, Repr

/-- `struct sockaddr_in`. -/
structure SockaddrIn where
  sinPort : PortBytes
  sinAddr : AddrBytes
deriving DecidableEq

/-- `struct sockaddr_in6`. -/
structure SockaddrIn6 where
  sin6Len : UInt8
  sin6Port : PortBytes
  sin6Flowinfo : UInt32
  sin6Addr : Vector UInt8 16
  sin6ScopeId : UInt32
deriving DecidableEq

/-- The storage behind a `struct sockaddr *`, by its `sa_family`; `unspec` is
storage which has been cleared. -/
inductive Sockaddr where
  | unspec
  | inet (sin : SockaddrIn)
  | inet6 (sin6 : SockaddrIn6)
deriving DecidableEq

namespace Sockaddr

def saFamily : Sockaddr → SaFamily
  | unspec => .unspec
  | inet _ => .inet
  | inet6 _ => .inet6

/-- The scope id of an IPv6 address. -/
def scopeId? : Sockaddr → Option UInt32
  | inet6 sin6 => some sin6.sin6ScopeId
  | _ => none

end Sockaddr

/-- `sizeof(struct sockaddr_in6)`. -/
def sizeofSockaddrIn6 : UInt8 := 28

/-- `make_sockaddr`. -/
def makeSockaddr (net : NetOrder) (ip : IPAddr) (port : UInt16) : Sockaddr :=
  if ip.ipVersion = .ip then
    .inet
      { sinPort := net.ston port
        sinAddr := net.lton ip.ipv4 }
  else
    .inet6
      { sin6Len := sizeofSockaddrIn6
        sin6Port := net.ston port
        sin6Flowinfo := 0
        sin6Addr := ip.ipv6.s6Addr
        sin6ScopeId := ip.ipv6.scope }

/-- The IPv6 branch of `unmake_sockaddr`, with its two `OFC_NULL` checks: the
address bytes and the port are stored, `u.ipv6.scope` is not. -/
def unmakeSockaddrIn6 (net : NetOrder) (bytes : Vector UInt8 16) (portBytes : PortBytes)
    (ip : Option IPAddr) (port : Option UInt16) : Option IPAddr × Option UInt16 :=
  (ip.map fun old => { old with ipVersion := .ipv6, ipv6 := { old.ipv6 with s6Addr := bytes } },
    port.map fun _ => net.ntos portBytes)

/-- `unmake_sockaddr`: what its two destinations hold afterwards, or `none` when
it stores through `OFC_NULL`. -/
def unmakeSockaddr (net : NetOrder) (mysockaddr : Sockaddr) (ip : Option IPAddr)
    (port : Option UInt16) : Option (Option IPAddr × Option UInt16) :=
  match mysockaddr with
  | .inet sin =>
      match ip, port with
      | some old, some _ =>
          some (some { old with ipVersion := .ip, ipv4 := net.ntol sin.sinAddr },
            some (net.ntos sin.sinPort))
      | _, _ => none
  | .inet6 sin6 => some (unmakeSockaddrIn6 net sin6.sin6Addr sin6.sin6Port ip port)
  -- any family but `AF_INET` takes the IPv6 branch, here over cleared bytes
  | .unspec => some (unmakeSockaddrIn6 net (Vector.replicate 16 0) (0, 0) ip port)

/-! ## Operations of a socket -/

/-- `OFC_SOCKET_IMPL`. -/
structure OfcSocketImpl where
  socket : ℤ
  family : FamilyType
  events : UInt16
  revents : UInt16
  ip : IPAddr
deriving DecidableEq

/-- `OFC_SOCKADDR`. -/
structure OfcSockaddr where
  sinFamily : FamilyType
  sinAddr : IPAddr
  sinPort : UInt16
deriving DecidableEq

/-- `-1` as an `OFC_SIZET`, which is unsigned. -/
def minusOne : UInt64 := 0xFFFFFFFFFFFFFFFF

/-- An address presented to the kernel for a descriptor. -/
structure Presented where
  socket : ℤ
  mysockaddr : Sockaddr
deriving DecidableEq

/-- `ofc_socket_impl_get_fd` of what the handle resolves to. -/
def ofcSocketImplGetFd : Option OfcSocketImpl → ℤ
  | some sock => sock.socket
  | none => -1

/-- `ofc_socket_impl_get_event`. -/
def ofcSocketImplGetEvent : Option OfcSocketImpl → UInt16
  | some sock => sock.events
  | none => 0

/-- `ofc_socket_impl_set_event`. -/
def ofcSocketImplSetEvent (sock : Option OfcSocketImpl) (revents : UInt16) :
    Option OfcSocketImpl :=
  sock.map fun record => { record with revents := revents }

/-- `ofc_socket_impl_sendto`: its result, and the address it hands to `sendto`.
`sock` is what the handle resolves to. -/
def ofcSocketImplSendto (net : NetOrder) (sock : Option OfcSocketImpl) (status : UInt64)
    (eagain : Bool) (ip : IPAddr) (port : UInt16) : UInt64 × Option Presented :=
  match sock with
  | none => (minusOne, none)
  | some sock =>
      let call : Presented := { socket := sock.socket, mysockaddr := makeSockaddr net ip port }
      if status = minusOne ∧ eagain then (0, some call)
      -- always true, as an `OFC_SIZET` has no sign
      else if status ≥ 0 then (status, some call)
      else (minusOne, some call)

/-- `ofc_socket_impl_connect`: its result, and the address it hands to
`connect`. -/
def ofcSocketImplConnect (net : NetOrder) (sock : Option OfcSocketImpl) (status : ℤ)
    (einprogress : Bool) (ip : IPAddr) (port : UInt16) : Bool × Option Presented :=
  match sock with
  | none => (false, none)
  | some sock =>
      let call : Presented := { socket := sock.socket, mysockaddr := makeSockaddr net ip port }
      (decide ((status ≠ 0 ∧ einprogress) ∨ status = 0), some call)

/-- `ofc_socket_impl_recv_from`: its result and its two destinations.
`mysockaddr` is the cleared storage as `recvfrom` leaves it. -/
def ofcSocketImplRecvFrom (net : NetOrder) (sock : Option OfcSocketImpl) (status : UInt64)
    (eagain : Bool) (mysockaddr : Sockaddr) (ip : Option IPAddr) (port : Option UInt16) :
    Option (UInt64 × Option IPAddr × Option UInt16) :=
  match sock with
  | none => some (minusOne, ip, port)
  | some _ =>
      if status = minusOne ∧ eagain then some (0, ip, port)
      else if status ≥ 0 then
        (unmakeSockaddr net mysockaddr ip port).map fun stored => (status, stored)
      else some (minusOne, ip, port)

/-- `ofc_socket_impl_accept`: the record of the new socket and the two
destinations.  `fresh` is the record as allocated, of which only the descriptor
is then assigned. -/
def ofcSocketImplAccept (net : NetOrder) (sock : Option OfcSocketImpl) (fresh : OfcSocketImpl)
    (fd : ℤ) (mysockaddr : Sockaddr) (ip : Option IPAddr) (port : Option UInt16) :
    Option (Option OfcSocketImpl × Option IPAddr × Option UInt16) :=
  match sock with
  | none => some (none, ip, port)
  | some _ =>
      if fd ≠ -1 then
        (unmakeSockaddr net mysockaddr ip port).map fun stored =>
          (some { fresh with socket := fd }, stored)
      else some (none, ip, port)

/-- One half of `ofc_socket_impl_get_addresses`: a destination after the address
of one end of the socket has been stored in it. -/
def OfcSockaddr.store (net : NetOrder) (mysockaddr : Sockaddr) (old : OfcSockaddr) : OfcSockaddr :=
  match unmakeSockaddr net mysockaddr (some old.sinAddr) (some old.sinPort) with
  | some (some sinAddr, some sinPort) =>
      { sinFamily := if mysockaddr.saFamily = .inet then .ip else .ipv6
        sinAddr := sinAddr
        sinPort := sinPort }
  | _ => old

/-- `ofc_socket_impl_get_addresses`: its result, and the local and the remote
destination.  `getsockname` and `getpeername` hold what these calls report, when
they succeed. -/
def ofcSocketImplGetAddresses (net : NetOrder) (sock : Option OfcSocketImpl)
    (getsockname getpeername : Option Sockaddr) (localAddr remoteAddr : OfcSockaddr) :
    Bool × OfcSockaddr × OfcSockaddr :=
  match sock, getsockname with
  | none, _ => (false, localAddr, remoteAddr)
  | some _, none => (false, localAddr, remoteAddr)
  | some _, some own =>
      match getpeername with
      | none => (false, localAddr.store net own, remoteAddr)
      | some peer => (true, localAddr.store net own, remoteAddr.store net peer)

end OfcDarwin.Socket
