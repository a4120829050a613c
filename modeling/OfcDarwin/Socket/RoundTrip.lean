import OfcDarwin.Socket.Address

/-!
# Round trips of socket addresses

`make_sockaddr` writes the scope id of an IPv6 address and `unmake_sockaddr`
does not read it back, so that the destination keeps the scope it held before.
Everything else survives both ways:

* `unmake_make`: an `OFC_IPADDR` and a port come back from the kernel's form,
  up to the scope;
* `make_unmake`: the kernel's form comes back from what a socket operation
  returned, up to the scope.

`address_roundTrip_iff` puts the two together with the exact condition on the
scope that is left over.
-/

namespace OfcDarwin.Socket

/-! ## Equal addresses -/

/-- Two `OFC_IPADDR`s name one address: the member selected by the version
agrees. -/
def IPAddr.Same (first second : IPAddr) : Prop :=
  first.ipVersion = second.ipVersion ∧
    match second.ipVersion with
    | .ip => first.ipv4 = second.ipv4
    | .ipv6 => first.ipv6.s6Addr = second.ipv6.s6Addr ∧ first.ipv6.scope = second.ipv6.scope

/-- Two kernel addresses agree in family, address, port and scope id. -/
def Sockaddr.Same : Sockaddr → Sockaddr → Prop
  | .unspec, .unspec => True
  | .inet first, .inet second =>
      first.sinAddr = second.sinAddr ∧ first.sinPort = second.sinPort
  | .inet6 first, .inet6 second =>
      first.sin6Addr = second.sin6Addr ∧ first.sin6Port = second.sin6Port ∧
        first.sin6ScopeId = second.sin6ScopeId
  | _, _ => False

/-- The scope which `unmake_sockaddr` finds in its destination is the one it
should have stored there. -/
def ScopeLeftOver (mysockaddr : Sockaddr) (old : IPAddr) : Prop :=
  ∀ scope ∈ mysockaddr.scopeId?, old.ipv6.scope = scope

variable {net : NetOrder}

/-! ## From an `OFC_IPADDR` and back -/

theorem unmake_make (ip old : IPAddr) (port oldPort : UInt16) :
    unmakeSockaddr net (makeSockaddr net ip port) (some old) (some oldPort) =
      some (some (if ip.ipVersion = .ip then { old with ipVersion := .ip, ipv4 := ip.ipv4 }
        else { old with ipVersion := .ipv6, ipv6 := { old.ipv6 with s6Addr := ip.ipv6.s6Addr } }),
        some port) := by
  unfold makeSockaddr
  split
  · simp only [unmakeSockaddr, NetOrder.ntos_ston, NetOrder.ntol_lton]
  · simp only [unmakeSockaddr, unmakeSockaddrIn6, NetOrder.ntos_ston, Option.map_some]

theorem same_iff_scopeLeftOver (ip old : IPAddr) (port : UInt16) :
    IPAddr.Same (if ip.ipVersion = .ip then { old with ipVersion := .ip, ipv4 := ip.ipv4 }
        else { old with ipVersion := .ipv6, ipv6 := { old.ipv6 with s6Addr := ip.ipv6.s6Addr } })
      ip ↔ ScopeLeftOver (makeSockaddr net ip port) old := by
  unfold IPAddr.Same ScopeLeftOver makeSockaddr
  cases hversion : ip.ipVersion <;> simp [Sockaddr.scopeId?]

/-! ## From the kernel's form and back -/

/-- The kernel addresses that have a counterpart in an `OFC_IPADDR`. -/
def Sockaddr.Internet : Sockaddr → Prop
  | .unspec => False
  | _ => True

/-- What `make_sockaddr` presents after `unmake_sockaddr` has stored `peer`. -/
theorem make_unmake {peer : Sockaddr} (hpeer : peer.Internet) {old ip : IPAddr}
    {oldPort port : UInt16}
    (hunmake : unmakeSockaddr net peer (some old) (some oldPort) = some (some ip, some port)) :
    (makeSockaddr net ip port).Same peer ↔ ScopeLeftOver peer old := by
  cases peer with
  | unspec => exact absurd hpeer id
  | inet sin =>
      simp only [unmakeSockaddr, Option.some.injEq, Prod.mk.injEq] at hunmake
      obtain ⟨rfl, rfl⟩ := hunmake
      simp [makeSockaddr, Sockaddr.Same, ScopeLeftOver, Sockaddr.scopeId?]
  | inet6 sin6 =>
      simp only [unmakeSockaddr, unmakeSockaddrIn6, Option.map_some, Option.some.injEq,
        Prod.mk.injEq] at hunmake
      obtain ⟨rfl, rfl⟩ := hunmake
      simp [makeSockaddr, Sockaddr.Same, ScopeLeftOver, Sockaddr.scopeId?]

/-! ## The socket operations -/

/-- A socket operation returned `ip` and `port` for the kernel's `peer`, over a
destination which held `old`. -/
inductive Returned (net : NetOrder) (peer : Sockaddr) (old : IPAddr) : IPAddr → UInt16 → Prop where
  | recvFrom {sock : OfcSocketImpl} {status : UInt64} {eagain : Bool} {oldPort : UInt16}
      {ip : IPAddr} {port : UInt16} (hdelivered : status ≠ minusOne)
      (hcall : ofcSocketImplRecvFrom net (some sock) status eagain peer (some old) (some oldPort) =
        some (status, some ip, some port)) : Returned net peer old ip port
  | accept {sock fresh newSock : OfcSocketImpl} {fd : ℤ} {oldPort : UInt16} {ip : IPAddr}
      {port : UInt16}
      (hcall : ofcSocketImplAccept net (some sock) fresh fd peer (some old) (some oldPort) =
        some (some newSock, some ip, some port)) : Returned net peer old ip port
  | getAddresses {sock : OfcSocketImpl} {own : Sockaddr}
      {localAddr remoteAddr localAddr' remoteAddr' : OfcSockaddr}
      (hold : remoteAddr.sinAddr = old)
      (hcall : ofcSocketImplGetAddresses net (some sock) (some own) (some peer) localAddr
        remoteAddr = (true, localAddr', remoteAddr')) :
      Returned net peer old remoteAddr'.sinAddr remoteAddr'.sinPort
  | getOwnAddress {sock : OfcSocketImpl} {getpeername : Option Sockaddr} {success : Bool}
      {localAddr remoteAddr localAddr' remoteAddr' : OfcSockaddr}
      (hold : localAddr.sinAddr = old)
      (hcall : ofcSocketImplGetAddresses net (some sock) (some peer) getpeername localAddr
        remoteAddr = (success, localAddr', remoteAddr')) :
      Returned net peer old localAddr'.sinAddr localAddr'.sinPort

/-- `sendto` and `connect` present the kernel with `peer` again. -/
def Presents (net : NetOrder) (ip : IPAddr) (port : UInt16) (peer : Sockaddr) : Prop :=
  (∀ sock status eagain, ∃ mysockaddr,
    (ofcSocketImplSendto net (some sock) status eagain ip port).2 =
      some { socket := sock.socket, mysockaddr := mysockaddr } ∧ mysockaddr.Same peer) ∧
  ∀ sock status einprogress, ∃ mysockaddr,
    (ofcSocketImplConnect net (some sock) status einprogress ip port).2 =
      some { socket := sock.socket, mysockaddr := mysockaddr } ∧ mysockaddr.Same peer

/-- Every operation that returns an address stores it with `unmake_sockaddr`. -/
theorem Returned.unmake {peer : Sockaddr} (hpeer : peer.Internet) {old ip : IPAddr}
    {port : UInt16} (hreturned : Returned net peer old ip port) :
    ∃ oldPort, unmakeSockaddr net peer (some old) (some oldPort) = some (some ip, some port) := by
  have hstore : ∀ addr : OfcSockaddr,
      unmakeSockaddr net peer (some addr.sinAddr) (some addr.sinPort) =
        some (some (addr.store net peer).sinAddr, some (addr.store net peer).sinPort) := by
    intro addr
    unfold OfcSockaddr.store
    cases peer with
    | unspec => exact absurd hpeer id
    | inet sin => rfl
    | inet6 sin6 => rfl
  cases hreturned with
  | @recvFrom sock status eagain oldPort ip port hdelivered hcall =>
      refine ⟨oldPort, ?_⟩
      simp only [ofcSocketImplRecvFrom, hdelivered, false_and, if_false] at hcall
      rw [if_pos UInt64.zero_le] at hcall
      obtain ⟨stored, hunmake, heq⟩ := Option.map_eq_some_iff.mp hcall
      rw [hunmake, (Prod.mk.inj heq).2]
  | @accept sock fresh newSock fd oldPort ip port hcall =>
      refine ⟨oldPort, ?_⟩
      simp only [ofcSocketImplAccept] at hcall
      split at hcall
      · obtain ⟨stored, hunmake, heq⟩ := Option.map_eq_some_iff.mp hcall
        rw [hunmake, (Prod.mk.inj heq).2]
      · simp at hcall
  | @getAddresses sock own localAddr remoteAddr localAddr' remoteAddr' hold hcall =>
      simp only [ofcSocketImplGetAddresses, Prod.mk.injEq] at hcall
      obtain ⟨_, _, rfl⟩ := hcall
      exact ⟨remoteAddr.sinPort, hold ▸ hstore remoteAddr⟩
  | @getOwnAddress sock getpeername success localAddr remoteAddr localAddr' remoteAddr' hold
      hcall =>
      refine ⟨localAddr.sinPort, ?_⟩
      have hlocal : localAddr.store net peer = localAddr' := by
        cases getpeername <;> simp only [ofcSocketImplGetAddresses, Prod.mk.injEq] at hcall <;>
          exact hcall.2.1
      rw [← hold, hstore, hlocal]

/-- What `sendto` and `connect` present is what `make_sockaddr` makes. -/
theorem presents_iff {ip : IPAddr} {port : UInt16} {peer : Sockaddr} :
    Presents net ip port peer ↔ (makeSockaddr net ip port).Same peer := by
  constructor
  · intro hpresents
    obtain ⟨mysockaddr, hcall, hsame⟩ := hpresents.2
      { socket := 0, family := .ip, events := 0, revents := 0, ip := ip } 0 false
    simp only [ofcSocketImplConnect, Option.some.injEq, Presented.mk.injEq, true_and] at hcall
    exact hcall ▸ hsame
  · intro hsame
    refine ⟨fun sock status eagain => ⟨_, ?_, hsame⟩, fun sock status einprogress => ⟨_, ?_, hsame⟩⟩
    · simp only [ofcSocketImplSendto]
      split_ifs <;> rfl
    · rfl

/-- Both round trips hold exactly when the destination's scope is left over from
the same address.  For IPv4 that is no condition. -/
theorem address_roundTrip_iff (net : NetOrder) :
    (∀ (ip old : IPAddr) (port oldPort : UInt16),
      (∃ ip', unmakeSockaddr net (makeSockaddr net ip port) (some old) (some oldPort) =
          some (some ip', some port) ∧ ip'.Same ip) ↔
        (ip.ipVersion = .ipv6 → old.ipv6.scope = ip.ipv6.scope)) ∧
    ∀ (peer : Sockaddr) (old ip : IPAddr) (port : UInt16), peer.Internet →
      Returned net peer old ip port →
        (Presents net ip port peer ↔ ∀ scope ∈ peer.scopeId?, old.ipv6.scope = scope) := by
  refine ⟨fun ip old port oldPort => ?_, fun peer old ip port hpeer hreturned => ?_⟩
  · rw [unmake_make]
    have hscope : ScopeLeftOver (makeSockaddr net ip port) old ↔
        (ip.ipVersion = .ipv6 → old.ipv6.scope = ip.ipv6.scope) := by
      unfold ScopeLeftOver makeSockaddr
      cases ip.ipVersion <;> simp [Sockaddr.scopeId?]
    rw [← hscope, ← same_iff_scopeLeftOver]
    constructor
    · rintro ⟨ip', heq, hsame⟩
      simp only [Option.some.injEq, Prod.mk.injEq, and_true] at heq
      exact heq ▸ hsame
    · intro hsame
      exact ⟨_, rfl, hsame⟩
  · obtain ⟨oldPort, hunmake⟩ := hreturned.unmake hpeer
    rw [presents_iff]
    exact make_unmake hpeer hunmake

/-! ## A link-local peer -/

/-- fe80::1%4, port 445. -/
def linkLocalPeer : SockaddrIn6 :=
  { sin6Len := sizeofSockaddrIn6
    sin6Port := (1, 189)
    sin6Flowinfo := 0
    sin6Addr := #v[254, 128, 0, 0, 0, 0, 0, 0, 0, 0, 0, 0, 0, 0, 0, 1]
    sin6ScopeId := 4 }

def clearedIPAddr : IPAddr :=
  { ipVersion := .ip, ipv4 := 0, ipv6 := { s6Addr := Vector.replicate 16 0, scope := 0 } }

/-- What `clearedIPAddr` holds after a datagram from `linkLocalPeer`. -/
def receivedIPAddr : IPAddr :=
  { ipVersion := .ipv6, ipv4 := 0, ipv6 := { s6Addr := linkLocalPeer.sin6Addr, scope := 0 } }

def boundSocket : OfcSocketImpl :=
  { socket := 5, family := .ipv6, events := 1, revents := 0, ip := clearedIPAddr }

/-- The condition holds for a peer with the scope that was left over, and fails
for another. -/
theorem address_roundTrip_link_local :
    Presents NetOrder.bigEndian receivedIPAddr 445
        (.inet6 { linkLocalPeer with sin6ScopeId := 0 }) ∧
      ¬ Presents NetOrder.bigEndian receivedIPAddr 445 (.inet6 linkLocalPeer) := by
  have hreturned : ∀ peer : SockaddrIn6, peer.sin6Addr = linkLocalPeer.sin6Addr →
      peer.sin6Port = linkLocalPeer.sin6Port →
      Returned NetOrder.bigEndian (.inet6 peer) clearedIPAddr receivedIPAddr 445 := by
    intro peer haddr hport
    refine @Returned.recvFrom _ _ _ boundSocket 12 false 0 _ _ (by decide) ?_
    simp only [ofcSocketImplRecvFrom, unmakeSockaddr, unmakeSockaddrIn6, haddr, hport]
    rfl
  have hiff : ∀ peer : SockaddrIn6, peer.sin6Addr = linkLocalPeer.sin6Addr →
      peer.sin6Port = linkLocalPeer.sin6Port →
      (Presents NetOrder.bigEndian receivedIPAddr 445 (.inet6 peer) ↔
        ∀ scope ∈ (Sockaddr.inet6 peer).scopeId?, clearedIPAddr.ipv6.scope = scope) := by
    intro peer haddr hport
    exact (address_roundTrip_iff NetOrder.bigEndian).2 (.inet6 peer) clearedIPAddr _ _
      (by trivial) (hreturned peer haddr hport)
  constructor
  · refine (hiff { linkLocalPeer with sin6ScopeId := 0 } rfl rfl).mpr ?_
    intro scope hscope
    exact Option.some.inj hscope
  · intro hpresents
    have hscope := (hiff linkLocalPeer rfl rfl).mp hpresents 4 rfl
    exact absurd hscope (by decide)

/-- A reply to the link-local peer goes out without its scope id. -/
theorem recvFrom_loses_scope :
    ofcSocketImplRecvFrom NetOrder.bigEndian (some boundSocket) 12 false (.inet6 linkLocalPeer)
        (some clearedIPAddr) (some 0) = some (12, some receivedIPAddr, some 445) ∧
      ofcSocketImplSendto NetOrder.bigEndian (some boundSocket) 12 false receivedIPAddr 445 =
        (12, some { socket := 5, mysockaddr := .inet6 { linkLocalPeer with sin6ScopeId := 0 } }) ∧
      ¬ (Sockaddr.inet6 { linkLocalPeer with sin6ScopeId := 0 }).Same (.inet6 linkLocalPeer) := by
  refine ⟨rfl, rfl, ?_⟩
  rintro ⟨-, -, hscope⟩
  exact absurd hscope (by decide)

end OfcDarwin.Socket
