import OfcDarwin.Socket.DescriptorOwnership
import OfcDarwin.Socket.Memory

/-!
# The sockets use their memory well

Every operation over the heap has a triple.  Those that hand an address to the kernel
give all the memory back that they have taken, in every branch; those on a record own
its block, and `behind` is what a handle has.  `Holds` joins the blocks of all handles,
so that the triple of an operation on one handle is framed with the records of all
others, and `exec_triple` says that the operation comes to what it comes to on the table
of `Socket/Table.lean`.

What separates the two levels is the record of an accepted socket: the table takes its
other fields from whatever memory `ofc_malloc` returns, and over the heap a field that
nobody has written cannot be read.  `MayRead` is the condition, and `exec_faults` shows
that it is needed.
-/

namespace OfcDarwin.Socket.Memory

open HeapLogic Transition
open Failures (Transfer Received)

/-! ## The record of a handle -/

/-- The fields of a record that have been written; the descriptor always is. -/
structure Written where
  address : Bool
  events : Bool
  revents : Bool

/-- The record of `ofc_socket_impl_create`, and that of `ofc_socket_impl_accept`. -/
def Written.created : Written := { address := true, events := true, revents := true }

def Written.accepted : Written := { address := false, events := false, revents := false }

/-- The block of a record. -/
def block (sock : OfcSocketImpl) (written : Written) : Block Cell :=
  [some (.fd sock.socket),
    if written.address then some (.family sock.family) else none,
    if written.events then some (.bits sock.events) else none,
    if written.revents then some (.bits sock.revents) else none,
    if written.address then some (.family sock.ip.ipVersion) else none,
    if written.address then
      some (if sock.ip.ipVersion = .ip then .inaddr sock.ip.ipv4 else .in6addr sock.ip.ipv6)
    else none]

/-- What a handle has: the record that it resolves to, at its address. -/
def behind (written : Written) (entry : Option (ℕ × OfcSocketImpl)) : Assertion Cell :=
  held (entry.map fun record => (record.1, block record.2 written))

/-- An address and a record, if there are both. -/
def entryOf (p : Option ℕ) (sock : Option OfcSocketImpl) : Option (ℕ × OfcSocketImpl) :=
  p.bind fun p => sock.map fun sock => (p, sock)

theorem fd_returns (p : ℕ) (sock : OfcSocketImpl) (written : Written) :
    Returns (pointsTo p (block sock written)) (load Cell.fd? p atSocket) sock.socket
      (pointsTo p (block sock written)) :=
  @load_returns _ _ Cell.fd? _ _ _ (.fd sock.socket) _ rfl rfl

/-! ## Operations on one record -/

section Record

variable (written : Written) (entry : Option (ℕ × OfcSocketImpl))

theorem close_returns :
    Returns (behind written entry) (ofcSocketImplClose (entry.map Prod.fst))
      (entry.map fun record => record.2.socket)
      (behind written (entry.map fun record => (record.1, { record.2 with socket := -1 }))) := by
  cases entry with
  | none => exact Returns.value rfl
  | some record =>
      obtain ⟨p, sock⟩ := record
      apply Triple.seqReturns (fd_returns p sock written)
      apply Triple.seq (store_triple (Nat.zero_lt_succ _) _)
      intro _
      exact Returns.value rfl

theorem destroy_returns :
    Returns (behind written entry) (ofcSocketImplDestroy (entry.map Prod.fst))
      ((entry.filter fun record => record.2.socket ≥ 0).map fun record => record.2.socket) 1 := by
  cases entry with
  | none => exact Returns.value rfl
  | some record =>
      obtain ⟨p, sock⟩ := record
      apply Triple.seqReturns (fd_returns p sock written)
      apply Triple.seq (free_triple p _)
      intro _
      apply Returns.value
      rw [Option.filter_some]
      by_cases hopen : sock.socket ≥ 0
      · simp [hopen]
      · simp [hopen]

theorem enable_returns (type : SocketEventType) :
    Returns (behind written entry) (ofcSocketImplEnable (entry.map Prod.fst) type) entry.isSome
      (behind { written with events := true }
        (entry.map fun record => (record.1, { record.2 with events := enableMask type }))) := by
  cases entry with
  | none => exact Returns.value rfl
  | some record =>
      obtain ⟨p, sock⟩ := record
      apply Triple.seq (store_triple (show atEvents < 6 by decide) _)
      intro _
      exact Returns.value rfl

theorem setEvent_returns (revents : UInt16) :
    Returns (behind written entry) (ofcSocketImplSetEvent (entry.map Prod.fst) revents) ()
      (behind { written with revents := true }
        (entry.map fun record => (record.1, { record.2 with revents := revents }))) := by
  cases entry with
  | none => exact Returns.value rfl
  | some record =>
      obtain ⟨p, sock⟩ := record
      refine (store_triple (show atRevents < 6 by decide) _).weaken fun r part hpart => ?_
      exact Assertion.lift_mul_iff.mpr ⟨rfl, hpart⟩

/-- `ofc_socket_impl_get_event` reads a field that has been written. -/
theorem getEvent_returns (hwritten : entry.isSome → written.events = true) :
    Returns (behind written entry) (ofcSocketImplGetEvent (entry.map Prod.fst))
      (Socket.ofcSocketImplGetEvent (entry.map Prod.snd)) (behind written entry) := by
  cases entry with
  | none => exact Returns.value rfl
  | some record =>
      obtain ⟨p, sock⟩ := record
      refine @load_returns _ _ Cell.bits? _ _ _ (.bits sock.events) _ ?_ rfl
      show some (if written.events then some (Cell.bits sock.events) else none) = _
      rw [hwritten rfl]
      rfl

theorem test_returns (hwritten : entry.isSome → written.revents = true) :
    Returns (behind written entry) (ofcSocketImplTest (entry.map Prod.fst))
      (Socket.ofcSocketImplTest (entry.map Prod.snd)) (behind written entry) := by
  cases entry with
  | none => exact Returns.value rfl
  | some record =>
      obtain ⟨p, sock⟩ := record
      have hcell : (block sock written)[atRevents]? = some (some (Cell.bits sock.revents)) := by
        show some (if written.revents then some (Cell.bits sock.revents) else none) = _
        rw [hwritten rfl]
        rfl
      apply Triple.seqReturns (@load_returns _ _ Cell.bits? _ _ _ (.bits sock.revents) _ hcell rfl)
      exact Returns.value rfl

theorem getEvent_faults (hunwritten : written.events ≠ true) (record : ℕ × OfcSocketImpl) :
    Faults (behind written (some record)) (ofcSocketImplGetEvent (some record.1)) := by
  apply load_faults
  show (if written.events then some (Cell.bits record.2.events) else none).bind _ = none
  rw [if_neg hunwritten, Option.bind_none]

theorem test_faults (hunwritten : written.revents ≠ true) (record : ℕ × OfcSocketImpl) :
    Faults (behind written (some record)) (ofcSocketImplTest (some record.1)) := by
  apply Faults.first
  apply load_faults
  show (if written.revents then some (Cell.bits record.2.revents) else none).bind _ = none
  rw [if_neg hunwritten, Option.bind_none]

end Record

/-! ## Operations that allocate an address -/

theorem makeSockaddr_triple (net : NetOrder) (ip : IPAddr) (port : UInt16) :
    Triple 1 (makeSockaddr net ip port) fun mysockaddr =>
      pointsTo mysockaddr [some (.sockaddr (Socket.makeSockaddr net ip port))] := by
  unfold makeSockaddr
  apply Triple.seq (malloc_triple 1)
  intro mysockaddr
  apply Triple.seq (store_triple (Nat.zero_lt_succ _) _)
  intro _
  exact Triple.value fun _ hpart => hpart

theorem sockaddr_returns (p : ℕ) (storage : Sockaddr) :
    Returns (pointsTo p [some (.sockaddr storage)]) (load Cell.sockaddr? p 0) storage
      (pointsTo p [some (.sockaddr storage)]) :=
  @load_returns _ _ Cell.sockaddr? _ _ _ (.sockaddr storage) _ rfl rfl

/-- The block of an address once the kernel has been asked. -/
def stored (storage : Option Sockaddr) : Block Cell := [storage.map Cell.sockaddr]

theorem kernelStores_triple (p : ℕ) (storage : Option Sockaddr) :
    Triple (pointsTo p [none]) (kernelStores p storage) fun _ => pointsTo p (stored storage) := by
  cases storage with
  | none => exact Triple.value fun _ hpart => hpart
  | some storage => exact store_triple (Nat.zero_lt_succ _) _

section Data

variable {S : Assertion Cell} {p : ℕ} {sock : OfcSocketImpl}
  (hfd : Returns S (load Cell.fd? p atSocket) sock.socket S)

include hfd

theorem present_triple (net : NetOrder) (ip : IPAddr) (port : UInt16) :
    Triple S (present net p ip port) fun r =>
      .lift (r.2 = { socket := sock.socket, mysockaddr := Socket.makeSockaddr net ip port }) *
        (pointsTo r.1 [some (.sockaddr (Socket.makeSockaddr net ip port))] * S) := by
  unfold present
  apply Triple.bind (one_mul _).symm (makeSockaddr_triple net ip port)
  intro mysockaddr
  apply Triple.bindReturns (mul_comm _ _) hfd
  apply Triple.bindReturns (mul_comm _ _) (sockaddr_returns mysockaddr _)
  exact Triple.value fun _ hpart => Assertion.lift_mul_iff.mpr ⟨rfl, hpart⟩

theorem bind_returns (net : NetOrder) (status : ℤ) (ip : IPAddr) (port : UInt16) :
    Returns S (ofcSocketImplBind net (some p) status ip port)
      (decide (status = 0),
        some { socket := sock.socket, mysockaddr := Socket.makeSockaddr net ip port }) S := by
  unfold ofcSocketImplBind
  apply Triple.seq (present_triple hfd net ip port)
  rintro ⟨mysockaddr, call⟩
  apply Triple.lift
  rintro rfl
  have hreport : Returns (pointsTo mysockaddr [some (.sockaddr (Socket.makeSockaddr net ip port))])
      (reportBind mysockaddr status) ()
      (pointsTo mysockaddr [some (.sockaddr (Socket.makeSockaddr net ip port))]) := by
    unfold reportBind
    split
    · exact Returns.value rfl
    · apply Triple.seqReturns (sockaddr_returns mysockaddr _)
      exact Returns.value rfl
  apply Triple.bindReturns rfl hreport
  apply Triple.bind rfl (free_triple mysockaddr _)
  intro _
  rw [one_mul]
  exact Returns.value rfl

theorem connect_returns (net : NetOrder) (status : ℤ) (einprogress : Bool) (ip : IPAddr)
    (port : UInt16) :
    Returns S (ofcSocketImplConnect net (some p) status einprogress ip port)
      (Socket.ofcSocketImplConnect net (some sock) status einprogress ip port) S := by
  unfold ofcSocketImplConnect
  apply Triple.seq (present_triple hfd net ip port)
  rintro ⟨mysockaddr, call⟩
  apply Triple.lift
  rintro rfl
  apply Triple.bind rfl (free_triple mysockaddr _)
  intro _
  rw [one_mul]
  exact Returns.value rfl

omit hfd in
theorem storeSockaddr_returns (net : NetOrder) (q : ℕ) (storage : Sockaddr) (old : OfcSockaddr) :
    Returns (pointsTo q (stored (some storage))) (storeSockaddr net q old) (old.store net storage)
      (pointsTo q (stored (some storage))) := by
  unfold storeSockaddr
  apply Triple.seqReturns (sockaddr_returns q storage)
  exact Returns.value rfl

omit hfd in
theorem getRemote_returns (net : NetOrder) (q : ℕ) (getpeername : Option Sockaddr)
    (remoteAddr : OfcSockaddr) :
    Returns (pointsTo q [none]) (getRemote net q getpeername remoteAddr)
      (getpeername.isSome, (getpeername.map fun peer => remoteAddr.store net peer).getD remoteAddr)
      (pointsTo q (stored getpeername)) := by
  cases getpeername with
  | none => exact Returns.value rfl
  | some peer =>
      apply Triple.seq (kernelStores_triple q (some peer))
      intro _
      apply Triple.seqReturns (storeSockaddr_returns net q peer remoteAddr)
      exact Returns.value rfl

theorem getAddresses_returns (net : NetOrder) (getsockname getpeername : Option Sockaddr)
    (localAddr remoteAddr : OfcSockaddr) :
    Returns S (ofcSocketImplGetAddresses net (some p) getsockname getpeername localAddr remoteAddr)
      (Socket.ofcSocketImplGetAddresses net (some sock) getsockname getpeername localAddr
        remoteAddr) S := by
  unfold ofcSocketImplGetAddresses
  apply Triple.bind (one_mul _).symm (malloc_triple 1)
  intro local_sockaddr
  apply Triple.bindReturns (mul_comm _ _) hfd
  apply Triple.bind (mul_comm _ _) (kernelStores_triple local_sockaddr getsockname)
  intro _
  have hinner : Returns (pointsTo local_sockaddr (stored getsockname) * S)
      (getAddresses net p local_sockaddr getsockname getpeername localAddr remoteAddr)
      (Socket.ofcSocketImplGetAddresses net (some sock) getsockname getpeername localAddr
        remoteAddr)
      (pointsTo local_sockaddr (stored getsockname) * S) := by
    cases getsockname with
    | none => exact Returns.value rfl
    | some own =>
        apply Triple.bindReturns rfl (storeSockaddr_returns net local_sockaddr own localAddr)
        apply Triple.bind (one_mul _).symm (malloc_triple 1)
        intro remote_sockaddr
        apply Triple.bindReturns (F := pointsTo remote_sockaddr [none] *
          pointsTo local_sockaddr (stored (some own))) (by ac_rfl) hfd
        apply Triple.bindReturns (F := S * pointsTo local_sockaddr (stored (some own)))
          (by ac_rfl) (getRemote_returns net remote_sockaddr getpeername remoteAddr)
        apply Triple.bind rfl (free_triple remote_sockaddr _)
        intro _
        rw [one_mul, mul_comm]
        apply Returns.value
        cases getpeername <;> rfl
  apply Triple.seqReturns hinner
  apply Triple.bind rfl (free_triple local_sockaddr _)
  intro _
  rw [one_mul]
  exact Returns.value rfl

theorem sendto_returns (net : NetOrder) (status : UInt64) (eagain : Bool) (ip : IPAddr)
    (port : UInt16) (getsockname getpeername : Option Sockaddr) (unset : OfcSockaddr) :
    Returns S (ofcSocketImplSendto net (some p) status eagain ip port getsockname getpeername unset)
      (Socket.ofcSocketImplSendto net (some sock) status eagain ip port) S := by
  unfold ofcSocketImplSendto
  apply Triple.seq (present_triple hfd net ip port)
  rintro ⟨mysockaddr, call⟩
  apply Triple.lift
  rintro rfl
  have hresult : Returns S (sendtoResult net p status eagain getsockname getpeername unset)
      (Socket.ofcSocketImplSendto net (some sock) status eagain ip port).1 S := by
    unfold sendtoResult Socket.ofcSocketImplSendto
    simp only
    split
    · exact Returns.value rfl
    · split
      · exact Returns.value rfl
      · apply Triple.seqReturns (getAddresses_returns hfd net getsockname getpeername unset unset)
        exact Returns.value rfl
  apply Triple.bindReturns (mul_comm _ _) hresult
  apply Triple.bind (mul_comm _ _) (free_triple mysockaddr _)
  intro _
  rw [one_mul]
  apply Returns.value
  unfold Socket.ofcSocketImplSendto
  simp only
  repeat' split
  all_goals rfl

theorem recvFrom_returns (net : NetOrder) (recvfrom : Transfer) (peer : Sockaddr) (errno : ℤ) :
    Returns S (ofcSocketImplRecvFrom net (some p) recvfrom peer errno)
      (Failures.ofcSocketImplRecvFrom net (some sock) recvfrom peer errno) S := by
  unfold ofcSocketImplRecvFrom
  apply Triple.bind (one_mul _).symm (malloc_triple 1)
  intro mysockaddr
  apply Triple.bind rfl (store_triple (Nat.zero_lt_succ _) _)
  intro _
  apply Triple.bindReturns (mul_comm _ _) hfd
  apply Triple.bind (mul_comm _ _) (store_triple (Nat.zero_lt_succ _) _)
  intro _
  have hresult : Returns (pointsTo mysockaddr [some (.sockaddr (recvfrom.storage peer))])
      (recvFromResult net mysockaddr recvfrom errno)
      (Failures.ofcSocketImplRecvFrom net (some sock) recvfrom peer errno)
      (pointsTo mysockaddr [some (.sockaddr (recvfrom.storage peer))]) := by
    unfold recvFromResult Failures.ofcSocketImplRecvFrom
    simp only
    split
    · exact Returns.value rfl
    · split
      · apply Triple.seqReturns (sockaddr_returns mysockaddr _)
        exact Returns.value rfl
      · exact Returns.value rfl
  apply Triple.bindReturns rfl hresult
  apply Triple.bind rfl (free_triple mysockaddr _)
  intro _
  rw [one_mul]
  exact Returns.value rfl

theorem descriptor_returns : Returns S (descriptor (some p)) (some sock.socket) S := by
  unfold descriptor
  apply Triple.seqReturns hfd
  exact Returns.value rfl

end Data

/-- What an operation that leaves the record as it is comes to. -/
def dataOutput (net : NetOrder) (sock : Option OfcSocketImpl) (answer : Answer) :
    DataOp → Output
  | .bind =>
      .presented (sock.isSome && decide (answer.status = 0))
        (sock.map fun sock =>
          { socket := sock.socket, mysockaddr := Socket.makeSockaddr net answer.ip answer.port })
  | .connect =>
      let connected := Socket.ofcSocketImplConnect net sock answer.status answer.einprogress
        answer.ip answer.port
      .presented connected.1 connected.2
  | .sendto =>
      let sent := Socket.ofcSocketImplSendto net sock answer.transfer.status
        (answer.transfer.errno answer.errno = Failures.eagain) answer.ip answer.port
      .sent sent.1 sent.2
  | .recvFrom =>
      .received (Failures.ofcSocketImplRecvFrom net sock answer.transfer answer.sender answer.errno)
  | .getAddresses getsockname =>
      let addresses := Socket.ofcSocketImplGetAddresses net sock
        (if getsockname then some answer.own else none) answer.getpeername answer.localAddr
        answer.remoteAddr
      .addresses addresses.1 addresses.2.1 addresses.2.2
  | .poll => .fd (Socket.ofcSocketImplGetFd sock)
  | .listen | .reuseAddr | .connected | .send | .recv | .setSendSize | .setRecvSize =>
      .called (sock.map OfcSocketImpl.socket)

/-- The operations leave all blocks as they were, the record among them. -/
theorem data_returns (net : NetOrder) (answer : Answer) (op : DataOp) {S : Assertion Cell}
    {entry : Option (ℕ × OfcSocketImpl)}
    (hfd : ∀ record ∈ entry, Returns S (load Cell.fd? record.1 atSocket) record.2.socket S) :
    Returns S (data net (entry.map Prod.fst) answer op)
      (dataOutput net (entry.map Prod.snd) answer op) S := by
  cases entry with
  | none => cases op <;> exact Returns.value rfl
  | some record =>
      obtain ⟨p, sock⟩ := record
      have hfd : Returns S (load Cell.fd? p atSocket) sock.socket S := hfd _ rfl
      cases op with
      | bind =>
          apply Triple.seqReturns (bind_returns hfd net answer.status answer.ip answer.port)
          exact Returns.value rfl
      | connect =>
          apply Triple.seqReturns (connect_returns hfd net answer.status answer.einprogress answer.ip
            answer.port)
          exact Returns.value rfl
      | sendto =>
          apply Triple.seqReturns (sendto_returns hfd net answer.transfer.status _ answer.ip
            answer.port (some answer.own) answer.getpeername answer.unset)
          exact Returns.value rfl
      | recvFrom =>
          apply Triple.seqReturns (recvFrom_returns hfd net answer.transfer answer.sender
            answer.errno)
          exact Returns.value rfl
      | getAddresses getsockname =>
          apply Triple.seqReturns (getAddresses_returns hfd net _ answer.getpeername
            answer.localAddr answer.remoteAddr)
          exact Returns.value rfl
      | poll =>
          apply Triple.seqReturns hfd
          exact Returns.value rfl
      | _ =>
          apply Triple.seqReturns (descriptor_returns hfd)
          exact Returns.value rfl

/-! ## New records -/

/-- The wildcard address of a family, as it stands in a record. -/
def anyAddr (any : AnyAddr) : FamilyType → Cell
  | .ip => .inaddr any.inaddrAny
  | .ipv6 => .in6addr any.in6addrAny

theorem storeAnyAddr_triple (any : AnyAddr) (p : ℕ) (family : FamilyType) {fields : Block Cell}
    (hfields : fields.length = sizeofSocketImpl) :
    Triple (pointsTo p fields) (storeAnyAddr any p family) fun _ =>
      pointsTo p ((fields.set atIpVersion (some (.family family))).set atIpU
        (some (anyAddr any family))) := by
  have hversion : atIpVersion < fields.length := by rw [hfields]; decide
  have hu : ∀ cell, atIpU < (fields.set atIpVersion cell).length := by
    intro cell
    rw [List.length_set, hfields]
    decide
  cases family with
  | ip => exact Triple.seq (store_triple hversion _) fun _ => store_triple (hu _) _
  | ipv6 => exact Triple.seq (store_triple hversion _) fun _ => store_triple (hu _) _

theorem protocol_triple (p : ℕ) (socktype : SocketType) {family : FamilyType}
    {fields : Block Cell} (hversion : fields[atIpVersion]? = some (some (.family family))) :
    Triple (pointsTo p fields) (protocol p socktype) fun _ => pointsTo p fields := by
  cases socktype with
  | icmp =>
      apply Triple.seqReturns (@load_returns _ _ Cell.family? _ _ _ (.family family) _ hversion rfl)
      exact Triple.value fun _ hpart => hpart
  | _ => exact Triple.value fun _ hpart => hpart

/-- The record that `ofc_socket_impl_create` makes. -/
def newRecord (any : AnyAddr) (memory : OfcSocketImpl) (family : FamilyType) (fd : ℤ) :
    OfcSocketImpl :=
  { socket := fd
    family := family
    events := 0
    revents := 0
    ip :=
      if family = .ip then { memory.ip with ipVersion := .ip, ipv4 := any.inaddrAny }
      else { memory.ip with ipVersion := .ipv6, ipv6 := any.in6addrAny } }

theorem create_eq (any : AnyAddr) (memory : OfcSocketImpl) (family : FamilyType) (fd : ℤ) :
    Socket.ofcSocketImplCreate any (some memory) family fd =
      if fd < 0 then none else some (newRecord any memory family fd) := by
  unfold Socket.ofcSocketImplCreate newRecord
  cases family <;> rfl

/-- A new record has all its fields, or has been freed again. -/
theorem create_triple (any : AnyAddr) (memory : Option OfcSocketImpl) (family : FamilyType)
    (socktype : SocketType) (fd : ℤ) :
    Triple 1 (ofcSocketImplCreate any memory.isSome family socktype fd) fun p =>
      .lift (p.isSome = (Socket.ofcSocketImplCreate any memory family fd).isSome) *
        behind .created (entryOf p (Socket.ofcSocketImplCreate any memory family fd)) := by
  cases memory with
  | none => exact Triple.value fun _ hpart => Assertion.lift_mul_iff.mpr ⟨rfl, hpart⟩
  | some memory =>
      rw [create_eq]
      show Triple 1 (malloc sizeofSocketImpl >>= _) _
      apply Triple.seq (malloc_triple _)
      intro p
      apply Triple.seq (store_triple (show atFamily < 6 by decide) _)
      intro _
      apply Triple.seq (store_triple (show atRevents < 6 by decide) _)
      intro _
      apply Triple.seq (store_triple (show atEvents < 6 by decide) _)
      intro _
      apply Triple.seqReturns (@load_returns _ _ Cell.family? _ _ _ (.family family) _ rfl rfl)
      apply Triple.seq (storeAnyAddr_triple any p family rfl)
      intro _
      apply Triple.seq (@protocol_triple p socktype family _ rfl)
      intro _
      apply Triple.seq (store_triple (show atSocket < 6 by decide) _)
      intro _
      have hblock : ∀ fields : Block Cell, fields = block (newRecord any memory family fd) .created →
          Triple (pointsTo p fields) (keepOpened p) fun p =>
            .lift (p.isSome =
              (if fd < 0 then none else some (newRecord any memory family fd)).isSome) *
            behind .created (entryOf p
              (if fd < 0 then none else some (newRecord any memory family fd))) := by
        rintro fields rfl
        apply Triple.seqReturns (fd_returns p (newRecord any memory family fd) .created)
        show Triple _ (if fd < 0 then _ else _) _
        by_cases hfailed : fd < 0
        · simp only [if_pos hfailed]
          apply Triple.seq (free_triple p _)
          intro _
          exact Triple.value fun _ hpart => Assertion.lift_mul_iff.mpr ⟨rfl, hpart⟩
        · simp only [if_neg hfailed]
          exact Triple.value fun _ hpart => Assertion.lift_mul_iff.mpr ⟨rfl, hpart⟩
      apply hblock
      cases family <;> rfl

theorem unmakeSockaddr_returns {net : NetOrder} (p : ℕ) {storage : Sockaddr}
    {ip : Option IPAddr} {port : Option UInt16} {destinations : Option IPAddr × Option UInt16}
    (hunmake : Socket.unmakeSockaddr net storage ip port = some destinations) :
    Returns (pointsTo p (stored (some storage))) (unmakeSockaddr net p ip port) destinations
      (pointsTo p (stored (some storage))) := by
  unfold unmakeSockaddr
  apply Triple.seqReturns (sockaddr_returns p storage)
  rw [hunmake]
  exact Returns.value rfl

/-- Of an accepted record only the descriptor has been written, and the address of the peer
has been freed. -/
theorem accept_triple (net : NetOrder) {S : Assertion Cell} {entry : Option (ℕ × OfcSocketImpl)}
    (hfd : ∀ record ∈ entry, Returns S (load Cell.fd? record.1 atSocket) record.2.socket S)
    {memory : OfcSocketImpl} {fd : ℤ} {peer : Sockaddr} {ip ip' : Option IPAddr}
    {port port' : Option UInt16} {accepted : Option OfcSocketImpl}
    (haccept : Socket.ofcSocketImplAccept net (entry.map Prod.snd) memory fd peer ip port =
      some (accepted, ip', port')) :
    Triple S (ofcSocketImplAccept net (entry.map Prod.fst) fd peer ip port) fun r =>
      .lift (r.1.isSome = accepted.isSome ∧ r.2 = (ip', port')) *
        (behind .accepted (entryOf r.1 accepted) * S) := by
  cases entry with
  | none =>
      obtain ⟨rfl, rfl, rfl⟩ : accepted = none ∧ ip' = ip ∧ port' = port := by
        cases haccept
        exact ⟨rfl, rfl, rfl⟩
      refine Triple.value fun _ hpart => Assertion.lift_mul_iff.mpr ⟨⟨rfl, rfl⟩, ?_⟩
      show (1 * S : Assertion Cell) _
      rwa [one_mul]
  | some record =>
      obtain ⟨q, sock⟩ := record
      have hfd : Returns S (load Cell.fd? q atSocket) sock.socket S := hfd _ rfl
      show Triple S (malloc sizeofSocketImpl >>= _) _
      apply Triple.bind (one_mul _).symm (malloc_triple sizeofSocketImpl)
      intro newsock
      apply Triple.bind (one_mul _).symm (malloc_triple 1)
      intro mysockaddr
      apply Triple.bindReturns (F := pointsTo mysockaddr [none] *
        pointsTo newsock (List.replicate sizeofSocketImpl none)) (by ac_rfl) hfd
      apply Triple.bind (F := S * pointsTo newsock (List.replicate sizeofSocketImpl none))
        (by ac_rfl) (kernelStores_triple mysockaddr (if fd ≠ -1 then some peer else none))
      intro _
      apply Triple.bind (F := pointsTo mysockaddr (stored (if fd ≠ -1 then some peer else none)) * S)
        (by ac_rfl) (store_triple (show atSocket < 6 by decide) _)
      intro _
      have hnew : (List.replicate sizeofSocketImpl none).set atSocket (some (.fd fd)) =
          block { memory with socket := fd } .accepted := rfl
      rw [hnew]
      unfold keepAccepted
      apply Triple.bindReturns rfl (fd_returns newsock { memory with socket := fd } .accepted)
      change (if fd ≠ -1 then _ else _) = _ at haccept
      show Triple _ (if fd ≠ -1 then _ else _) _
      by_cases hopened : fd ≠ -1
      · rw [if_pos hopened] at haccept
        obtain ⟨destinations, hunmake, heq⟩ := Option.map_eq_some_iff.mp haccept
        cases heq
        simp only [if_pos hopened]
        apply Triple.bindReturns (F := pointsTo newsock (block { memory with socket := fd } .accepted) *
          S) (by ac_rfl) (unmakeSockaddr_returns mysockaddr hunmake)
        apply Triple.bind rfl (free_triple mysockaddr _)
        intro _
        rw [one_mul]
        exact Triple.value fun _ hpart => Assertion.lift_mul_iff.mpr ⟨⟨rfl, rfl⟩, hpart⟩
      · rw [if_neg hopened] at haccept
        cases haccept
        simp only [if_neg hopened]
        apply Triple.bind rfl (free_triple newsock _)
        intro _
        rw [one_mul]
        apply Triple.bind rfl (free_triple mysockaddr _)
        intro _
        exact Triple.value fun _ hpart => Assertion.lift_mul_iff.mpr ⟨⟨rfl, rfl⟩, hpart⟩

/-! ## The records of all handles -/

/-- The fields of the records that have been written after an operation. -/
def writtenAfter (written : Handle → Written) : Action → Handle → Written
  | .create fresh .. => Function.update written fresh .created
  | .accept _ fresh .. => Function.update written fresh .accepted
  | .enable hSocket _ => Function.update written hSocket { written hSocket with events := true }
  | .setEvent hSocket _ =>
      Function.update written hSocket { written hSocket with revents := true }
  | _ => written

/-- What an operation comes to on the records. -/
def output (net : NetOrder) (any : AnyAddr) (s : State) (answer : Answer) : Action → Output
  | .create _ memory family _ fd => .handle (Socket.ofcSocketImplCreate any memory family fd).isSome
  | .accept hSocket _ memory fd _ mysockaddr ip port =>
      match Socket.ofcSocketImplAccept net (s.sockets hSocket) memory fd mysockaddr ip port with
      | none => .none
      | some (sock, ip, port) => .accepted sock.isSome ip port
  | .close hSocket | .noBlock hSocket _ => .called ((s.sockets hSocket).map OfcSocketImpl.socket)
  | .destroy hSocket =>
      .called (((s.sockets hSocket).filter fun sock => sock.socket ≥ 0).map OfcSocketImpl.socket)
  | .enable hSocket type => .enabled (Socket.ofcSocketImplEnable (s.sockets hSocket) type).1
  | .getEvent hSocket => .pollBits (Socket.ofcSocketImplGetEvent (s.sockets hSocket))
  | .test hSocket => .socketEvents (Socket.ofcSocketImplTest (s.sockets hSocket))
  | .data hSocket op => dataOutput net (s.sockets hSocket) answer op
  | .setEvent _ _ | .otherOpen _ _ | .otherClose _ => .none

/-- The operation reads no field of an accepted record that has not been written. -/
def MayRead (s : State × (Handle → Written)) : Action → Prop
  | .getEvent hSocket => (s.1.sockets hSocket).isSome → (s.2 hSocket).events = true
  | .test hSocket => (s.1.sockets hSocket).isSome → (s.2 hSocket).revents = true
  | _ => True

instance (s : State × (Handle → Written)) : ∀ a : Action, Decidable (MayRead s a)
  | .getEvent _ | .test _ => inferInstanceAs (Decidable (_ → _))
  | .create .. | .accept .. | .close _ | .destroy _ | .enable .. | .setEvent .. | .noBlock ..
  | .data .. | .otherOpen .. | .otherClose _ => isTrue trivial

/-- The blocks of the records. -/
def records (written : Handle → Written) (entries : Handle → Option (ℕ × OfcSocketImpl)) :
    Assertion Cell :=
  each fun h => behind (written h) (entries h)

/-- The heap has the records of the state behind the handles. -/
def Holds (s : State) (written : Handle → Written) (handles : Handles) : Assertion Cell :=
  .any fun entries => .lift (handles = Option.map Prod.fst ∘ entries ∧
    s.sockets = Option.map Prod.snd ∘ entries) * records written entries

section Records

variable {written : Handle → Written} {entries : Handle → Option (ℕ × OfcSocketImpl)}

theorem value_holds {β : Type} {u : State} {handles : Handles} (v : β)
    (hhandles : handles = Option.map Prod.fst ∘ entries)
    (hsockets : u.sockets = Option.map Prod.snd ∘ entries) :
    Triple (records written entries) (pure (v, handles)) fun r =>
      .lift (r.1 = v) * Holds u written r.2 :=
  Triple.value fun _ hpart => Assertion.lift_mul_iff.mpr
    ⟨rfl, entries, Assertion.lift_mul_iff.mpr ⟨⟨hhandles, hsockets⟩, hpart⟩⟩

/-- The record of one handle is replaced. -/
theorem records_update (hSocket : Handle) (fields : Written)
    (entry : Option (ℕ × OfcSocketImpl)) :
    records (Function.update written hSocket fields) (Function.update entries hSocket entry) =
      behind fields entry *
        each (Function.update (fun h => behind (written h) (entries h)) hSocket 1) := by
  rw [← each_update, records]
  congr 1
  funext h
  by_cases hsame : h = hSocket
  · subst hsame
    rw [Function.update_self, Function.update_self, Function.update_self]
  · rw [Function.update_of_ne hsame, Function.update_of_ne hsame, Function.update_of_ne hsame]

/-- An operation on the record of one handle. -/
theorem records_returns {β : Type} {hSocket : Handle} {c : Program Cell β} {v : β}
    {fields : Written} {entry : Option (ℕ × OfcSocketImpl)}
    (hlocal : Returns (behind (written hSocket) (entries hSocket)) c v (behind fields entry)) :
    Returns (records written entries) c v
      (records (Function.update written hSocket fields)
        (Function.update entries hSocket entry)) := by
  rw [records_update, records, each_eq_mul _ hSocket]
  exact hlocal.frame _

/-- An operation that leaves the record as it is. -/
theorem records_returns_same {β : Type} {hSocket : Handle} {c : Program Cell β} {v : β}
    (hlocal : Returns (behind (written hSocket) (entries hSocket)) c v
      (behind (written hSocket) (entries hSocket))) :
    Returns (records written entries) c v (records written entries) :=
  Returns.each (a := hSocket) hlocal

/-- An operation that goes wrong with the record of one handle. -/
theorem records_faults {β : Type} {hSocket : Handle} {c : Program Cell β}
    (hlocal : Faults (behind (written hSocket) (entries hSocket)) c) :
    Faults (records written entries) c := by
  rw [records, each_eq_mul _ hSocket]
  exact hlocal.frame _

/-- The descriptor of a record is read in its place. -/
theorem records_fd {hSocket : Handle} :
    ∀ record ∈ entries hSocket, Returns (records written entries)
      (load Cell.fd? record.1 atSocket) record.2.socket (records written entries) := by
  intro record hrecord
  refine @records_returns_same _ _ _ hSocket _ _ ?_
  rw [show entries hSocket = some record from hrecord]
  exact fd_returns record.1 record.2 _

/-- A record is put behind a handle that has none. -/
theorem records_adopt {fresh : Handle} (hfresh : entries fresh = none) (fields : Written)
    (entry : Option (ℕ × OfcSocketImpl)) :
    behind fields entry * records written entries =
      records (Function.update written fresh fields) (Function.update entries fresh entry) := by
  rw [records_update, records, each_eq_mul _ fresh, hfresh]
  show _ * (1 * _) = _
  rw [one_mul]

/-- An operation that writes fields that have been written before. -/
theorem records_modify {β : Type} {hSocket : Handle} {c : Program Cell β} {v : β}
    {entry : Option (ℕ × OfcSocketImpl)}
    (hlocal : Returns (behind (written hSocket) (entries hSocket)) c v
      (behind (written hSocket) entry)) :
    Returns (records written entries) c v
      (records written (Function.update entries hSocket entry)) := by
  have hglobal := records_returns hlocal
  rwa [Function.update_eq_self] at hglobal

theorem map_update_of_eq {β : Type} {f : ℕ × OfcSocketImpl → β} {hSocket : Handle}
    {entry : Option (ℕ × OfcSocketImpl)} (hsame : entry.map f = (entries hSocket).map f) :
    Option.map f ∘ Function.update entries hSocket entry = Option.map f ∘ entries := by
  rw [Function.comp_update, hsame]
  exact Function.update_eq_self ..

end Records

/-! ## What an operation does to the records -/

section Step

variable {net : NetOrder} {any : AnyAddr} {s u : State}

theorem sockets_create {fresh : Handle} {memory : Option OfcSocketImpl} {family : FamilyType}
    {socktype : SocketType} {fd : ℤ}
    (hstep : step net any s (.create fresh memory family socktype fd) = some u) :
    s.sockets fresh = none ∧
      u.sockets = Function.update s.sockets fresh
        (Socket.ofcSocketImplCreate any memory family fd) := by
  rw [step, Option.ite_none_right_eq_some] at hstep
  obtain ⟨⟨hfresh, -⟩, hstep⟩ := hstep
  refine ⟨hfresh, ?_⟩
  split at hstep
  · rename_i hnone
    cases hstep
    rw [hnone, ← hfresh, Function.update_eq_self]
  · rename_i sock hcreate
    cases hstep
    rw [hcreate]
    rfl

theorem sockets_accept {hSocket fresh : Handle} {memory : OfcSocketImpl} {fd : ℤ}
    {peer : Endpoint} {mysockaddr : Sockaddr} {ip : Option IPAddr} {port : Option UInt16}
    (hstep : step net any s (.accept hSocket fresh memory fd peer mysockaddr ip port) = some u) :
    s.sockets fresh = none ∧ ∃ accepted ip' port',
      Socket.ofcSocketImplAccept net (s.sockets hSocket) memory fd mysockaddr ip port =
        some (accepted, ip', port') ∧ u.sockets = Function.update s.sockets fresh accepted := by
  rw [step, Option.ite_none_right_eq_some] at hstep
  obtain ⟨⟨hfresh, -⟩, hstep⟩ := hstep
  refine ⟨hfresh, ?_⟩
  split at hstep
  · cases hstep
  · rename_i destinations haccept
    cases hstep
    refine ⟨none, destinations.1, destinations.2, haccept, ?_⟩
    rw [← hfresh, Function.update_eq_self]
  · rename_i sock destinations haccept
    cases hstep
    obtain ⟨-, -, rfl⟩ := accept_eq haccept
    exact ⟨_, destinations.1, destinations.2, haccept, rfl⟩

theorem sockets_close {hSocket : Handle} (hstep : step net any s (.close hSocket) = some u) :
    u.sockets = Function.update s.sockets hSocket
      ((s.sockets hSocket).map fun sock => { sock with socket := -1 }) := by
  cases step_stepped hstep with
  | notClosed hnone => rw [hnone, Option.map_none, ← hnone, Function.update_eq_self]
  | closed hsock =>
      rw [hsock]
      rfl

theorem sockets_destroy {hSocket : Handle} (hstep : step net any s (.destroy hSocket) = some u) :
    u.sockets = Function.update s.sockets hSocket none := by
  cases step_stepped hstep with
  | notDestroyed hnone => rw [← hnone, Function.update_eq_self]
  | destroyed hsock hopen => rfl
  | dropped hsock hclosed => rfl

theorem sockets_noBlock {hSocket : Handle} {onoff : Bool}
    (hstep : step net any s (.noBlock hSocket onoff) = some u) : u.sockets = s.sockets := by
  cases step_stepped hstep <;> rfl

end Step

/-! ## One operation -/

section Exec

variable {net : NetOrder} {any : AnyAddr} {s u : State} {written : Handle → Written}

/-- An address and a record, when there are both or neither. -/
theorem entryOf_fst {p : Option ℕ} {sock : Option OfcSocketImpl} (hboth : p.isSome = sock.isSome) :
    (entryOf p sock).map Prod.fst = p := by
  cases p with
  | none => rfl
  | some p =>
      cases sock with
      | none => cases hboth
      | some sock => rfl

theorem entryOf_snd {p : Option ℕ} {sock : Option OfcSocketImpl} (hboth : p.isSome = sock.isSome) :
    (entryOf p sock).map Prod.snd = sock := by
  cases sock with
  | none => cases p <;> rfl
  | some sock =>
      cases p with
      | none => cases hboth
      | some p => rfl

/-- The handle of a new record. -/
theorem adopt_eq {handles : Handles} {fresh : Handle} (hfresh : handles fresh = none)
    (p : Option ℕ) : handles.adopt fresh p = Function.update handles fresh p := by
  cases p with
  | none => rw [Handles.adopt, ← hfresh, Function.update_eq_self]
  | some p => rfl

/-- A new record, or none, is put behind a handle that has none. -/
theorem adopted_holds {β : Type} {entries : Handle → Option (ℕ × OfcSocketImpl)}
    (hsockets : s.sockets = Option.map Prod.snd ∘ entries) {fresh : Handle}
    (hfresh : s.sockets fresh = none) {p : Option ℕ} {sock : Option OfcSocketImpl}
    (hboth : p.isSome = sock.isSome) (hnext : u.sockets = Function.update s.sockets fresh sock)
    (fields : Written) (v : β) :
    Triple (behind fields (entryOf p sock) * records written entries)
      (pure (v, Handles.adopt (Option.map Prod.fst ∘ entries) fresh p)) fun r =>
        .lift (r.1 = v) * Holds u (Function.update written fresh fields) r.2 := by
  have hentry : entries fresh = none := by
    rw [hsockets] at hfresh
    exact Option.map_eq_none_iff.mp hfresh
  rw [records_adopt hentry]
  refine value_holds v ?_ ?_
  · rw [adopt_eq (congrArg (Option.map Prod.fst) hentry), Function.comp_update, entryOf_fst hboth]
  · rw [hnext, hsockets, Function.comp_update, entryOf_snd hboth]

/-- The record behind a handle is changed in its place. -/
theorem modified_holds {β : Type} {entries : Handle → Option (ℕ × OfcSocketImpl)}
    (hsockets : s.sockets = Option.map Prod.snd ∘ entries) {hSocket : Handle}
    {f : OfcSocketImpl → OfcSocketImpl}
    (hnext : u.sockets = Function.update s.sockets hSocket ((s.sockets hSocket).map f)) (v : β) :
    Triple (records written (Function.update entries hSocket
        ((entries hSocket).map fun record => (record.1, f record.2))))
      (pure (v, Option.map Prod.fst ∘ entries)) fun r => .lift (r.1 = v) * Holds u written r.2 := by
  refine value_holds v (map_update_of_eq ?_).symm ?_
  · rw [Option.map_map]
    rfl
  · rw [hnext, hsockets, Function.comp_update, Option.map_map, Function.comp_apply, Option.map_map]
    rfl

/-- An operation over the heap does to the records behind the handles what it does to the
records of the state, and comes to the same. -/
theorem exec_triple {a : Action} (answer : Answer) (handles : Handles)
    (hstep : step net any s a = some u) (hread : MayRead (s, written) a) :
    Triple (Holds s written handles) (exec net any answer handles a) fun r =>
      .lift (r.1 = output net any s answer a) * Holds u (writtenAfter written a) r.2 := by
  apply Triple.any
  intro entries
  apply Triple.lift
  rintro ⟨rfl, hsockets⟩
  have hsock : ∀ h, s.sockets h = (entries h).map Prod.snd := congrFun hsockets
  cases a with
  | create fresh memory family socktype fd =>
      obtain ⟨hfresh, hnext⟩ := sockets_create hstep
      apply Triple.bind (one_mul _).symm (create_triple any memory family socktype fd)
      intro p
      rw [mul_assoc]
      apply Triple.lift
      intro hboth
      have hout : output net any s answer (.create fresh memory family socktype fd) =
          .handle p.isSome := by
        rw [output, hboth]
      rw [hout]
      exact adopted_holds hsockets hfresh hboth hnext .created _
  | accept hSocket fresh memory fd peer mysockaddr ip port =>
      obtain ⟨hfresh, accepted, ip', port', haccept, hnext⟩ := sockets_accept hstep
      have hout : output net any s answer (.accept hSocket fresh memory fd peer mysockaddr ip port) =
          .accepted accepted.isSome ip' port' := by
        rw [output, haccept]
      rw [hsock] at haccept
      rw [hout]
      apply Triple.seq (accept_triple net records_fd haccept)
      rintro ⟨p, destinations⟩
      apply Triple.lift
      rintro ⟨hboth, rfl⟩
      rw [← hboth]
      exact adopted_holds hsockets hfresh hboth hnext .accepted _
  | close hSocket =>
      apply Triple.seqReturns (records_modify (close_returns (written hSocket) (entries hSocket)))
      have hout : output net any s answer (.close hSocket) =
          .called ((entries hSocket).map fun record => record.2.socket) := by
        rw [output, hsock, Option.map_map]
        rfl
      rw [hout]
      exact modified_holds hsockets (sockets_close hstep) _
  | destroy hSocket =>
      apply Triple.seqReturns (@records_modify _ _ _ hSocket _ _ none
        (destroy_returns (written hSocket) (entries hSocket)))
      have hout : output net any s answer (.destroy hSocket) = .called
          (((entries hSocket).filter fun record => record.2.socket ≥ 0).map
            fun record => record.2.socket) := by
        rw [output, hsock]
        cases entries hSocket with
        | none => rfl
        | some record =>
            rw [Option.map_some, Option.filter_some, Option.filter_some]
            split <;> rfl
      rw [hout]
      refine value_holds _ ?_ ?_
      · rw [Function.comp_update]
        rfl
      · rw [sockets_destroy hstep, hsockets, Function.comp_update]
        rfl
  | enable hSocket type =>
      apply Triple.seqReturns (records_returns
        (enable_returns (written hSocket) (entries hSocket) type))
      have hout : output net any s answer (.enable hSocket type) =
          .enabled (entries hSocket).isSome := by
        rw [output, hsock, Socket.ofcSocketImplEnable, Option.isSome_map]
      rw [hout]
      have hnext : u.sockets = Function.update s.sockets hSocket
          ((s.sockets hSocket).map fun sock => { sock with events := enableMask type }) := by
        cases hstep
        rfl
      exact modified_holds hsockets hnext _
  | setEvent hSocket revents =>
      apply Triple.seqReturns (records_returns
        (setEvent_returns (written hSocket) (entries hSocket) revents))
      have hnext : u.sockets = Function.update s.sockets hSocket
          ((s.sockets hSocket).map fun sock => { sock with revents := revents }) := by
        cases hstep
        rfl
      exact modified_holds hsockets hnext _
  | getEvent hSocket =>
      apply Triple.seqReturns (records_returns_same (getEvent_returns _ (entries hSocket) ?_))
      · cases hstep
        rw [← hsock]
        exact value_holds _ rfl hsockets
      · intro hsome
        refine hread ?_
        rwa [hsock, Option.isSome_map]
  | test hSocket =>
      apply Triple.seqReturns (records_returns_same (test_returns _ (entries hSocket) ?_))
      · cases hstep
        rw [← hsock]
        exact value_holds _ rfl hsockets
      · intro hsome
        refine hread ?_
        rwa [hsock, Option.isSome_map]
  | noBlock hSocket onoff =>
      have hout : output net any s answer (.noBlock hSocket onoff) =
          .called ((entries hSocket).map fun record => record.2.socket) := by
        rw [output, hsock, Option.map_map]
        rfl
      rw [hout]
      have hfd : Returns (records written entries) (descriptor ((entries hSocket).map Prod.fst))
          ((entries hSocket).map fun record => record.2.socket) (records written entries) := by
        cases hentry : entries hSocket with
        | none => exact Returns.value rfl
        | some record => exact descriptor_returns (records_fd record hentry)
      apply Triple.seqReturns hfd
      exact value_holds _ rfl ((sockets_noBlock hstep).trans hsockets)
  | data hSocket op =>
      cases hstep
      apply Triple.seqReturns (data_returns net answer op (@records_fd written entries hSocket))
      rw [← hsock]
      exact value_holds _ rfl hsockets
  | otherOpen fd endpoint =>
      rw [step, Option.ite_none_right_eq_some] at hstep
      obtain ⟨-, hstep⟩ := hstep
      cases hstep
      exact value_holds _ rfl hsockets
  | otherClose fd =>
      have hnext : u.sockets = s.sockets := by
        cases step_stepped hstep <;> rfl
      exact value_holds _ rfl (hnext.trans hsockets)

end Exec

/-! ## Runs -/

section Run

variable (net : NetOrder) (any : AnyAddr)

/-- The step function with the fields that have been written. -/
def trackedStep (s : State × (Handle → Written)) (a : Action) :
    Option (State × (Handle → Written)) :=
  (step net any s.1 a).map fun u => (u, writtenAfter s.2 a)

/-- What the operations of a run come to. -/
def outputs : State → List (Action × Answer) → List Output
  | _, [] => []
  | s, (a, answer) :: rest =>
      output net any s answer a :: (step net any s a).elim [] fun u => outputs u rest

/-- The fields that have been written after a run. -/
def writtenAll (written : Handle → Written) (calls : List (Action × Answer)) :
    Handle → Written :=
  (calls.map Prod.fst).foldl writtenAfter written

variable {net any}

theorem execAll_triple {calls : List (Action × Answer)} {s u : State} {written : Handle → Written}
    (handles : Handles) (hrun : run (step net any) s (calls.map Prod.fst) = some u)
    (hread : Along (trackedStep net any) MayRead (s, written) (calls.map Prod.fst)) :
    Triple (Holds s written handles) (execAll net any calls handles) fun r =>
      .lift (r.1 = outputs net any s calls) * Holds u (writtenAll written calls) r.2 := by
  induction calls generalizing s written handles with
  | nil =>
      cases hrun
      exact Triple.value fun _ hpart => Assertion.lift_mul_iff.mpr ⟨rfl, hpart⟩
  | cons call rest ih =>
      obtain ⟨a, answer⟩ := call
      obtain ⟨t, hstep, hrest⟩ := run_cons_eq_some.mp hrun
      have htracked : trackedStep net any (s, written) a = some (t, writtenAfter written a) := by
        rw [trackedStep, hstep, Option.map_some]
      have houtputs : outputs net any s ((a, answer) :: rest) =
          output net any s answer a :: outputs net any t rest := by
        rw [outputs, hstep, Option.elim_some]
      rw [houtputs]
      unfold execAll
      apply Triple.seq (exec_triple answer handles hstep hread.1)
      rintro ⟨out, next⟩
      apply Triple.lift
      rintro rfl
      apply Triple.seq (ih next hrest (hread.2 _ htracked))
      rintro ⟨outs, last⟩
      apply Triple.lift
      rintro rfl
      exact Triple.value fun _ hpart => Assertion.lift_mul_iff.mpr ⟨rfl, hpart⟩

/-- Before the first operation there is no record, and no block. -/
theorem holds_initial (written : Handle → Written) {part : Blocks Cell}
    (hnone : (1 : Assertion Cell) part) : Holds initial written (fun _ => none) part := by
  refine ⟨fun _ => none, Assertion.lift_mul_iff.mpr ⟨⟨rfl, rfl⟩, ?_⟩⟩
  show each (fun _ : Handle => (1 : Assertion Cell)) part
  rwa [each_one]

/-- The blocks of the heap are the records behind the handles, and each handle has its own. -/
structure Represents (u : State) (written : Handle → Written) (handles : Handles)
    (heap : Heap Cell) : Prop where
  live : ∀ h, (handles h).isSome = (u.sockets h).isSome
  blocks : ∀ p fields, heap.blocks p = some fields ↔
    ∃ h sock, handles h = some p ∧ u.sockets h = some sock ∧ fields = block sock (written h)
  apart : ∀ h g p, handles h = some p → handles g = some p → h = g

theorem Holds.represents {u : State} {written : Handle → Written} {handles : Handles}
    {heap : Heap Cell} (hholds : Holds u written handles heap.blocks) :
    Represents u written handles heap := by
  obtain ⟨entries, hholds⟩ := hholds
  obtain ⟨⟨rfl, hsockets⟩, hrecords⟩ := Assertion.lift_mul_iff.mp hholds
  obtain ⟨hblocks, hapart⟩ := each_held hrecords
  have howned : ∀ {h p}, (entries h).map Prod.fst = some p →
      ∃ sock, entries h = some (p, sock) := by
    intro h p hp
    obtain ⟨⟨q, sock⟩, hentry, rfl⟩ := Option.map_eq_some_iff.mp hp
    exact ⟨sock, hentry⟩
  refine ⟨fun h => ?_, fun p fields => ?_, fun h g p hh hg => ?_⟩
  · rw [hsockets, Function.comp_apply, Function.comp_apply, Option.isSome_map, Option.isSome_map]
  · rw [hblocks]
    constructor
    · rintro ⟨h, howner⟩
      obtain ⟨⟨q, sock⟩, hentry, heq⟩ := Option.map_eq_some_iff.mp howner
      obtain ⟨rfl, rfl⟩ := Prod.mk.inj heq
      refine ⟨h, sock, ?_, ?_, rfl⟩
      · rw [Function.comp_apply, hentry, Option.map_some]
      · rw [hsockets, Function.comp_apply, hentry, Option.map_some]
    · rintro ⟨h, sock, hp, hsock, rfl⟩
      obtain ⟨sock', hentry⟩ := howned hp
      rw [hsockets, Function.comp_apply, hentry, Option.map_some, Option.some.injEq] at hsock
      refine ⟨h, ?_⟩
      rw [hentry, ← hsock, Option.map_some]
  · obtain ⟨first, hfirst⟩ := howned hh
    obtain ⟨second, hsecond⟩ := howned hg
    refine hapart h g p (block first (written h)) (block second (written g)) ?_ ?_
    · rw [hfirst, Option.map_some]
    · rw [hsecond, Option.map_some]

/-- A field that has not been written has no value to be read. -/
theorem exec_faults {s : State} {written : Handle → Written} {handles : Handles} {a : Action}
    (answer : Answer) (hread : ¬ MayRead (s, written) a) :
    Faults (Holds s written handles) (exec net any answer handles a) := by
  apply Faults.any
  intro entries
  apply Faults.lift
  rintro ⟨rfl, hsockets⟩
  have hrecord : ∀ {hSocket}, (s.sockets hSocket).isSome →
      ∃ record, entries hSocket = some record := by
    intro hSocket hsome
    rw [hsockets, Function.comp_apply, Option.isSome_map] at hsome
    exact Option.isSome_iff_exists.mp hsome
  cases a with
  | getEvent hSocket =>
      obtain ⟨hsome, hunwritten⟩ := Classical.not_imp.mp hread
      obtain ⟨record, hentry⟩ := hrecord hsome
      apply Faults.first
      apply @records_faults _ _ _ hSocket
      rw [Function.comp_apply, hentry]
      exact getEvent_faults _ hunwritten record
  | test hSocket =>
      obtain ⟨hsome, hunwritten⟩ := Classical.not_imp.mp hread
      obtain ⟨record, hentry⟩ := hrecord hsome
      apply Faults.first
      apply @records_faults _ _ _ hSocket
      rw [Function.comp_apply, hentry]
      exact test_faults _ hunwritten record
  | _ => exact absurd trivial hread

theorem execAll_faults {calls : List (Action × Answer)} {s u : State} {written : Handle → Written}
    (handles : Handles) (hrun : run (step net any) s (calls.map Prod.fst) = some u)
    (hread : ¬ Along (trackedStep net any) MayRead (s, written) (calls.map Prod.fst)) :
    Faults (Holds s written handles) (execAll net any calls handles) := by
  induction calls generalizing s written handles with
  | nil => exact absurd trivial hread
  | cons call rest ih =>
      obtain ⟨a, answer⟩ := call
      obtain ⟨t, hstep, hrest⟩ := run_cons_eq_some.mp hrun
      unfold execAll
      by_cases hfirst : MayRead (s, written) a
      · have hlater : ¬ Along (trackedStep net any) MayRead (t, writtenAfter written a)
            (rest.map Prod.fst) := by
          intro halong
          refine hread ⟨hfirst, fun v hv => ?_⟩
          rw [trackedStep, hstep, Option.map_some, Option.some.injEq] at hv
          exact hv ▸ halong
        apply Faults.seq (exec_triple answer handles hstep hfirst)
        rintro ⟨out, next⟩
        apply Faults.lift
        rintro rfl
        exact (ih next hrest hlater).first
      · exact (exec_faults answer hfirst).first

/-- An answer of the kernel to whatever operation: a datagram of four bytes. -/
def exampleAnswer : Answer :=
  { ip := exampleMemory.ip
    port := 80
    status := 0
    einprogress := false
    transfer := .done 4 (by decide)
    errno := 0
    sender := .inet { sinPort := (0, 80), sinAddr := (10, 0, 0, 1) }
    own := .inet { sinPort := (0, 81), sinAddr := (10, 0, 0, 2) }
    getpeername := none
    localAddr := { sinFamily := .ip, sinAddr := exampleMemory.ip, sinPort := 0 }
    remoteAddr := { sinFamily := .ip, sinAddr := exampleMemory.ip, sinPort := 0 }
    unset := { sinFamily := .ip, sinAddr := exampleMemory.ip, sinPort := 0 } }

/-- Socket 2 is accepted and enabled, its events are read, and it receives a datagram and
fails to learn its peer; then socket 1 goes. -/
def acceptedCalls : List (Action × Answer) :=
  [.create 1 (some exampleMemory) .ip .stream 3,
    .accept 1 2 exampleMemory 4 { family := .ip, flags := oRdwr }
      (.inet { sinPort := (0, 80), sinAddr := (10, 0, 0, 1) }) (some exampleMemory.ip) (some 0),
    .enable 2 {.read}, .getEvent 2, .data 2 .recvFrom, .data 2 (.getAddresses true), .close 1,
    .destroy 1].map fun a => (a, exampleAnswer)

end Run

end OfcDarwin.Socket.Memory
