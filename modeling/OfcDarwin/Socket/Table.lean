import OfcDarwin.Handle
import OfcDarwin.Lib.Descriptors
import OfcDarwin.Lib.Transition
import OfcDarwin.Socket.Events

/-!
# The sockets of a process

Any number of sockets, made by `ofc_socket_impl_create` and `ofc_socket_impl_accept`
and used through their handles, one operation after the other.  The kernel gives
out the descriptor numbers, and takes them back at `close` for anyone to have; the
other opens and closes of the process are steps as well.

An operation on a handle locks it, and what it then does depends on the record the
handle resolves to.  `step` changes the records and the kernel, `syscalls` are the
calls that the operation makes, each on a descriptor number.  `Stepped` says once what
each action can do, and is what the proofs about `step` go by.

A record is allocated with whatever its memory holds, which is an argument of the
two constructors.
-/

namespace OfcDarwin.Socket

open Descriptors

/-! ## Creating, closing, configuring -/

/-- `OFC_SOCKET_TYPE`. -/
inductive SocketType where
  | stream
  | dgram
  | icmp
deriving DecidableEq, Repr

/-- The wildcard addresses of the core library: `OFC_INADDR_ANY` and
`ofc_in6addr_any`. -/
structure AnyAddr where
  inaddrAny : UInt32
  in6addrAny : Ipv6

/-- `ofc_socket_impl_create`: the record of the new handle, if there is one.
`memory` is the record as `ofc_malloc` returns it and `fd` what `socket` returns. -/
def ofcSocketImplCreate (any : AnyAddr) (memory : Option OfcSocketImpl) (family : FamilyType)
    (fd : ℤ) : Option OfcSocketImpl :=
  match memory with
  | none => none
  | some sock =>
      let sock : OfcSocketImpl := { sock with family := family, revents := 0, events := 0 }
      let sock : OfcSocketImpl :=
        if sock.family = .ip then
          { sock with ip := { sock.ip with ipVersion := .ip, ipv4 := any.inaddrAny } }
        else { sock with ip := { sock.ip with ipVersion := .ipv6, ipv6 := any.in6addrAny } }
      let sock : OfcSocketImpl := { sock with socket := fd }
      if sock.socket < 0 then none else some sock

/-- `ofc_socket_impl_close` of what the handle resolves to: its result and the
record. -/
def ofcSocketImplClose (sock : Option OfcSocketImpl) : Bool × Option OfcSocketImpl :=
  (sock.isSome, sock.map fun record => { record with socket := -1 })

/-- `O_NONBLOCK`. -/
def oNonblock : UInt32 := 0x0004

/-- `ofc_socket_impl_no_block` of what the handle resolves to: its result, and the
flags it sets.  `getfl` is what `fcntl(F_GETFL)` returns, when it succeeds. -/
def ofcSocketImplNoBlock (sock : Option OfcSocketImpl) (_onoff : Bool) (getfl : Option UInt32) :
    Bool × Option UInt32 :=
  match sock, getfl with
  | some _, some flags => (true, some (flags ||| oNonblock))
  | _, _ => (false, none)

/-! ## The state -/

/-- What the kernel has behind a descriptor. -/
structure Endpoint where
  family : FamilyType
  flags : UInt32
deriving DecidableEq

/-- Whether a descriptor is in non-blocking mode. -/
def Endpoint.nonBlocking (endpoint : Endpoint) : Bool := endpoint.flags &&& oNonblock != 0

/-- The records that the handles resolve to, the kernel, and which opens have been
put into a record. -/
structure State where
  sockets : Handle → Option OfcSocketImpl
  kernel : Table Endpoint
  obtained : ℕ → Bool

/-- No socket. -/
def initial : State :=
  { sockets := fun _ => none, kernel := Table.empty, obtained := fun _ => false }

/-- An operation that leaves the record as it is. -/
inductive DataOp where
  | bind
  | listen
  | connect
  | reuseAddr
  | connected
  | send
  | sendto
  | recv
  | recvFrom
  | setSendSize
  | setRecvSize
  /-- `getpeername` is called when `getsockname` succeeds. -/
  | getAddresses (getsockname : Bool)
  /-- The descriptor is asked for, and polled by a wait. -/
  | poll
deriving DecidableEq, Repr

/-- One operation, or an open or a close of another part of the process. -/
inductive Action where
  | create (fresh : Handle) (memory : Option OfcSocketImpl) (family : FamilyType)
      (socktype : SocketType) (fd : ℤ)
  | accept (hSocket fresh : Handle) (memory : OfcSocketImpl) (fd : ℤ) (peer : Endpoint)
      (mysockaddr : Sockaddr) (ip : Option IPAddr) (port : Option UInt16)
  | close (hSocket : Handle)
  | destroy (hSocket : Handle)
  | enable (hSocket : Handle) (type : SocketEventType)
  | setEvent (hSocket : Handle) (revents : UInt16)
  | getEvent (hSocket : Handle)
  | test (hSocket : Handle)
  | noBlock (hSocket : Handle) (onoff : Bool)
  | data (hSocket : Handle) (op : DataOp)
  | otherOpen (fd : ℤ) (endpoint : Endpoint)
  | otherClose (fd : ℤ)

/-- The flags of a descriptor that `socket` returns: `O_RDWR`, and blocking. -/
def oRdwr : UInt32 := 0x0002

namespace State

/-- The descriptor in the record of a handle. -/
def fd? (s : State) (hSocket : Handle) : Option ℤ := (s.sockets hSocket).map OfcSocketImpl.socket

/-- The record of a handle is replaced. -/
def store (s : State) (hSocket : Handle) (sock : Option OfcSocketImpl) : State :=
  { s with sockets := Function.update s.sockets hSocket sock }

/-- A new open goes into the record of a new handle. -/
def adopt (s : State) (fresh : Handle) (sock : OfcSocketImpl) (endpoint : Endpoint) : State :=
  { sockets := Function.update s.sockets fresh (some sock)
    kernel := s.kernel.install sock.socket endpoint
    obtained := Function.update s.obtained s.kernel.next true }

/-- The kernel closes a descriptor. -/
def closeFd (s : State) (fd : ℤ) : State := { s with kernel := s.kernel.close fd }

/-- `fcntl(F_SETFL)`. -/
def setFlags (s : State) (fd : ℤ) (flags : UInt32) : State :=
  { s with kernel := s.kernel.modify fd fun endpoint => { endpoint with flags := flags } }

/-- `fcntl(F_GETFL)`. -/
def getFlags (s : State) (fd : ℤ) : Option UInt32 :=
  (s.kernel.slot fd).map fun file => file.state.flags

/-- What `socket` and `accept` may return: -1, or a number that is not open. -/
def Returned (s : State) (fd : ℤ) : Prop := fd = -1 ∨ 0 ≤ fd ∧ s.kernel.serial? fd = none

instance (s : State) (fd : ℤ) : Decidable (s.Returned fd) :=
  inferInstanceAs (Decidable (_ ∨ _))

theorem sockets_store (s : State) (hSocket other : Handle) (sock : Option OfcSocketImpl) :
    (s.store hSocket sock).sockets other =
      if other = hSocket then sock else s.sockets other := Function.update_apply ..

theorem sockets_adopt (s : State) (fresh other : Handle) (sock : OfcSocketImpl)
    (endpoint : Endpoint) :
    (s.adopt fresh sock endpoint).sockets other =
      if other = fresh then some sock else s.sockets other := Function.update_apply ..

end State

/-- The step function of the system.  `ofc_handle_create` returns a handle that is
not in use. -/
def step (net : NetOrder) (any : AnyAddr) (s : State) : Action → Option State
  | .create fresh memory family _ fd =>
      if s.sockets fresh = none ∧ s.Returned fd then
        match ofcSocketImplCreate any memory family fd with
        | none => some s
        | some sock => some (s.adopt fresh sock { family := family, flags := oRdwr })
      else none
  | .accept hSocket fresh memory fd peer mysockaddr ip port =>
      if s.sockets fresh = none ∧ s.Returned fd then
        match ofcSocketImplAccept net (s.sockets hSocket) memory fd mysockaddr ip port with
        -- a store through `OFC_NULL` ends the process
        | none => none
        | some (none, _) => some s
        | some (some sock, _) => some (s.adopt fresh sock peer)
      else none
  | .close hSocket =>
      match s.sockets hSocket with
      | none => some s
      | some sock =>
          some ((s.closeFd sock.socket).store hSocket (ofcSocketImplClose (some sock)).2)
  | .destroy hSocket =>
      match s.sockets hSocket with
      | none => some s
      | some sock =>
          some ((if sock.socket ≥ 0 then s.closeFd sock.socket else s).store hSocket none)
  | .enable hSocket type =>
      some (s.store hSocket (ofcSocketImplEnable (s.sockets hSocket) type).2)
  | .setEvent hSocket revents =>
      some (s.store hSocket (ofcSocketImplSetEvent (s.sockets hSocket) revents))
  | .getEvent _ | .test _ | .data _ _ => some s
  | .noBlock hSocket onoff =>
      match s.sockets hSocket with
      | none => some s
      | some sock =>
          match (ofcSocketImplNoBlock (some sock) onoff (s.getFlags sock.socket)).2 with
          | none => some s
          | some flags => some (s.setFlags sock.socket flags)
  | .otherOpen fd endpoint =>
      if 0 ≤ fd ∧ s.kernel.serial? fd = none then
        some { s with kernel := s.kernel.install fd endpoint }
      else none
  | .otherClose fd =>
      -- the rest of the process closes what it has opened itself
      match s.kernel.serial? fd with
      | none => some s
      | some serial => if s.obtained serial then none else some (s.closeFd fd)

/-! ## System calls -/

/-- The calls that the operations make on a descriptor. -/
inductive SyscallKind where
  | accept
  | bind
  | close
  | connect
  | fcntl
  | getpeername
  | getsockname
  | listen
  | poll
  | recv
  | recvfrom
  | send
  | sendto
  | setsockopt
deriving DecidableEq, Repr

/-- A system call on a descriptor number. -/
structure Syscall where
  kind : SyscallKind
  fd : ℤ
deriving DecidableEq, Repr

/-- The calls of an operation that leaves the record as it is. -/
def DataOp.kinds : DataOp → List SyscallKind
  | .bind => [.bind]
  | .listen => [.listen]
  | .connect => [.connect]
  | .reuseAddr => [.setsockopt]
  | .connected => [.getpeername]
  | .send => [.send]
  | .sendto => [.sendto]
  | .recv => [.recv]
  | .recvFrom => [.recvfrom]
  | .setSendSize => [.setsockopt]
  | .setRecvSize => [.setsockopt]
  | .getAddresses getsockname =>
      if getsockname then [.getsockname, .getpeername] else [.getsockname]
  | .poll => [.poll]

/-- The calls on the descriptor of a record, by operation. -/
def recordCalls (s : State) (sock : OfcSocketImpl) : Action → List SyscallKind
  | .accept _ _ _ fd .. => if fd ≠ -1 then [.accept, .setsockopt] else [.accept]
  | .close _ => [.close]
  | .destroy _ => if sock.socket ≥ 0 then [.close] else []
  | .noBlock _ _ => if (s.getFlags sock.socket).isSome then [.fcntl, .fcntl] else [.fcntl]
  | .data _ op => op.kinds
  | _ => []

/-- The handle that an operation is called with, or that it returns. -/
def Action.handle? : Action → Option Handle
  | .create fresh .. => some fresh
  | .accept hSocket .. => some hSocket
  | .close hSocket | .destroy hSocket | .enable hSocket _ | .setEvent hSocket _
  | .getEvent hSocket | .test hSocket | .noBlock hSocket _ | .data hSocket _ => some hSocket
  | .otherOpen .. | .otherClose .. => none

/-- The calls of an operation on the descriptor of its record, if there is one. -/
def ownSyscalls (s : State) (a : Action) : List Syscall :=
  match a.handle?.bind s.sockets with
  | none => []
  | some sock => (recordCalls s sock a).map fun kind => { kind := kind, fd := sock.socket }

/-- The system calls of an operation.  Those of `ofc_socket_impl_create` are on the
descriptor that `socket` has just returned. -/
def syscalls (s : State) : Action → List Syscall
  | .create _ memory _ socktype fd =>
      if memory.isSome ∧ 0 ≤ fd then
        (if socktype = .dgram then [.setsockopt, .setsockopt] else [.setsockopt]).map
          fun kind => { kind := kind, fd := fd }
      else []
  | a => ownSyscalls s a

/-! ## What a step can do -/

/-- The descriptor of a created record is the one `socket` returned. -/
theorem create_socket {any : AnyAddr} {memory : Option OfcSocketImpl} {family : FamilyType}
    {fd : ℤ} {sock : OfcSocketImpl}
    (hcreate : ofcSocketImplCreate any memory family fd = some sock) :
    sock.socket = fd ∧ 0 ≤ fd := by
  unfold ofcSocketImplCreate at hcreate
  cases memory with
  | none => cases hcreate
  | some memory =>
      simp only at hcreate
      split at hcreate
      · cases hcreate
      · rename_i hnonneg
        obtain rfl := Option.some.inj hcreate
        exact ⟨rfl, not_lt.mp hnonneg⟩

/-- The record of an accepted socket is its memory with the descriptor. -/
theorem accept_eq {net : NetOrder} {sock : Option OfcSocketImpl} {memory record : OfcSocketImpl}
    {fd : ℤ} {mysockaddr : Sockaddr} {ip ip' : Option IPAddr} {port port' : Option UInt16}
    (haccept : ofcSocketImplAccept net sock memory fd mysockaddr ip port =
      some (some record, ip', port')) :
    sock.isSome ∧ fd ≠ -1 ∧ record = { memory with socket := fd } := by
  unfold ofcSocketImplAccept at haccept
  cases sock with
  | none => simp at haccept
  | some sock =>
      simp only at haccept
      split at haccept
      · rename_i hfd
        obtain ⟨stored, -, heq⟩ := Option.map_eq_some_iff.mp haccept
        obtain ⟨hrecord, -⟩ := Prod.mk.inj heq
        exact ⟨rfl, hfd, (Option.some.inj hrecord).symm⟩
      · simp at haccept

/-- `ofc_socket_impl_accept` makes no record when it fails. -/
theorem accept_none {net : NetOrder} {sock : Option OfcSocketImpl} {memory : OfcSocketImpl}
    {fd : ℤ} {mysockaddr : Sockaddr} {ip ip' : Option IPAddr} {port port' : Option UInt16}
    (haccept : ofcSocketImplAccept net sock memory fd mysockaddr ip port =
      some (none, ip', port')) :
    sock = none ∨ fd = -1 := by
  unfold ofcSocketImplAccept at haccept
  cases sock with
  | none => exact Or.inl rfl
  | some sock =>
      simp only at haccept
      split at haccept
      · obtain ⟨stored, -, heq⟩ := Option.map_eq_some_iff.mp haccept
        cases heq
      · rename_i hfailed
        exact Or.inr (not_not.mp hfailed)

/-- What each action can do, and when. -/
inductive Stepped (any : AnyAddr) (s : State) : Action → State → Prop where
  | notCreated {fresh memory family socktype fd}
      (hnone : ofcSocketImplCreate any memory family fd = none) :
      Stepped any s (.create fresh memory family socktype fd) s
  | created {fresh memory family socktype fd sock}
      (hcreate : ofcSocketImplCreate any memory family fd = some sock)
      (hfresh : s.sockets fresh = none) (hnonneg : 0 ≤ sock.socket)
      (hfree : s.kernel.serial? sock.socket = none) :
      Stepped any s (.create fresh memory family socktype fd)
        (s.adopt fresh sock { family := family, flags := oRdwr })
  | notAccepted {hSocket fresh memory fd peer mysockaddr ip port}
      (hfailed : s.sockets hSocket = none ∨ fd = -1) :
      Stepped any s (.accept hSocket fresh memory fd peer mysockaddr ip port) s
  | accepted {hSocket fresh memory fd peer mysockaddr ip port}
      (hlive : (s.sockets hSocket).isSome) (hfresh : s.sockets fresh = none) (hnonneg : 0 ≤ fd)
      (hfree : s.kernel.serial? fd = none) :
      Stepped any s (.accept hSocket fresh memory fd peer mysockaddr ip port)
        (s.adopt fresh { memory with socket := fd } peer)
  | notClosed {hSocket} (hnone : s.sockets hSocket = none) : Stepped any s (.close hSocket) s
  | closed {hSocket sock} (hsock : s.sockets hSocket = some sock) :
      Stepped any s (.close hSocket)
        ((s.closeFd sock.socket).store hSocket (some { sock with socket := -1 }))
  | notDestroyed {hSocket} (hnone : s.sockets hSocket = none) : Stepped any s (.destroy hSocket) s
  | destroyed {hSocket sock} (hsock : s.sockets hSocket = some sock) (hopen : sock.socket ≥ 0) :
      Stepped any s (.destroy hSocket) ((s.closeFd sock.socket).store hSocket none)
  /-- The descriptor has been closed before. -/
  | dropped {hSocket sock} (hsock : s.sockets hSocket = some sock) (hclosed : sock.socket < 0) :
      Stepped any s (.destroy hSocket) (s.store hSocket none)
  | enabled {hSocket type} :
      Stepped any s (.enable hSocket type) (s.store hSocket
        ((s.sockets hSocket).map fun sock => { sock with events := enableMask type }))
  | reported {hSocket revents} :
      Stepped any s (.setEvent hSocket revents) (s.store hSocket
        ((s.sockets hSocket).map fun sock => { sock with revents := revents }))
  | getEvent {hSocket} : Stepped any s (.getEvent hSocket) s
  | test {hSocket} : Stepped any s (.test hSocket) s
  | data {hSocket op} : Stepped any s (.data hSocket op) s
  | modeKept {hSocket onoff}
      (hnone : ((s.sockets hSocket).bind fun sock => s.kernel.slot sock.socket) = none) :
      Stepped any s (.noBlock hSocket onoff) s
  | modeSet {hSocket onoff sock file} (hsock : s.sockets hSocket = some sock)
      (hfile : s.kernel.slot sock.socket = some file) :
      Stepped any s (.noBlock hSocket onoff)
        (s.setFlags sock.socket (file.state.flags ||| oNonblock))
  | otherOpened {fd endpoint} (hnonneg : 0 ≤ fd) (hfree : s.kernel.serial? fd = none) :
      Stepped any s (.otherOpen fd endpoint)
        { s with kernel := s.kernel.install fd endpoint }
  | notOtherClosed {fd} (hfree : s.kernel.serial? fd = none) : Stepped any s (.otherClose fd) s
  | otherClosed {fd serial} (hopen : s.kernel.serial? fd = some serial)
      (hother : s.obtained serial = false) : Stepped any s (.otherClose fd) (s.closeFd fd)

theorem step_stepped {net : NetOrder} {any : AnyAddr} {s u : State} {a : Action}
    (hstep : step net any s a = some u) : Stepped any s a u := by
  cases a with
  | create fresh memory family socktype fd =>
      rw [step] at hstep
      split at hstep
      · rename_i henabled
        obtain ⟨hfresh, hreturned⟩ := henabled
        split at hstep
        · rename_i hnone
          cases hstep
          exact .notCreated hnone
        · rename_i sock hcreate
          cases hstep
          obtain ⟨rfl, hnonneg⟩ := create_socket hcreate
          exact .created hcreate hfresh hnonneg (hreturned.resolve_left (by omega)).2
      · cases hstep
  | accept hSocket fresh memory fd peer mysockaddr ip port =>
      rw [step] at hstep
      split at hstep
      · rename_i henabled
        obtain ⟨hfresh, hreturned⟩ := henabled
        split at hstep
        · cases hstep
        · rename_i stored haccept
          cases hstep
          exact .notAccepted (accept_none haccept)
        · rename_i sock stored haccept
          cases hstep
          obtain ⟨hlive, hfd, rfl⟩ := accept_eq haccept
          obtain ⟨hnonneg, hfree⟩ := hreturned.resolve_left hfd
          exact .accepted hlive hfresh hnonneg hfree
      · cases hstep
  | close hSocket =>
      rw [step] at hstep
      split at hstep
      · rename_i hnone
        cases hstep
        exact .notClosed hnone
      · rename_i sock hsock
        cases hstep
        exact .closed hsock
  | destroy hSocket =>
      rw [step] at hstep
      split at hstep
      · rename_i hnone
        cases hstep
        exact .notDestroyed hnone
      · rename_i sock hsock
        cases hstep
        split
        · rename_i hopen
          exact .destroyed hsock hopen
        · rename_i hclosed
          exact .dropped hsock (not_le.mp hclosed)
  | enable hSocket type =>
      cases hstep
      exact .enabled
  | setEvent hSocket revents =>
      cases hstep
      exact .reported
  | getEvent hSocket =>
      cases hstep
      exact .getEvent
  | test hSocket =>
      cases hstep
      exact .test
  | data hSocket op =>
      cases hstep
      exact .data
  | noBlock hSocket onoff =>
      rw [step] at hstep
      split at hstep
      · rename_i hnone
        cases hstep
        exact .modeKept (by rw [hnone, Option.bind_none])
      · rename_i sock hsock
        rw [State.getFlags] at hstep
        cases hfile : s.kernel.slot sock.socket with
        | none =>
            rw [hfile] at hstep
            cases hstep
            exact .modeKept (by rw [hsock, Option.bind_some, hfile])
        | some file =>
            rw [hfile] at hstep
            cases hstep
            exact .modeSet hsock hfile
  | otherOpen fd endpoint =>
      rw [step] at hstep
      split at hstep
      · rename_i henabled
        cases hstep
        exact .otherOpened henabled.1 henabled.2
      · cases hstep
  | otherClose fd =>
      rw [step] at hstep
      split at hstep
      · rename_i hfree
        cases hstep
        exact .notOtherClosed hfree
      · rename_i serial hopen
        split at hstep
        · cases hstep
        · rename_i hother
          cases hstep
          exact .otherClosed hopen (by simpa using hother)

end OfcDarwin.Socket
