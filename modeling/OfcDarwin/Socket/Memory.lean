import OfcDarwin.Lib.HeapLogic
import OfcDarwin.Socket.Failures
import OfcDarwin.Socket.Table

/-!
# The sockets over the heap

`Socket/Table.lean` has a record behind each handle, and the addresses that an operation
hands to the kernel or takes from it as values.  Here both are blocks of the heap.  A
handle leads to the address of its record, whose fields are written one by one; of the
record that `ofc_socket_impl_accept` allocates only the descriptor is.  A
`struct sockaddr` is a block that the operation allocates, the kernel reads or writes,
and the operation frees.

The functions are those of the other files, line by line; `Socket/MemorySafety.lean`
compares the two.
-/

namespace OfcDarwin.Socket.Memory

open HeapLogic
open Failures (Transfer Received)

/-- A field of a record, or a `struct sockaddr`.  `u` of an `OFC_IPADDR` is one of two
cells. -/
inductive Cell where
  | fd (fd : ℤ)
  | family (family : FamilyType)
  | bits (bits : UInt16)
  | inaddr (addr : UInt32)
  | in6addr (addr : Ipv6)
  | sockaddr (mysockaddr : Sockaddr)

def Cell.fd? : Cell → Option ℤ
  | .fd value => some value
  | _ => none

def Cell.family? : Cell → Option FamilyType
  | .family value => some value
  | _ => none

def Cell.bits? : Cell → Option UInt16
  | .bits value => some value
  | _ => none

def Cell.sockaddr? : Cell → Option Sockaddr
  | .sockaddr value => some value
  | _ => none

/-! ## The fields of an `OFC_SOCKET_IMPL` -/

def atSocket : ℕ := 0

def atFamily : ℕ := 1

def atEvents : ℕ := 2

def atRevents : ℕ := 3

def atIpVersion : ℕ := 4

def atIpU : ℕ := 5

def sizeofSocketImpl : ℕ := 6

/-! ## Addresses -/

/-- `make_sockaddr`. -/
def makeSockaddr (net : NetOrder) (ip : IPAddr) (port : UInt16) : Program Cell ℕ := do
  let mysockaddr ← malloc 1
  store mysockaddr 0 (.sockaddr (Socket.makeSockaddr net ip port))
  pure mysockaddr

/-- `unmake_sockaddr`. -/
def unmakeSockaddr (net : NetOrder) (mysockaddr : ℕ) (ip : Option IPAddr)
    (port : Option UInt16) : Program Cell (Option IPAddr × Option UInt16) := do
  let storage ← load Cell.sockaddr? mysockaddr 0
  -- a store through `OFC_NULL` ends the process
  StateT.lift (Socket.unmakeSockaddr net storage ip port)

/-- A call of the kernel that stores an address if it succeeds. -/
def kernelStores (mysockaddr : ℕ) : Option Sockaddr → Program Cell Unit
  | none => pure ()
  | some storage => store mysockaddr 0 (.sockaddr storage)

/-! ## Making and releasing a record -/

/-- `IPPROTO_..`. -/
inductive Protocol where
  | tcp
  | icmp
  | icmpv6
  | udp
deriving DecidableEq, Repr

/-- The wildcard address of a new record. -/
def storeAnyAddr (any : AnyAddr) (sock : ℕ) (family : FamilyType) : Program Cell Unit :=
  if family = .ip then do
    store sock atIpVersion (.family .ip)
    store sock atIpU (.inaddr any.inaddrAny)
  else do
    store sock atIpVersion (.family .ipv6)
    store sock atIpU (.in6addr any.in6addrAny)

/-- The protocol that `socket` is called with. -/
def protocol (sock : ℕ) : SocketType → Program Cell Protocol
  | .stream => pure .tcp
  | .icmp => do
      let ipVersion ← load Cell.family? sock atIpVersion
      pure (if ipVersion = .ip then .icmp else .icmpv6)
  | .dgram => pure .udp

/-- The end of `ofc_socket_impl_create`, with what `socket` has returned in the record. -/
def keepOpened (sock : ℕ) : Program Cell (Option ℕ) := do
  let fd ← load Cell.fd? sock atSocket
  if fd < 0 then do
    free sock
    pure none
  else pure (some sock)

/-- `ofc_socket_impl_create`: the record of the new handle, if there is one.  `allocated`
is whether `ofc_malloc` returns a block. -/
def ofcSocketImplCreate (any : AnyAddr) (allocated : Bool) (family : FamilyType)
    (socktype : SocketType) (fd : ℤ) : Program Cell (Option ℕ) :=
  if allocated then do
    let sock ← malloc sizeofSocketImpl
    store sock atFamily (.family family)
    store sock atRevents (.bits 0)
    store sock atEvents (.bits 0)
    let family ← load Cell.family? sock atFamily
    storeAnyAddr any sock family
    let _ ← protocol sock socktype
    store sock atSocket (.fd fd)
    keepOpened sock
  else pure none

/-- The end of `ofc_socket_impl_accept`, with what `accept` has returned in the record. -/
def keepAccepted (net : NetOrder) (newsock mysockaddr : ℕ) (ip : Option IPAddr)
    (port : Option UInt16) : Program Cell (Option ℕ × Option IPAddr × Option UInt16) := do
  let fd ← load Cell.fd? newsock atSocket
  if fd ≠ -1 then do
    let stored ← unmakeSockaddr net mysockaddr ip port
    free mysockaddr
    pure (some newsock, stored)
  else do
    free newsock
    free mysockaddr
    pure (none, ip, port)

/-- `ofc_socket_impl_accept`: the record of the new handle, if there is one, and the two
destinations. -/
def ofcSocketImplAccept (net : NetOrder) (sock : Option ℕ) (fd : ℤ) (peer : Sockaddr)
    (ip : Option IPAddr) (port : Option UInt16) :
    Program Cell (Option ℕ × Option IPAddr × Option UInt16) :=
  match sock with
  | none => pure (none, ip, port)
  | some sock => do
      let newsock ← malloc sizeofSocketImpl
      let mysockaddr ← malloc 1
      let _ ← load Cell.fd? sock atSocket
      kernelStores mysockaddr (if fd ≠ -1 then some peer else none)
      store newsock atSocket (.fd fd)
      keepAccepted net newsock mysockaddr ip port

/-- `ofc_socket_impl_close`: the descriptor it closes. -/
def ofcSocketImplClose : Option ℕ → Program Cell (Option ℤ)
  | none => pure none
  | some sock => do
      let fd ← load Cell.fd? sock atSocket
      store sock atSocket (.fd (-1))
      pure (some fd)

/-- `ofc_socket_impl_destroy`: the descriptor it closes. -/
def ofcSocketImplDestroy : Option ℕ → Program Cell (Option ℤ)
  | none => pure none
  | some sock => do
      let fd ← load Cell.fd? sock atSocket
      free sock
      pure (if fd ≥ 0 then some fd else none)

/-! ## Events -/

/-- `ofc_socket_impl_enable`. -/
def ofcSocketImplEnable (sock : Option ℕ) (type : SocketEventType) : Program Cell Bool :=
  match sock with
  | none => pure false
  | some sock => do
      store sock atEvents (.bits (enableMask type))
      pure true

/-- `ofc_socket_impl_set_event`. -/
def ofcSocketImplSetEvent (sock : Option ℕ) (revents : UInt16) : Program Cell Unit :=
  match sock with
  | none => pure ()
  | some sock => store sock atRevents (.bits revents)

/-- `ofc_socket_impl_get_event`. -/
def ofcSocketImplGetEvent : Option ℕ → Program Cell UInt16
  | none => pure 0
  | some sock => load Cell.bits? sock atEvents

/-- `ofc_socket_impl_get_fd`. -/
def ofcSocketImplGetFd : Option ℕ → Program Cell ℤ
  | none => pure (-1)
  | some sock => load Cell.fd? sock atSocket

/-- `ofc_socket_impl_test`, which reads `revents` for each of its bits. -/
def ofcSocketImplTest : Option ℕ → Program Cell SocketEventType
  | none => pure ∅
  | some sock => do
      let revents ← load Cell.bits? sock atRevents
      pure (testEvents revents)

/-! ## Calls of the kernel -/

/-- The operations that hand the descriptor to the kernel and nothing of the heap else:
the descriptor. -/
def descriptor : Option ℕ → Program Cell (Option ℤ)
  | none => pure none
  | some sock => do
      let fd ← load Cell.fd? sock atSocket
      pure (some fd)

/-- The call of an operation that makes an address for it. -/
def present (net : NetOrder) (sock : ℕ) (ip : IPAddr) (port : UInt16) :
    Program Cell (ℕ × Presented) := do
  let mysockaddr ← makeSockaddr net ip port
  let fd ← load Cell.fd? sock atSocket
  let storage ← load Cell.sockaddr? mysockaddr 0
  pure (mysockaddr, { socket := fd, mysockaddr := storage })

/-- The lines for the log when `bind` fails, as far as they read the address. -/
def reportBind (mysockaddr : ℕ) (status : ℤ) : Program Cell Unit :=
  if status = 0 then pure ()
  else do
    let _ ← load Cell.sockaddr? mysockaddr 0
    pure ()

/-- `ofc_socket_impl_bind`: its result, and the address it hands to `bind`. -/
def ofcSocketImplBind (net : NetOrder) (sock : Option ℕ) (status : ℤ) (ip : IPAddr)
    (port : UInt16) : Program Cell (Bool × Option Presented) :=
  match sock with
  | none => pure (false, none)
  | some sock => do
      let (mysockaddr, call) ← present net sock ip port
      reportBind mysockaddr status
      free mysockaddr
      pure (decide (status = 0), some call)

/-- `ofc_socket_impl_connect`. -/
def ofcSocketImplConnect (net : NetOrder) (sock : Option ℕ) (status : ℤ) (einprogress : Bool)
    (ip : IPAddr) (port : UInt16) : Program Cell (Bool × Option Presented) :=
  match sock with
  | none => pure (false, none)
  | some sock => do
      let (mysockaddr, call) ← present net sock ip port
      free mysockaddr
      pure (decide ((status ≠ 0 ∧ einprogress) ∨ status = 0), some call)

/-- One half of `ofc_socket_impl_get_addresses`: a destination after the address in the
block has been stored in it. -/
def storeSockaddr (net : NetOrder) (mysockaddr : ℕ) (old : OfcSockaddr) :
    Program Cell OfcSockaddr := do
  let storage ← load Cell.sockaddr? mysockaddr 0
  pure (old.store net storage)

/-- The second half: `getpeername`, and the remote destination. -/
def getRemote (net : NetOrder) (remote_sockaddr : ℕ) (getpeername : Option Sockaddr)
    (remoteAddr : OfcSockaddr) : Program Cell (Bool × OfcSockaddr) :=
  match getpeername with
  | none => pure (false, remoteAddr)
  | some _ => do
      kernelStores remote_sockaddr getpeername
      let remoteAddr ← storeSockaddr net remote_sockaddr remoteAddr
      pure (true, remoteAddr)

/-- What `ofc_socket_impl_get_addresses` does once `getsockname` has been called. -/
def getAddresses (net : NetOrder) (sock local_sockaddr : ℕ)
    (getsockname getpeername : Option Sockaddr) (localAddr remoteAddr : OfcSockaddr) :
    Program Cell (Bool × OfcSockaddr × OfcSockaddr) :=
  match getsockname with
  | none => pure (false, localAddr, remoteAddr)
  | some _ => do
      let localAddr ← storeSockaddr net local_sockaddr localAddr
      let remote_sockaddr ← malloc 1
      let _ ← load Cell.fd? sock atSocket
      let (ok, remoteAddr) ← getRemote net remote_sockaddr getpeername remoteAddr
      free remote_sockaddr
      pure (ok, localAddr, remoteAddr)

/-- `ofc_socket_impl_get_addresses`. -/
def ofcSocketImplGetAddresses (net : NetOrder) (sock : Option ℕ)
    (getsockname getpeername : Option Sockaddr) (localAddr remoteAddr : OfcSockaddr) :
    Program Cell (Bool × OfcSockaddr × OfcSockaddr) :=
  match sock with
  | none => pure (false, localAddr, remoteAddr)
  | some sock => do
      let local_sockaddr ← malloc 1
      let _ ← load Cell.fd? sock atSocket
      kernelStores local_sockaddr getsockname
      let addresses ← getAddresses net sock local_sockaddr getsockname getpeername localAddr
        remoteAddr
      free local_sockaddr
      pure addresses

/-- The result of `ofc_socket_impl_sendto`.  The report of a failure asks for the
addresses of the socket. -/
def sendtoResult (net : NetOrder) (sock : ℕ) (status : UInt64) (eagain : Bool)
    (getsockname getpeername : Option Sockaddr) (unset : OfcSockaddr) : Program Cell UInt64 :=
  if status = minusOne ∧ eagain then pure 0
  -- always true, as an `OFC_SIZET` has no sign
  else if status ≥ 0 then pure status
  else do
    let _ ← ofcSocketImplGetAddresses net (some sock) getsockname getpeername unset unset
    pure minusOne

/-- `ofc_socket_impl_sendto`. -/
def ofcSocketImplSendto (net : NetOrder) (sock : Option ℕ) (status : UInt64) (eagain : Bool)
    (ip : IPAddr) (port : UInt16) (getsockname getpeername : Option Sockaddr)
    (unset : OfcSockaddr) : Program Cell (UInt64 × Option Presented) :=
  match sock with
  | none => pure (minusOne, none)
  | some sock => do
      let (mysockaddr, call) ← present net sock ip port
      let ret ← sendtoResult net sock status eagain getsockname getpeername unset
      free mysockaddr
      pure (ret, some call)

/-- The result of `ofc_socket_impl_recv_from`, and the stores through its destinations. -/
def recvFromResult (net : NetOrder) (mysockaddr : ℕ) (recvfrom : Transfer) (errno : ℤ) :
    Program Cell Received :=
  if recvfrom.status = minusOne ∧ recvfrom.errno errno = Failures.eagain then
    pure { ret := 0, stores := [] }
  -- always true, as an `OFC_SIZET` has no sign
  else if recvfrom.status ≥ 0 then do
    let storage ← load Cell.sockaddr? mysockaddr 0
    pure { ret := recvfrom.status, stores := Failures.unmakeSockaddr net storage }
  else pure { ret := minusOne, stores := [] }

/-- `ofc_socket_impl_recv_from`. -/
def ofcSocketImplRecvFrom (net : NetOrder) (sock : Option ℕ) (recvfrom : Transfer)
    (peer : Sockaddr) (errno : ℤ) : Program Cell Received :=
  match sock with
  | none => pure { ret := minusOne, stores := [] }
  | some sock => do
      let mysockaddr ← malloc 1
      store mysockaddr 0 (.sockaddr .unspec)
      let _ ← load Cell.fd? sock atSocket
      store mysockaddr 0 (.sockaddr (recvfrom.storage peer))
      let received ← recvFromResult net mysockaddr recvfrom errno
      free mysockaddr
      pure received

/-! ## Operations one after the other -/

/-- The arguments of an operation and what the kernel answers it, as far as its action
leaves them open. -/
structure Answer where
  ip : IPAddr
  port : UInt16
  status : ℤ
  einprogress : Bool
  transfer : Transfer
  errno : ℤ
  /-- The address that `recvfrom` stores, and those of the two ends of the socket. -/
  sender : Sockaddr
  own : Sockaddr
  getpeername : Option Sockaddr
  /-- The destinations of `ofc_socket_impl_get_addresses` before it, and those of
  `ofc_socket_impl_sendto`. -/
  localAddr : OfcSockaddr
  remoteAddr : OfcSockaddr
  unset : OfcSockaddr

/-- What an operation returns, hands to the kernel and stores through its destinations. -/
inductive Output where
  | none
  | handle (created : Bool)
  | accepted (created : Bool) (ip : Option IPAddr) (port : Option UInt16)
  | enabled (ok : Bool)
  | pollBits (bits : UInt16)
  | socketEvents (type : SocketEventType)
  | called (fd : Option ℤ)
  | fd (fd : ℤ)
  | presented (ok : Bool) (call : Option Presented)
  | sent (ret : UInt64) (call : Option Presented)
  | received (received : Received)
  | addresses (ok : Bool) (localAddr remoteAddr : OfcSockaddr)

/-- The record behind each handle. -/
abbrev Handles := Handle → Option ℕ

/-- An operation that leaves the record as it is. -/
def data (net : NetOrder) (sock : Option ℕ) (answer : Answer) : DataOp → Program Cell Output
  | .bind => do
      let (ok, call) ← ofcSocketImplBind net sock answer.status answer.ip answer.port
      pure (.presented ok call)
  | .connect => do
      let (ok, call) ← ofcSocketImplConnect net sock answer.status answer.einprogress answer.ip
        answer.port
      pure (.presented ok call)
  | .sendto => do
      let (ret, call) ← ofcSocketImplSendto net sock answer.transfer.status
        (answer.transfer.errno answer.errno = Failures.eagain) answer.ip answer.port
        (some answer.own) answer.getpeername answer.unset
      pure (.sent ret call)
  | .recvFrom => do
      let received ← ofcSocketImplRecvFrom net sock answer.transfer answer.sender answer.errno
      pure (.received received)
  | .getAddresses getsockname => do
      let (ok, localAddr, remoteAddr) ← ofcSocketImplGetAddresses net sock
        (if getsockname then some answer.own else .none) answer.getpeername answer.localAddr
        answer.remoteAddr
      pure (.addresses ok localAddr remoteAddr)
  | .poll => do
      let fd ← ofcSocketImplGetFd sock
      pure (.fd fd)
  | .listen | .reuseAddr | .connected | .send | .recv | .setSendSize | .setRecvSize => do
      let fd ← descriptor sock
      pure (.called fd)

/-- The handle of a new record, if there is one. -/
def Handles.adopt (handles : Handles) (fresh : Handle) : Option ℕ → Handles
  | none => handles
  | some sock => Function.update handles fresh (some sock)

/-- One operation. -/
def exec (net : NetOrder) (any : AnyAddr) (answer : Answer) (handles : Handles) :
    Action → Program Cell (Output × Handles)
  | .create fresh memory family socktype fd => do
      let sock ← ofcSocketImplCreate any memory.isSome family socktype fd
      pure (.handle sock.isSome, handles.adopt fresh sock)
  | .accept hSocket fresh _ fd _ mysockaddr ip port => do
      let (sock, ip, port) ← ofcSocketImplAccept net (handles hSocket) fd mysockaddr ip port
      pure (.accepted sock.isSome ip port, handles.adopt fresh sock)
  | .close hSocket => do
      let fd ← ofcSocketImplClose (handles hSocket)
      pure (.called fd, handles)
  | .destroy hSocket => do
      let fd ← ofcSocketImplDestroy (handles hSocket)
      pure (.called fd, Function.update handles hSocket .none)
  | .enable hSocket type => do
      let ok ← ofcSocketImplEnable (handles hSocket) type
      pure (.enabled ok, handles)
  | .setEvent hSocket revents => do
      ofcSocketImplSetEvent (handles hSocket) revents
      pure (.none, handles)
  | .getEvent hSocket => do
      let bits ← ofcSocketImplGetEvent (handles hSocket)
      pure (.pollBits bits, handles)
  | .test hSocket => do
      let type ← ofcSocketImplTest (handles hSocket)
      pure (.socketEvents type, handles)
  | .noBlock hSocket _ => do
      let fd ← descriptor (handles hSocket)
      pure (.called fd, handles)
  | .data hSocket op => do
      let output ← data net (handles hSocket) answer op
      pure (output, handles)
  | .otherOpen _ _ | .otherClose _ => pure (.none, handles)

/-- The operations of a run. -/
def execAll (net : NetOrder) (any : AnyAddr) :
    List (Action × Answer) → Handles → Program Cell (List Output × Handles)
  | [], handles => pure ([], handles)
  | (a, answer) :: rest, handles => do
      let (output, handles) ← exec net any answer handles a
      let (outputs, handles) ← execAll net any rest handles
      pure (output :: outputs, handles)

end OfcDarwin.Socket.Memory
