import Mathlib.Data.List.FinRange
import OfcDarwin.Socket.Address

/-!
# Transfers that fail

The kernel answers a transfer with a signed count, which is `-1` for a failure.  The
socket operations keep it in an `OFC_SIZET`, which has no sign, test it for `-1` together
with `EAGAIN`, and then for `>= 0`.  The second test never fails.  So every failure other
than `EAGAIN` goes the way of a success: `recv_from` decodes an address that the kernel
has not written, and `sendto` reports nothing.

The two functions stand here once more, with what `Socket/Address.lean` leaves out: each
store through `ip` and `port`, and the lines for the log (`recvFrom_eq`, `sendto_eq`).
-/

namespace OfcDarwin.Socket.Failures

/-! ## The kernel -/

/-- What a transfer comes to. -/
inductive Transfer where
  /-- So many bytes have been transferred. -/
  | done (n : ℕ) (hn : n < 2 ^ 63)
  /-- `-1`, with this `errno`. -/
  | failed (errno : ℤ)

/-- `EAGAIN`. -/
def eagain : ℤ := 35

namespace Transfer

/-- What the call returns, a `ssize_t`. -/
def result : Transfer → Int64
  | done n _ => Int64.ofNat n
  | failed _ => -1

/-- `errno` after the call; a success leaves the old one. -/
def errno (old : ℤ) : Transfer → ℤ
  | done _ _ => old
  | failed errno => errno

/-- The result in an `OFC_SIZET`. -/
def status (transfer : Transfer) : UInt64 := transfer.result.toUInt64

/-- The cleared storage for an address as `recvfrom` leaves it, when the datagram is from
`peer`. -/
def storage (peer : Sockaddr) : Transfer → Sockaddr
  | done _ _ => peer
  | failed _ => .unspec

/-- A failure other than `EAGAIN`. -/
def Fails (transfer : Transfer) : Prop := ∃ errno, errno ≠ eagain ∧ transfer = failed errno

theorem status_done_ne {n : ℕ} (hn : n < 2 ^ 63) : (done n hn).status ≠ minusOne := by
  intro hstatus
  have hcount : n % 2 ^ 64 = 2 ^ 64 - 1 := congrArg UInt64.toNat hstatus
  omega

end Transfer

/-! ## Stores through `ip` and `port` -/

/-- The two destinations, `*ip` and `*port`. -/
structure Sender where
  ip : IPAddr
  port : UInt16
deriving DecidableEq

/-- A store of `unmake_sockaddr`. -/
inductive SenderStore where
  | ipVersion (version : FamilyType)
  | ipv4 (addr : UInt32)
  | s6Addr (i : Fin 16) (byte : UInt8)
  | port (port : UInt16)
deriving DecidableEq, Repr

def Sender.store (sender : Sender) : SenderStore → Sender
  | .ipVersion version => { sender with ip := { sender.ip with ipVersion := version } }
  | .ipv4 addr => { sender with ip := { sender.ip with ipv4 := addr } }
  | .s6Addr i byte =>
      { sender with
        ip := { sender.ip with
          ipv6 := { sender.ip.ipv6 with s6Addr := sender.ip.ipv6.s6Addr.set i byte } } }
  | .port port => { sender with port := port }

/-- The IPv6 branch of `unmake_sockaddr`. -/
def unmakeSockaddrIn6 (net : NetOrder) (bytes : Vector UInt8 16) (portBytes : PortBytes) :
    List SenderStore :=
  .ipVersion .ipv6 :: (List.finRange 16).map (fun i => .s6Addr i bytes[i]) ++
    [.port (net.ntos portBytes)]

/-- `unmake_sockaddr`: the stores it makes, in order. -/
def unmakeSockaddr (net : NetOrder) : Sockaddr → List SenderStore
  | .inet sin =>
      [.ipVersion .ip, .port (net.ntos sin.sinPort), .ipv4 (net.ntol sin.sinAddr)]
  | .inet6 sin6 => unmakeSockaddrIn6 net sin6.sin6Addr sin6.sin6Port
  -- any family but `AF_INET` takes the IPv6 branch, here over cleared bytes
  | .unspec => unmakeSockaddrIn6 net (Vector.replicate 16 0) (0, 0)

/-- Storing every element replaces a vector. -/
theorem foldl_set_finRange {α : Type*} {n : ℕ} (elements old : Vector α n) :
    (List.finRange n).foldl (fun v i => v.set i elements[i]) old = elements := by
  have hfold : ∀ (indices : List (Fin n)) (v : Vector α n) (j : Fin n),
      (indices.foldl (fun v i => v.set i elements[i]) v)[j] =
        if j ∈ indices then elements[j] else v[j] := by
    intro indices
    induction indices with
    | nil => intro v j; rfl
    | cons i rest ih =>
        intro v j
        rw [List.foldl_cons, ih]
        by_cases hrest : j ∈ rest
        · rw [if_pos hrest, if_pos (List.mem_cons_of_mem i hrest)]
        · rw [if_neg hrest]
          by_cases hsame : j = i
          · rw [if_pos (hsame ▸ List.mem_cons_self), hsame]
            exact Vector.getElem_set_self i.isLt
          · have hother : (i : ℕ) ≠ j := fun heq => hsame (Fin.ext heq.symm)
            rw [if_neg (by simp [hsame, hrest])]
            exact Vector.getElem_set_ne i.isLt j.isLt hother
  apply Vector.ext
  intro j hj
  exact (hfold (List.finRange n) old ⟨j, hj⟩).trans (if_pos (List.mem_finRange _))

theorem foldl_s6Addr (bytes : Vector UInt8 16) (indices : List (Fin 16)) (sender : Sender) :
    (indices.map fun i => SenderStore.s6Addr i bytes[i]).foldl Sender.store sender =
      { sender with
        ip := { sender.ip with
          ipv6 := { sender.ip.ipv6 with
            s6Addr := indices.foldl (fun v (i : Fin 16) => v.set i bytes[i])
              sender.ip.ipv6.s6Addr } } } := by
  induction indices generalizing sender with
  | nil => rfl
  | cons i rest ih =>
      rw [List.map_cons, List.foldl_cons, ih]
      rfl

theorem foldl_unmakeSockaddrIn6 (net : NetOrder) (bytes : Vector UInt8 16) (portBytes : PortBytes)
    (before : Sender) :
    (unmakeSockaddrIn6 net bytes portBytes).foldl Sender.store before =
      { ip := { before.ip with
          ipVersion := .ipv6, ipv6 := { before.ip.ipv6 with s6Addr := bytes } }
        port := net.ntos portBytes } := by
  rw [unmakeSockaddrIn6, List.cons_append, List.foldl_cons, List.foldl_append, foldl_s6Addr,
    foldl_set_finRange]
  rfl

/-- The stores are those of the function of `Socket/Address.lean`. -/
theorem unmakeSockaddr_eq (net : NetOrder) (mysockaddr : Sockaddr) (before : Sender) :
    let after := (unmakeSockaddr net mysockaddr).foldl Sender.store before
    Socket.unmakeSockaddr net mysockaddr (some before.ip) (some before.port) =
      some (some after.ip, some after.port) := by
  cases mysockaddr with
  | inet sin => rfl
  | inet6 sin6 =>
      rw [unmakeSockaddr, foldl_unmakeSockaddrIn6]
      rfl
  | unspec =>
      rw [unmakeSockaddr, foldl_unmakeSockaddrIn6]
      rfl

/-! ## Receiving -/

/-- The outcome of `ofc_socket_impl_recv_from`. -/
structure Received where
  ret : UInt64
  stores : List SenderStore
deriving DecidableEq

/-- The destinations after the call. -/
def Received.sender (received : Received) (before : Sender) : Sender :=
  received.stores.foldl Sender.store before

/-- `ofc_socket_impl_recv_from`, with destinations that are not `OFC_NULL`. -/
def ofcSocketImplRecvFrom (net : NetOrder) (sock : Option OfcSocketImpl) (recvfrom : Transfer)
    (peer : Sockaddr) (errno : ℤ) : Received :=
  match sock with
  | none => { ret := minusOne, stores := [] }
  | some _ =>
      let status := recvfrom.status
      if status = minusOne ∧ recvfrom.errno errno = eagain then { ret := 0, stores := [] }
      -- always true, as an `OFC_SIZET` has no sign
      else if status ≥ 0 then
        { ret := status, stores := unmakeSockaddr net (recvfrom.storage peer) }
      else { ret := minusOne, stores := [] }

/-! ## Sending -/

/-- An argument of `ofc_log`. -/
inductive LogArg where
  | text (text : String)
  | size (size : UInt64)
  | int (int : ℤ)
deriving DecidableEq, Repr

/-- A call `ofc_log(OFC_LOG_WARN, format, ..)`. -/
structure LogCall where
  format : String
  args : List LogArg
deriving DecidableEq, Repr

/-- What the error report of `ofc_socket_impl_sendto` uses: `strerror_r` and `ofc_ntop`,
what the kernel says of the two ends of the socket, the destinations `local` and
`remote` before they are set, and `errno` once the kernel has been asked. -/
structure Surroundings where
  strerror : ℤ → String
  ofcNtop : IPAddr → String
  getsockname : Option Sockaddr
  getpeername : Option Sockaddr
  unset : OfcSockaddr
  laterErrno : ℤ

/-- The error-reporting branch of `ofc_socket_impl_sendto`. -/
def reportSendto (env : Surroundings) (net : NetOrder) (sock : OfcSocketImpl) (status len : UInt64)
    (errno : ℤ) (ip : IPAddr) : List LogCall :=
  let addresses := ofcSocketImplGetAddresses net (some sock) env.getsockname env.getpeername
    env.unset env.unset
  [{ format := "Sendto Error: %.80s\n"
     args := [.text (env.strerror errno)] },
   { format := "  status: %d\n  len: %d\n  errno: %d\n  local ip: %s\n  remote ip: %s\n"
     args := [.size status, .size len, .int env.laterErrno,
       .text (env.ofcNtop addresses.2.1.sinAddr), .text (env.ofcNtop ip)] }]

/-- The outcome of `ofc_socket_impl_sendto`: its result, the address it hands to
`sendto`, and what it logs. -/
structure Sent where
  ret : UInt64
  call : Option Presented
  log : List LogCall
deriving DecidableEq

/-- `ofc_socket_impl_sendto`. -/
def ofcSocketImplSendto (env : Surroundings) (net : NetOrder) (sock : Option OfcSocketImpl)
    (sendto : Transfer) (errno : ℤ) (len : UInt64) (ip : IPAddr) (port : UInt16) : Sent :=
  match sock with
  | none => { ret := minusOne, call := none, log := [] }
  | some sock =>
      let call : Presented := { socket := sock.socket, mysockaddr := makeSockaddr net ip port }
      let status := sendto.status
      if status = minusOne ∧ sendto.errno errno = eagain then
        { ret := 0, call := some call, log := [] }
      else if status ≥ 0 then { ret := status, call := some call, log := [] }
      else
        { ret := minusOne
          call := some call
          log := reportSendto env net sock status len (sendto.errno errno) ip }

/-! ## The functions of `Socket/Address.lean` -/

variable {net : NetOrder}

theorem recvFrom_eq (sock : Option OfcSocketImpl) (recvfrom : Transfer) (peer : Sockaddr)
    (errno : ℤ) (before : Sender) :
    let received := ofcSocketImplRecvFrom net sock recvfrom peer errno
    Socket.ofcSocketImplRecvFrom net sock recvfrom.status (recvfrom.errno errno = eagain)
        (recvfrom.storage peer) (some before.ip) (some before.port) =
      some (received.ret, some (received.sender before).ip,
        some (received.sender before).port) := by
  unfold ofcSocketImplRecvFrom Socket.ofcSocketImplRecvFrom
  cases sock with
  | none => rfl
  | some sock =>
      simp only [decide_eq_true_eq]
      split
      · rfl
      · rw [if_pos UInt64.zero_le, if_pos UInt64.zero_le, unmakeSockaddr_eq]
        rfl

theorem sendto_eq (env : Surroundings) (sock : Option OfcSocketImpl) (sendto : Transfer)
    (errno : ℤ) (len : UInt64) (ip : IPAddr) (port : UInt16) :
    let sent := ofcSocketImplSendto env net sock sendto errno len ip port
    (sent.ret, sent.call) =
      Socket.ofcSocketImplSendto net sock sendto.status (sendto.errno errno = eagain) ip port := by
  unfold ofcSocketImplSendto Socket.ofcSocketImplSendto
  cases sock with
  | none => rfl
  | some sock =>
      simp only [decide_eq_true_eq]
      split
      · rfl
      · rw [if_pos UInt64.zero_le, if_pos UInt64.zero_le]

/-! ## What each outcome leads to -/

theorem recvFrom_done {n : ℕ} (hn : n < 2 ^ 63) (sock : OfcSocketImpl) (peer : Sockaddr)
    (errno : ℤ) :
    ofcSocketImplRecvFrom net (some sock) (.done n hn) peer errno =
      { ret := UInt64.ofNat n, stores := unmakeSockaddr net peer } := by
  simp only [ofcSocketImplRecvFrom, Transfer.status_done_ne hn, false_and, if_false]
  exact if_pos UInt64.zero_le

theorem recvFrom_eagain (sock : OfcSocketImpl) (peer : Sockaddr) (errno : ℤ) :
    ofcSocketImplRecvFrom net (some sock) (.failed eagain) peer errno =
      { ret := 0, stores := [] } :=
  rfl

/-- Any other failure is returned as such, but first the storage, which is still cleared,
is decoded as an IPv6 address. -/
theorem recvFrom_failed {error : ℤ} (herror : error ≠ eagain) (sock : OfcSocketImpl)
    (peer : Sockaddr) (errno : ℤ) :
    ofcSocketImplRecvFrom net (some sock) (.failed error) peer errno =
      { ret := minusOne
        stores := unmakeSockaddrIn6 net (Vector.replicate 16 0) (0, 0) } := by
  simp only [ofcSocketImplRecvFrom, Transfer.errno, herror, and_false, if_false]
  exact if_pos UInt64.zero_le

/-- `sendto` never takes its error-reporting branch. -/
theorem sendto_log (env : Surroundings) (sock : Option OfcSocketImpl) (sendto : Transfer)
    (errno : ℤ) (len : UInt64) (ip : IPAddr) (port : UInt16) :
    (ofcSocketImplSendto env net sock sendto errno len ip port).log = [] := by
  unfold ofcSocketImplSendto
  cases sock with
  | none => rfl
  | some sock =>
      simp only
      rw [if_pos (UInt64.zero_le (a := sendto.status))]
      split <;> rfl

/-! ## The exact condition -/

/-- `recv_from` stores only for a datagram, returns 0 for `EAGAIN` and `-1` for any other
failure, and leaves `*ip` and `*port` as they were in both cases. -/
structure LeavesSender (net : NetOrder) (sock : OfcSocketImpl) (recvfrom : Transfer)
    (peer : Sockaddr) (errno : ℤ) (before : Sender) : Prop where
  stores : (ofcSocketImplRecvFrom net (some sock) recvfrom peer errno).stores ≠ [] →
    ∃ n hn, recvfrom = .done n hn
  again : recvfrom = .failed eagain →
    (ofcSocketImplRecvFrom net (some sock) recvfrom peer errno).ret = 0 ∧
      (ofcSocketImplRecvFrom net (some sock) recvfrom peer errno).sender before = before
  failed : recvfrom.Fails →
    (ofcSocketImplRecvFrom net (some sock) recvfrom peer errno).ret = minusOne ∧
      (ofcSocketImplRecvFrom net (some sock) recvfrom peer errno).sender before = before

/-- `sendto` takes its error-reporting branch, which logs, for the failures other than
`EAGAIN` and for nothing else. -/
def ReportsFailure (env : Surroundings) (net : NetOrder) (sock : OfcSocketImpl) (sendto : Transfer)
    (errno : ℤ) (len : UInt64) (ip : IPAddr) (port : UInt16) : Prop :=
  (ofcSocketImplSendto env net (some sock) sendto errno len ip port).log ≠ [] ↔ sendto.Fails

theorem unmakeSockaddrIn6_ne_nil (bytes : Vector UInt8 16) (portBytes : PortBytes) :
    unmakeSockaddrIn6 net bytes portBytes ≠ [] :=
  List.cons_ne_nil _ _

/-- A transfer that fails, other than with `EAGAIN`, is handled as it should be by neither
function; any other is by both. -/
theorem failures_iff (net : NetOrder) (sock : OfcSocketImpl) (transfer : Transfer) (errno : ℤ) :
    (∀ peer before,
      LeavesSender net sock transfer peer errno before ↔ ¬ transfer.Fails) ∧
    ∀ env len ip port,
      ReportsFailure env net sock transfer errno len ip port ↔ ¬ transfer.Fails := by
  constructor
  · intro peer before
    constructor
    · rintro ⟨hstores, -, -⟩ ⟨error, herror, rfl⟩
      obtain ⟨n, hn, hdone⟩ := hstores (by
        rw [recvFrom_failed herror]
        exact unmakeSockaddrIn6_ne_nil _ _)
      cases hdone
    · intro hkept
      refine ⟨fun hstores => ?_, fun hagain => ?_, fun hfails => absurd hfails hkept⟩
      · cases transfer with
        | done n hn => exact ⟨n, hn, rfl⟩
        | failed error =>
            obtain rfl : error = eagain := by
              by_contra herror
              exact hkept ⟨error, herror, rfl⟩
            exact absurd rfl hstores
      · rw [hagain, recvFrom_eagain]
        exact ⟨rfl, rfl⟩
  · intro env len ip port
    rw [ReportsFailure, sendto_log]
    simp

/-- A receive that is refused (`ECONNREFUSED`) returns `-1` but replaces the sender by the
IPv6 address of zeros and port 0; a datagram that has no route (`EHOSTUNREACH`) is lost
without a word. -/
theorem refused_replaces_sender :
    let sock : OfcSocketImpl :=
      { socket := 5, family := .ip, events := 1, revents := 0,
        ip := { ipVersion := .ip, ipv4 := 0,
                ipv6 := { s6Addr := Vector.replicate 16 0, scope := 0 } } }
    let before : Sender :=
      { ip := { ipVersion := .ip, ipv4 := 167772161,
                ipv6 := { s6Addr := Vector.replicate 16 0, scope := 0 } }
        port := 445 }
    let received := ofcSocketImplRecvFrom NetOrder.bigEndian (some sock) (.failed 61) .unspec 0
    received.ret = minusOne ∧
      received.sender before = { ip := { before.ip with ipVersion := .ipv6 }, port := 0 } ∧
      ¬ LeavesSender NetOrder.bigEndian sock (.failed 61) .unspec 0 before ∧
      ∀ env, (ofcSocketImplSendto env NetOrder.bigEndian (some sock) (.failed 65) 0 12 before.ip
          before.port).log = [] ∧
        ¬ ReportsFailure env NetOrder.bigEndian sock (.failed 65) 0 12 before.ip before.port := by
  intro sock before received
  have hsender : received.sender before =
      { ip := { before.ip with ipVersion := .ipv6 }, port := 0 } := by decide
  refine ⟨rfl, hsender, ?_, fun env => ⟨sendto_log .., fun hreports => ?_⟩⟩
  · rintro ⟨-, -, hfailed⟩
    have hkept := (hfailed ⟨61, by decide, rfl⟩).2
    rw [hsender] at hkept
    exact absurd (congrArg Sender.port hkept) (by decide)
  · exact hreports.mpr ⟨65, by decide, rfl⟩ (sendto_log ..)

end OfcDarwin.Socket.Failures
