import Mathlib.Data.Finset.Insert
import OfcDarwin.Socket.Address

/-!
# Poll bits and socket events

`ofc_socket_impl_enable` translates the events that the core library asks for into
poll bits, and `ofc_socket_impl_test` translates the bits that `poll` reported
back.  An `OFC_SOCKET_EVENT_TYPE` is the set of the events whose flags it has.

Both translations go by one table (`pollBits`): `enable` asks for no bit outside it
(`enableMask_within`), `test` gives every event of which some bit was reported
(`mem_testEvents`).
-/

namespace OfcDarwin.Socket

/-! ## The two alphabets -/

/-- The flags of an `OFC_SOCKET_EVENT_TYPE`. -/
inductive SocketEvent where
  | close
  | accept
  | addresschange
  | qos
  | qob
  | read
  | write
deriving DecidableEq, Repr

/-- `OFC_SOCKET_EVENT_TYPE`. -/
abbrev SocketEventType := Finset SocketEvent

/-- `POLLIN`. -/
def pollIn : UInt16 := 0x0001

/-- `POLLPRI`. -/
def pollPri : UInt16 := 0x0002

/-- `POLLOUT`. -/
def pollOut : UInt16 := 0x0004

/-- `POLLERR`. -/
def pollErr : UInt16 := 0x0008

/-- `POLLHUP`. -/
def pollHup : UInt16 := 0x0010

/-- `POLLNVAL`. -/
def pollNval : UInt16 := 0x0020

/-- `POLLRDBAND`. -/
def pollRdBand : UInt16 := 0x0080

/-- `POLLWRBAND`. -/
def pollWrBand : UInt16 := 0x0100

/-! ## The operations -/

/-- The `EventTest` of `ofc_socket_impl_enable`. -/
def enableMask (type : SocketEventType) : UInt16 :=
  let eventTest := 0
  let eventTest := if .close ∈ type then eventTest ||| pollHup else eventTest
  let eventTest := if .accept ∈ type then eventTest ||| pollIn else eventTest
  let eventTest := if .addresschange ∈ type then eventTest ||| pollErr else eventTest
  let eventTest := if .qos ∈ type then eventTest ||| pollPri else eventTest
  let eventTest := if .qob ∈ type then eventTest ||| (pollRdBand ||| pollWrBand) else eventTest
  let eventTest := if .read ∈ type then eventTest ||| pollIn else eventTest
  if .write ∈ type then eventTest ||| pollOut else eventTest

/-- `ofc_socket_impl_enable` of what the handle resolves to: its result and the
record. -/
def ofcSocketImplEnable (sock : Option OfcSocketImpl) (type : SocketEventType) :
    Bool × Option OfcSocketImpl :=
  (sock.isSome, sock.map fun record => { record with events := enableMask type })

/-- The `EventTest` of `ofc_socket_impl_test`. -/
def testEvents (revents : UInt16) : SocketEventType :=
  let eventTest : SocketEventType := ∅
  let eventTest := if revents &&& pollHup ≠ 0 then eventTest ∪ {.close} else eventTest
  let eventTest := if revents &&& pollIn ≠ 0 then eventTest ∪ {.accept, .read} else eventTest
  let eventTest := if revents &&& pollErr ≠ 0 then eventTest ∪ {.addresschange} else eventTest
  let eventTest := if revents &&& pollPri ≠ 0 then eventTest ∪ {.qos} else eventTest
  let eventTest :=
    if revents &&& (pollRdBand ||| pollWrBand) ≠ 0 then eventTest ∪ {.qob} else eventTest
  if revents &&& pollOut ≠ 0 then eventTest ∪ {.write} else eventTest

/-- `ofc_socket_impl_test` of what the handle resolves to. -/
def ofcSocketImplTest : Option OfcSocketImpl → SocketEventType
  | none => ∅
  | some sock => testEvents sock.revents

/-! ## One table for both -/

/-- The poll bits of an event. -/
def pollBits : SocketEvent → UInt16
  | .close => pollHup
  | .accept => pollIn
  | .addresschange => pollErr
  | .qos => pollPri
  | .qob => pollRdBand ||| pollWrBand
  | .read => pollIn
  | .write => pollOut

/-- The bits that stand for some event. -/
def eventBits : UInt16 :=
  pollHup ||| (pollIn ||| (pollErr ||| (pollPri ||| ((pollRdBand ||| pollWrBand) ||| pollOut))))

theorem mem_ite_union {c : Prop} [Decidable c] {event : SocketEvent}
    {eventTest more : SocketEventType} :
    event ∈ (if c then eventTest ∪ more else eventTest) ↔
      event ∈ eventTest ∨ c ∧ event ∈ more := by
  split <;> simp_all

/-- An event tests as reported exactly when one of its bits is. -/
theorem mem_testEvents {revents : UInt16} {event : SocketEvent} :
    event ∈ testEvents revents ↔ revents &&& pollBits event ≠ 0 := by
  simp only [testEvents, mem_ite_union]
  cases event <;> simp [pollBits]

/-! ## Bits within a mask -/

/-- `bits` has no bit outside `mask`. -/
def Within (bits mask : UInt16) : Prop := bits &&& ~~~mask = 0

instance (bits mask : UInt16) : Decidable (Within bits mask) :=
  inferInstanceAs (Decidable (_ = _))

theorem within_iff {bits mask : UInt16} : Within bits mask ↔ bits &&& mask = bits := by
  unfold Within
  simp only [← UInt16.toBitVec_inj, UInt16.toBitVec_and, UInt16.toBitVec_not]
  constructor
  all_goals
    intro hbits
    ext i hi
    have hbit := congrArg (·[i]) hbits
    revert hbit
    simp only [BitVec.getElem_and, BitVec.getElem_not]
    cases mask.toBitVec[i] <;> simp

theorem and_or_distrib_left (bits first second : UInt16) :
    bits &&& (first ||| second) = (bits &&& first) ||| (bits &&& second) := by
  simp only [← UInt16.toBitVec_inj, UInt16.toBitVec_and, UInt16.toBitVec_or]
  exact BitVec.and_or_distrib_left

theorem and_or_distrib_right (first second mask : UInt16) :
    (first ||| second) &&& mask = (first &&& mask) ||| (second &&& mask) := by
  simp only [← UInt16.toBitVec_inj, UInt16.toBitVec_and, UInt16.toBitVec_or]
  exact BitVec.and_or_distrib_right

theorem Within.or {first second mask : UInt16} (hfirst : Within first mask)
    (hsecond : Within second mask) : Within (first ||| second) mask := by
  rw [within_iff] at *
  rw [and_or_distrib_right, hfirst, hsecond]

theorem Within.ite_or {c : Prop} [Decidable c] {bits more mask : UInt16}
    (hbits : Within bits mask) (hmore : Within more mask) :
    Within (if c then bits ||| more else bits) mask := by
  split
  · exact hbits.or hmore
  · exact hbits

theorem Within.trans {bits inner outer : UInt16} (hbits : Within bits inner)
    (hinner : Within inner outer) : Within bits outer := by
  rw [within_iff] at *
  rw [← hbits, UInt16.and_assoc, hinner]

/-- What `enable` asks for stands for events. -/
theorem enableMask_within (type : SocketEventType) : Within (enableMask type) eventBits := by
  unfold enableMask
  refine Within.ite_or (.ite_or (.ite_or (.ite_or (.ite_or (.ite_or (.ite_or ?_ ?_) ?_) ?_) ?_) ?_)
    ?_) ?_ <;> decide

/-- The one bit of `POLLNVAL`. -/
theorem and_pollNval (bits : UInt16) : bits &&& pollNval = 0 ∨ bits &&& pollNval = pollNval := by
  have htwoPow : pollNval.toBitVec = BitVec.twoPow 16 5 := rfl
  simp only [← UInt16.toBitVec_inj, UInt16.toBitVec_and, htwoPow, BitVec.and_twoPow]
  split
  · exact Or.inr rfl
  · exact Or.inl rfl

/-- Bits that stand for no event are `POLLNVAL`. -/
theorem eq_pollNval {bits : UInt16} (hwithin : Within bits (eventBits ||| pollNval))
    (hsome : bits ≠ 0) (hnone : bits &&& eventBits = 0) : bits = pollNval := by
  rw [within_iff, and_or_distrib_left, hnone, UInt16.zero_or] at hwithin
  rcases and_pollNval bits with hzero | hnval
  · exact absurd (hwithin.symm.trans hzero) hsome
  · exact hwithin.symm.trans hnval

/-- Nothing tests as reported exactly when no bit stands for an event. -/
theorem testEvents_eq_empty {revents : UInt16} :
    testEvents revents = ∅ ↔ revents &&& eventBits = 0 := by
  rw [Finset.eq_empty_iff_forall_notMem]
  simp only [mem_testEvents, not_not]
  constructor
  · intro hnone
    have hbits : ∀ event, revents &&& pollBits event = 0 := hnone
    rw [eventBits, and_or_distrib_left, and_or_distrib_left, and_or_distrib_left,
      and_or_distrib_left, and_or_distrib_left]
    have hclose := hbits .close
    have hread := hbits .read
    have haddress := hbits .addresschange
    have hqos := hbits .qos
    have hqob := hbits .qob
    have hwrite := hbits .write
    simp only [pollBits] at hclose hread haddress hqos hqob hwrite
    rw [hclose, hread, haddress, hqos, hqob, hwrite]
    rfl
  · intro hzero event
    have hevent : Within (pollBits event) eventBits := by cases event <;> decide
    rw [within_iff, UInt16.and_comm] at hevent
    rw [← hevent, ← UInt16.and_assoc, hzero, UInt16.zero_and]

/-- A record after a sequence of enables. -/
def enableAll (sock : Option OfcSocketImpl) (types : List SocketEventType) :
    Option OfcSocketImpl :=
  types.foldl (fun sock type => (ofcSocketImplEnable sock type).2) sock

/-- A record asks for events only, once it has been enabled or if it asked for
nothing to begin with. -/
theorem enableAll_within {fresh record : OfcSocketImpl} {types : List SocketEventType}
    (hfresh : types ≠ [] ∨ fresh.events = 0)
    (hrecord : enableAll (some fresh) types = some record) : Within record.events eventBits := by
  rcases List.eq_nil_or_concat' types with rfl | ⟨before, last, rfl⟩
  · obtain rfl : fresh = record := Option.some.inj hrecord
    rw [hfresh.resolve_left (fun hne => hne rfl)]
    decide
  · rw [enableAll, List.foldl_append] at hrecord
    obtain ⟨old, -, rfl⟩ := Option.map_eq_some_iff.mp hrecord
    exact enableMask_within last

end OfcDarwin.Socket
