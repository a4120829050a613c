import OfcDarwin.Socket.Events
import OfcDarwin.Waitset.Soundness

/-!
# What a reported socket tests as

The mask of a socket goes from `enable` through the poll list to `poll`, and the
answer through `ofc_socket_impl_set_event` to `ofc_socket_impl_test`.
`returned_socket` follows it: the record of a returned socket holds the bits of its
own poll entry, so it tests as the events of these bits.

`POLLNVAL`, which `poll` reports unasked, is no event's bit.  `reported_iff` says
that a returned socket tests as empty in that case, and in no other unless its record
has been destroyed or asks for bits that `enable` never gave it.
-/

namespace OfcDarwin.Waitset

open OfcDarwin.Socket

/-- What POSIX lets `poll` store in the entries of a poll list: requested events,
and the three that it reports unasked; nothing for a negative descriptor. -/
def PosixAnswer (entries : List PollFd) (answer : PollAnswer) : Prop :=
  ∀ (index : ℕ) (entry : PollFd), entries[index]? = some entry →
    Within (answer.revents index) (entry.events ||| (pollErr ||| (pollHup ||| pollNval))) ∧
      (entry.fd < 0 → answer.revents index = 0)

/-- The poll entry that the wait goes by is the first one with an answer. -/
def FirstReported (answer : PollAnswer) (revents : UInt16) : Prop :=
  ∃ index, answer.revents index = revents ∧ revents ≠ 0 ∧
    ∀ earlier < index, answer.revents earlier = 0

theorem FirstReported.unique {answer : PollAnswer} {first second : UInt16}
    (hfirst : FirstReported answer first) (hsecond : FirstReported answer second) :
    first = second := by
  obtain ⟨i, rfl, hi, hbefore⟩ := hfirst
  obtain ⟨j, rfl, hj, hbefore'⟩ := hsecond
  rcases lt_trichotomy i j with hlt | rfl | hgt
  · exact absurd (hbefore' i hlt) hi
  · rfl
  · exact absurd (hbefore j hgt) hj

/-- A socket has something to report: it tests as some event, as every enabled
event with a reported bit, and as no event without one. -/
structure Reports (tested enabled : SocketEventType) (revents : UInt16) : Prop where
  something : tested ≠ ∅
  complete : ∀ event ∈ enabled, revents &&& pollBits event ≠ 0 → event ∈ tested
  sound : ∀ event ∈ tested, revents &&& pollBits event ≠ 0

/-- What is reported is exact, so it is only a question whether there is any. -/
theorem reports_iff {enabled : SocketEventType} {revents : UInt16} :
    Reports (testEvents revents) enabled revents ↔ revents &&& eventBits ≠ 0 := by
  constructor
  · rintro ⟨hsome, -, -⟩
    exact fun hzero => hsome (testEvents_eq_empty.mpr hzero)
  · intro hbits
    exact ⟨fun hempty => hbits (testEvents_eq_empty.mp hempty),
      fun _ _ hreported => mem_testEvents.mpr hreported, fun _ htested => mem_testEvents.mp htested⟩

variable {core : Core} {waitSet : WaitSet} {w : World} {answer : PollAnswer} {h : Handle}

/-- What the scan puts in the poll list for a socket. -/
theorem inspect_socket (htype : core.handleGetType h = .socket) :
    inspect core w h = .descriptor
      { fd := ofcSocketImplGetFd (w.socket (core.socketGetImpl h))
        events := ofcSocketImplGetEvent (w.socket (core.socketGetImpl h))
        revents := 0 } := by
  unfold inspect
  simp only [htype]

/-- A wait that returns a socket polled with its entry, and leaves in its record the
bits that were reported for it. -/
theorem returned_socket (htype : core.handleGetType h = .socket) (hpresent : h ≠ handleNull)
    {wait : Wait} (houtcome : Outcome core waitSet w answer wait)
    (hreturned : wait.triggeredEvent = h) :
    ∃ (entries : List PollFd) (timeout : ℤ) (index : ℕ),
      wait.polled = some (entries, timeout) ∧
      entries[index]? = some
        { fd := ofcSocketImplGetFd (w.socket (core.socketGetImpl h))
          events := ofcSocketImplGetEvent (w.socket (core.socketGetImpl h))
          revents := 0 } ∧
      FirstReported answer (answer.revents index) ∧
      wait.world.socket (core.socketGetImpl h) =
        ofcSocketImplSetEvent (answer.world.socket (core.socketGetImpl h))
          (answer.revents index) := by
  have hinspect := inspect_socket (w := w) htype
  cases houtcome with
  | @ready before g after consumed hmembers hbefore hg hfinding =>
      obtain rfl : g = h := hreturned
      rw [hinspect] at hfinding
      exact absurd hfinding (by simp)
  | @expired scan hscanned hcount htimer =>
      replace hreturned : scan.timerEvent = h := hreturned
      rcases hscanned.timer with hnone | ⟨-, hfinding⟩
      · exact absurd hnone.1 htimer
      · rw [hreturned, hinspect] at hfinding
        exact absurd hfinding (by simp)
  | @message scan read rest hEvent g hscanned hcount hmessages hmember hfinding htest =>
      obtain rfl : g = h := hreturned
      rw [hinspect] at hfinding
      exact absurd hfinding (by simp)
  | @descriptor scan before g after entry world hscanned hcount hmembers hfinding hentry hrevents
      hfirst hworld =>
      obtain rfl : g = h := hreturned
      rw [hinspect, Finding.descriptor.injEq] at hfinding
      refine ⟨scan.darwinHandleList, scan.leastWait, _, rfl, hfinding ▸ hentry,
        ⟨_, rfl, hrevents, hfirst⟩, ?_⟩
      rw [hworld]
      exact Function.update_self ..
  | idle hscanned => exact absurd hreturned.symm hpresent

/-- A record that asks for nothing but events is reported an event or `POLLNVAL`. -/
theorem eventBits_iff {record : OfcSocketImpl} {revents : UInt16}
    (hasked : Within record.events eventBits) (hne : revents ≠ 0)
    (hallowed : Within revents (record.events ||| (pollErr ||| (pollHup ||| pollNval)))) :
    revents &&& eventBits ≠ 0 ↔ revents ≠ pollNval := by
  have hwithin : Within revents (eventBits ||| pollNval) := by
    refine hallowed.trans (Within.or (hasked.trans ?_) ?_) <;> decide
  constructor
  · rintro hbits rfl
    exact hbits (by decide)
  · intro hnval hzero
    exact hnval (eq_pollNval hwithin hne hzero)

/-- When a wait returns a socket, the socket has something to report exactly when its
record is still there after the poll and some event was reported.  Unless the record
asks for whatever its memory held, that is when `POLLNVAL` is not all. -/
theorem reported_iff (htype : core.handleGetType h = .socket) (hpresent : h ≠ handleNull)
    (hreturned : (ofcWaitsetWaitImpl core (some waitSet) w answer).triggeredEvent = h)
    (hposix : ∀ entries timeout,
      (ofcWaitsetWaitImpl core (some waitSet) w answer).polled = some (entries, timeout) →
        PosixAnswer entries answer)
    {fresh : OfcSocketImpl} {types : List SocketEventType}
    (henabled : ∀ record, w.socket (core.socketGetImpl h) = some record →
      enableAll (some fresh) types = some record)
    {revents : UInt16} (hrevents : FirstReported answer revents) :
    (Reports
          (ofcSocketImplTest
            ((ofcWaitsetWaitImpl core (some waitSet) w answer).world.socket (core.socketGetImpl h)))
          (types.getLast?.getD ∅) revents ↔
        (answer.world.socket (core.socketGetImpl h)).isSome ∧ revents &&& eventBits ≠ 0) ∧
      (types ≠ [] ∨ fresh.events = 0 → (revents &&& eventBits ≠ 0 ↔ revents ≠ pollNval)) := by
  obtain ⟨entries, timeout, index, hpolled, hentry, hfirst, hrecord⟩ :=
    returned_socket htype hpresent (wait_cases core waitSet w answer) hreturned
  obtain rfl := hrevents.unique hfirst
  obtain ⟨hallowed, hnegative⟩ := hposix entries timeout hpolled index _ hentry
  obtain ⟨-, -, hne, -⟩ := hfirst
  constructor
  · rw [hrecord]
    cases answer.world.socket (core.socketGetImpl h) with
    | none =>
        constructor
        · exact fun hreports => absurd rfl hreports.something
        · exact fun hboth => absurd hboth.1 (by decide)
    | some record =>
        show Reports (testEvents (answer.revents index)) _ _ ↔ _
        rw [reports_iff, Option.isSome_some]
        exact (and_iff_right rfl).symm
  · intro hfresh
    cases hsock : w.socket (core.socketGetImpl h) with
    | none =>
        -- the entry of a handle that does not resolve has the descriptor -1
        rw [hsock] at hnegative
        exact absurd (hnegative (by decide)) hne
    | some record =>
        rw [hsock] at hallowed
        exact eventBits_iff (enableAll_within hfresh (henabled record hsock)) hne hallowed

/-- The record of the socket 3, on descriptor 7, as created. -/
def createdSocket : OfcSocketImpl :=
  { socket := 7
    family := .ip
    events := 0
    revents := 0
    ip := { ipVersion := .ip, ipv4 := 0, ipv6 := { s6Addr := Vector.replicate 16 0, scope := 0 } } }

/-- A world in which that socket is enabled for reading and closing. -/
def socketWorld : World :=
  { exampleWorld with
    socket := fun _ => enableAll (some createdSocket) [{.write}, {.read, .close}] }

/-- A poll that reports `revents` for the one socket. -/
def socketAnswer (revents : UInt16) : PollAnswer :=
  { count := 1
    revents := fun index => if index = 1 then revents else 0
    world := socketWorld }

theorem socketAnswer_first {revents : UInt16} (hne : revents ≠ 0) :
    FirstReported (socketAnswer revents) revents :=
  ⟨1, rfl, hne, fun earlier hlt => if_neg (by omega)⟩

/-- The poll list of a wait on the socket. -/
def socketEntries : List PollFd :=
  [{ fd := 9, events := pollIn, revents := 0 },
    { fd := 7, events := Socket.pollHup ||| Socket.pollIn, revents := 0 }]

theorem socketAnswer_posix {revents : UInt16}
    (hwithin : Within revents
      (Socket.pollIn ||| (pollErr ||| (pollHup ||| pollNval)))) :
    PosixAnswer socketEntries (socketAnswer revents) := by
  intro index entry hentry
  match index with
  | 0 =>
      refine ⟨?_, fun _ => rfl⟩
      show Within 0 _
      simp [Within]
  | 1 =>
      obtain rfl := Option.some.inj hentry
      refine ⟨?_, fun hfd => absurd hfd (by decide)⟩
      apply hwithin.trans
      decide
  | index + 2 => simp [socketEntries] at hentry

/-- A hang-up with data still to read. -/
theorem reported_hangup :
    Reports
      (ofcSocketImplTest
        ((ofcWaitsetWaitImpl exampleCore (some { hHandleQueue := [3], pipeFile := 9 }) socketWorld
          (socketAnswer 0x11)).world.socket 4))
      {.read, .close} 0x11 := by
  have hposix : ∀ entries timeout,
      (ofcWaitsetWaitImpl exampleCore (some { hHandleQueue := [3], pipeFile := 9 }) socketWorld
        (socketAnswer 0x11)).polled = some (entries, timeout) →
        PosixAnswer entries (socketAnswer 0x11) := by
    rintro entries timeout hpolled
    obtain ⟨rfl, -⟩ := Prod.mk.inj (Option.some.inj hpolled)
    exact socketAnswer_posix (by decide)
  have henabled : ∀ record, socketWorld.socket 4 = some record →
      enableAll (some createdSocket) [{.write}, {.read, .close}] = some record :=
    fun _ hrecord => hrecord
  exact (reported_iff (h := 3) rfl (by decide) rfl hposix henabled
    (socketAnswer_first (by decide))).1.mpr ⟨rfl, by decide⟩

/-- The descriptor of the socket has been closed by the time of the poll: the wait
returns the socket, and it tests as empty. -/
theorem reported_nval :
    let wait := ofcWaitsetWaitImpl exampleCore (some { hHandleQueue := [3], pipeFile := 9 })
      socketWorld (socketAnswer pollNval)
    wait.triggeredEvent = 3 ∧ exampleCore.handleGetType 3 = .socket ∧
      wait.polled.map Prod.fst = some socketEntries ∧
      PosixAnswer socketEntries (socketAnswer pollNval) ∧
      FirstReported (socketAnswer pollNval) pollNval ∧
      ofcSocketImplTest (wait.world.socket 4) = ∅ ∧
      ¬ Reports (ofcSocketImplTest (wait.world.socket 4)) {.read, .close} pollNval := by
  intro wait
  have hempty : ofcSocketImplTest (wait.world.socket 4) = ∅ := by decide
  exact ⟨rfl, rfl, rfl, socketAnswer_posix (by decide), socketAnswer_first (by decide), hempty,
    fun hreports => hreports.something hempty⟩

end OfcDarwin.Waitset
