import Mathlib.Logic.Function.Basic
import OfcDarwin.Event.Model
import OfcDarwin.Socket.Events

/-!
# Wait sets

`ofc_waitset_wait_impl` and what it calls, as one sequential run.  It purges the
pipe, scans the handles of the set, and unless the scan finds one that is ready
it polls, and turns the answer of `poll` into a handle.

What the scan makes of one handle is a `Finding`: the switch of the source is
`inspect`, and `Scan.note` is what the body does with it.  The several threads of
`Waitset/Interleaving.lean` take the same two steps.
-/

namespace OfcDarwin.Waitset

open OfcDarwin.Socket

/-! ## The surroundings -/

/-- `OFC_FST_TYPE`, as far as it is looked at. -/
inductive FsType where
  | darwin
  | other
deriving DecidableEq, Repr

/-- The accessors of the core library, and its configuration: `fsDarwin` says
whether `OFC_FS_DARWIN` is defined, `maxSchedWait` is `OFC_MAX_SCHED_WAIT`. -/
structure Core where
  handleGetType : Handle → HandleType
  waitqGetEventHandle : Handle → Handle
  fileGetFsType : Handle → FsType
  fileGetFsHandle : Handle → Handle
  fsDarwinGetFd : Handle → ℤ
  fsDarwinGetOverlappedEvent : Handle → Handle
  fileGetOverlappedWaitQ : Handle → Handle
  fileGetOverlappedEvent : Handle → Handle
  socketGetImpl : Handle → Handle
  fsDarwin : Bool
  maxSchedWait : ℤ

/-- What a wait reads and writes outside its own locals: the events and socket
records the handles resolve to, the lengths of the wait queues, the wait times
of the timers, and the pipe of the set. -/
structure World where
  event : Handle → Option DarwinEvent
  waitq : Handle → ℕ
  waitTime : Handle → ℤ
  socket : Handle → Option OfcSocketImpl
  pipe : List Handle

namespace World

/-- `ofc_event_test`. -/
def eventTest (w : World) (hEvent : Handle) : Bool := ofcEventTestImpl (w.event hEvent)

/-- `ofc_event_get_type`. -/
def eventGetType (w : World) (hEvent : Handle) : EventType := ofcEventGetTypeImpl (w.event hEvent)

/-- `ofc_event_reset`. -/
def eventReset (w : World) (hEvent : Handle) : World :=
  { w with event := Function.update w.event hEvent (ofcEventResetImpl (w.event hEvent)) }

/-- `ofc_waitq_empty`. -/
def waitqEmpty (w : World) (hWaitQ : Handle) : Bool := w.waitq hWaitQ == 0

/-- The effect of a test that succeeds: an auto-reset event is consumed. -/
def consume (w : World) (hEvent : Handle) : World :=
  if w.eventGetType hEvent = .auto then w.eventReset hEvent else w

/-- `while (read(pipe_files[0], ..) > 0)`, which discards every message. -/
def purge (w : World) : World := { w with pipe := [] }

end World

/-- The `WAIT_SET` of a handle, with the read end of its pipe. -/
structure WaitSet where
  hHandleQueue : List Handle
  pipeFile : ℤ
deriving DecidableEq, Repr

/-- `struct pollfd`. -/
structure PollFd where
  fd : ℤ
  events : UInt16
  revents : UInt16
deriving DecidableEq, Repr

/-- `EVENT_ELEMENT`. -/
structure EventElement where
  hEvent : Handle
  hAssoc : Handle
deriving DecidableEq, Repr

/-! ## The scan -/

/-- What the scan makes of a handle. -/
inductive Finding where
  | nothing
  /-- The handle is ready; `consumed` when it is an event the scan consumes. -/
  | triggered (consumed : Bool)
  | backed (hEvent : Handle)
  | descriptor (entry : PollFd)
  | timer (waitTime : ℤ)
deriving DecidableEq, Repr

/-- The switch over `ofc_handle_get_type(hEventHandle)`. -/
def inspect (core : Core) (w : World) (hEventHandle : Handle) : Finding :=
  match core.handleGetType hEventHandle with
  | .waitQueue =>
      if !w.waitqEmpty hEventHandle then .triggered false
      else .backed (core.waitqGetEventHandle hEventHandle)
  | .file =>
      if core.fsDarwin ∧ core.fileGetFsType hEventHandle = .darwin then
        .descriptor
          { fd := core.fsDarwinGetFd (core.fileGetFsHandle hEventHandle)
            events := 0
            revents := 0 }
      -- a file of another file system is not waited for
      else .nothing
  | .socket =>
      .descriptor
        { fd := ofcSocketImplGetFd (w.socket (core.socketGetImpl hEventHandle))
          events := ofcSocketImplGetEvent (w.socket (core.socketGetImpl hEventHandle))
          revents := 0 }
  | .fsdarwinOverlapped =>
      if core.fsDarwin then
        if w.eventTest (core.fsDarwinGetOverlappedEvent hEventHandle) then .triggered false
        else .backed (core.fsDarwinGetOverlappedEvent hEventHandle)
      else .nothing
  | .fssmbOverlapped =>
      if !w.waitqEmpty (core.fileGetOverlappedWaitQ hEventHandle) then .triggered false
      else .backed (core.waitqGetEventHandle (core.fileGetOverlappedWaitQ hEventHandle))
  | .event =>
      if w.eventTest hEventHandle then .triggered true
      else .backed hEventHandle
  | .timer =>
      if w.waitTime hEventHandle = 0 then .triggered false
      else .timer (w.waitTime hEventHandle)
  | _ => .nothing

/-- The locals of the scan. -/
structure Scan where
  darwinHandleList : List PollFd
  ofcHandleList : List Handle
  eventQueue : List EventElement
  leastWait : ℤ
  timerEvent : Handle
  triggeredEvent : Handle
deriving DecidableEq, Repr

/-- The locals before the first handle: the pipe is the first poll entry. -/
def Scan.start (core : Core) (pipeFile : ℤ) : Scan :=
  { darwinHandleList := [{ fd := pipeFile, events := pollIn, revents := 0 }]
    ofcHandleList := [handleNull]
    eventQueue := []
    leastWait := core.maxSchedWait
    timerEvent := handleNull
    triggeredEvent := handleNull }

/-- The locals after a handle. -/
def Scan.note (scan : Scan) (hEventHandle : Handle) : Finding → Scan
  | .nothing => scan
  | .triggered _ => { scan with triggeredEvent := hEventHandle }
  | .backed hEvent =>
      { scan with eventQueue := scan.eventQueue ++ [{ hEvent := hEvent, hAssoc := hEventHandle }] }
  | .descriptor entry =>
      { scan with
        darwinHandleList := scan.darwinHandleList ++ [entry]
        ofcHandleList := scan.ofcHandleList ++ [hEventHandle] }
  | .timer waitTime =>
      if waitTime < scan.leastWait then
        { scan with leastWait := waitTime, timerEvent := hEventHandle }
      else scan

/-- The world after a handle: only a ready event is consumed. -/
def World.note (w : World) (hEventHandle : Handle) : Finding → World
  | .triggered true => w.consume hEventHandle
  | _ => w

/-- The loop over `hHandleQueue`. -/
def scanQueue (core : Core) : List Handle → Scan → World → Scan × World
  | [], scan, w => (scan, w)
  | hEventHandle :: rest, scan, w =>
      if hEventHandle ≠ handleNull ∧ scan.triggeredEvent = handleNull then
        scanQueue core rest (scan.note hEventHandle (inspect core w hEventHandle))
          (w.note hEventHandle (inspect core w hEventHandle))
      else (scan, w)

/-! ## Poll and the pipe -/

/-- What `poll` answers: its result, the `revents` it stores, and the world it
returns to, in which messages may have arrived and other threads may have been
at work. -/
structure PollAnswer where
  count : ℤ
  revents : ℕ → UInt16
  world : World

/-- `PollEvent` over the messages in the pipe: the triggered handle and the
world it leaves, with the messages it has not read. -/
def pollEvent (eventQueue : List EventElement) (w : World) : List Handle → Handle × World
  | [] => (handleNull, { w with pipe := [] })
  | hEvent :: rest =>
      if hEvent = handleNull then (handleNull, { w with pipe := rest })
      else
        match eventQueue.find? (·.hEvent = hEvent) with
        -- a message of an event that is not in the queue is skipped
        | none => pollEvent eventQueue w rest
        | some eventElement =>
            -- the event may have been reset since the message was written
            if w.eventTest hEvent then
              if eventElement.hAssoc = handleNull then
                pollEvent eventQueue (w.consume hEvent) rest
              else (eventElement.hAssoc, { w.consume hEvent with pipe := rest })
            else pollEvent eventQueue w rest

/-- The poll list with the answer stored in it. -/
def PollAnswer.store (answer : PollAnswer) (entries : List PollFd) : List PollFd :=
  entries.mapIdx fun index entry => { entry with revents := answer.revents index }

/-- The `wait_index` at which the search for non-zero `revents` ends. -/
def waitIndex (entries : List PollFd) : ℕ := entries.findIdx (·.revents ≠ 0)

/-! ## The wait -/

/-- The outcome of a wait: the handle it returns and the world it leaves; the
entries and the timeout it polled with, if it did; and the handles it called
`ofc_socket_get_impl` on after the scan. -/
structure Wait where
  triggeredEvent : Handle
  world : World
  polled : Option (List PollFd × ℤ)
  socketGetImpl : List Handle

/-- The dispatch of the answer of `poll`. -/
def dispatch (core : Core) (scan : Scan) (answer : PollAnswer) : Wait :=
  let polled := some (scan.darwinHandleList, scan.leastWait)
  if answer.count = 0 ∧ scan.timerEvent ≠ handleNull then
    { triggeredEvent := scan.timerEvent
      world := answer.world
      polled := polled
      socketGetImpl := [] }
  else if answer.count > 0 then
    let entries := answer.store scan.darwinHandleList
    let index := waitIndex entries
    -- the pipe is the first entry
    if index = 0 then
      let (triggeredEvent, world) := pollEvent scan.eventQueue answer.world answer.world.pipe
      { triggeredEvent := triggeredEvent
        world := world
        polled := polled
        socketGetImpl := [] }
    else
      match entries[index]?, scan.ofcHandleList[index]? with
      | some entry, some hEventHandle =>
          -- a Darwin file comes here too, and has no socket record
          let impl := core.socketGetImpl hEventHandle
          let world := answer.world
          { triggeredEvent := if entry.revents ≠ 0 then hEventHandle else handleNull
            world :=
              { world with
                socket := Function.update world.socket impl
                  (ofcSocketImplSetEvent (world.socket impl) entry.revents) }
            polled := polled
            socketGetImpl := [hEventHandle] }
      | _, _ =>
          { triggeredEvent := handleNull
            world := answer.world
            polled := polled
            socketGetImpl := [] }
  else
    { triggeredEvent := handleNull
      world := answer.world
      polled := polled
      socketGetImpl := [] }

/-- `ofc_waitset_wait_impl`, on what its handle resolves to. -/
def ofcWaitsetWaitImpl (core : Core) (waitSet : Option WaitSet) (w : World) (answer : PollAnswer) :
    Wait :=
  match waitSet with
  | none =>
      { triggeredEvent := handleNull, world := w, polled := none, socketGetImpl := [] }
  | some waitSet =>
      let (scan, w) := scanQueue core waitSet.hHandleQueue (Scan.start core waitSet.pipeFile)
        w.purge
      if scan.triggeredEvent = handleNull then dispatch core scan answer
      else
        { triggeredEvent := scan.triggeredEvent
          world := w
          polled := none
          socketGetImpl := [] }

/-! ## Joining a set -/

/-- The event that `ofc_waitset_add_impl` associates with the set. -/
def addAssoc (core : Core) (hEvent : Handle) : Option Handle :=
  match core.handleGetType hEvent with
  | .waitQueue => some (core.waitqGetEventHandle hEvent)
  | .event => some hEvent
  | .fsdarwinOverlapped =>
      if core.fsDarwin then some (core.fsDarwinGetOverlappedEvent hEvent) else none
  | .fssmbOverlapped => some (core.fileGetOverlappedEvent hEvent)
  | _ => none

/-- Whether `ofc_waitset_add_impl` then signals the set. -/
def addReady (core : Core) (w : World) (hEvent hAssoc : Handle) : Bool :=
  match core.handleGetType hEvent with
  | .waitQueue => !w.waitqEmpty hEvent
  | _ => w.eventTest hAssoc

/-! ## A set to try things on -/

/-- Handle 1 is an event, 2 a timer and 3 a socket with record 4. -/
def exampleCore : Core :=
  { handleGetType := fun h =>
      if h = 1 then .event else if h = 2 then .timer else if h = 3 then .socket else .socketImpl
    waitqGetEventHandle := id
    fileGetFsType := fun _ => .other
    fileGetFsHandle := id
    fsDarwinGetFd := fun _ => -1
    fsDarwinGetOverlappedEvent := id
    fileGetOverlappedWaitQ := id
    fileGetOverlappedEvent := id
    socketGetImpl := fun _ => 4
    fsDarwin := true
    maxSchedWait := 20000 }

def exampleWorld : World :=
  { event := fun h =>
      if h = 1 then some { eventType := .auto, signalled := true } else none
    waitq := fun _ => 0
    waitTime := fun _ => 500
    socket := fun _ => none
    pipe := [handleNull] }

end OfcDarwin.Waitset
