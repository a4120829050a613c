import OfcDarwin.Event.Model
import OfcDarwin.Lib.Transition
import OfcDarwin.Socket.Events

/-!
# Event and socket records behind the handle table

Any number of threads run the operations of `event_darwin.c` and `socket_darwin.c` on
any number of handles.  Every one of these operations starts with a successful
`ofc_handle_lock`, or does nothing, and is straight-line code from there: the
`program` of the operation, in the order of the source, with each access to the
record an instruction of its own.  One action is one instruction of one thread.

The handle table is reduced to what the code relies on.  A handle resolves until
`ofc_handle_destroy` has been called on it, and the references that lock and unlock
count exclude nobody, so they are not kept.

A record stays in memory after `ofc_free`.  `late` lists the handles through whose
records an access was made after that.
-/

namespace OfcDarwin.Records

open OfcDarwin.Socket

/-! ## Records and instructions -/

/-- What a handle resolves to. -/
inductive Record where
  | event (darwinEvent : DarwinEvent)
  | socket (sock : OfcSocketImpl)

/-- The type that `ofc_handle_create` was called with. -/
def Record.handleType : Record → HandleType
  | .event _ => .event
  | .socket _ => .socketImpl

/-- The instructions of the operations, each on the record of its handle. -/
inductive Instr where
  /-- `pthread_mutex_lock`. -/
  | mutexLock
  | mutexUnlock
  /-- `signalled = value`. -/
  | storeSignalled (value : Bool)
  | condBroadcast
  | readSignalled
  | readEventType
  /-- `pthread_cond_wait`, unless the flag has been read as set. -/
  | condWait
  /-- Asleep in `pthread_cond_wait`. -/
  | asleep
  /-- Woken in `pthread_cond_wait`, which takes the mutex again. -/
  | relock
  /-- `signalled = OFC_FALSE`, if the event is `OFC_EVENT_AUTO`. -/
  | autoReset
  | condDestroy
  | mutexDestroy
  | storeRevents (revents : UInt16)
  | readRevents
  | storeEvents (type : SocketEventType)
  | readEvents
  | readSocket
  /-- `close(sock->socket)`, unless it has been read as negative. -/
  | closeSocket
  /-- `ofc_free`. -/
  | free
  /-- `ofc_handle_get_wait_set`. -/
  | getWaitSet
  /-- `ofc_waitset_signal_impl`, unless there is no wait set. -/
  | signalWaitSet
  /-- `ofc_handle_destroy`. -/
  | handleDestroy
  /-- `ofc_handle_unlock`. -/
  | handleUnlock
deriving DecidableEq

/-- Whether an instruction needs the record, and not only its handle. -/
def Instr.touches : Instr → Bool
  | .getWaitSet | .signalWaitSet | .handleDestroy | .handleUnlock => false
  | _ => true

/-- What an instruction does to the fields of the record. -/
def Instr.store : Instr → Record → Record
  | .storeSignalled value, .event darwinEvent =>
      .event (if value then darwinEvent.set else darwinEvent.reset)
  | .autoReset, .event darwinEvent => .event darwinEvent.release
  | .storeRevents revents, .socket sock => .socket { sock with revents := revents }
  | .storeEvents type, .socket sock => .socket { sock with events := enableMask type }
  | _, record => record

/-- Whether a wait finds the flag clear, and sleeps. -/
def Record.sleeps : Record → Bool
  | .event darwinEvent => !darwinEvent.signalled
  | .socket _ => false

/-! ## The operations -/

/-- The operations, of events and of sockets. -/
inductive Op where
  | eventSet
  | eventReset
  | eventWait
  | eventTest
  | eventGetType
  | eventDestroy
  | socketSetEvent (revents : UInt16)
  | socketGetEvent
  | socketGetFd
  | socketTest
  | socketEnable (type : SocketEventType)
  | socketDestroy
deriving DecidableEq

/-- What kind of record an operation is for. -/
def Op.handleType : Op → HandleType
  | .eventSet | .eventReset | .eventWait | .eventTest | .eventGetType | .eventDestroy => .event
  | .socketSetEvent _ | .socketGetEvent | .socketGetFd | .socketTest | .socketEnable _
  | .socketDestroy => .socketImpl

/-- An operation after its `ofc_handle_lock`. -/
def Op.program : Op → List Instr
  | .eventSet =>
      [.mutexLock, .storeSignalled true, .condBroadcast, .getWaitSet, .handleUnlock,
        .signalWaitSet, .mutexUnlock]
  | .eventReset => [.mutexLock, .storeSignalled false, .mutexUnlock, .handleUnlock]
  | .eventWait =>
      [.mutexLock, .handleUnlock, .readSignalled, .condWait, .readEventType, .autoReset,
        .mutexUnlock]
  | .eventTest => [.mutexLock, .readSignalled, .mutexUnlock, .handleUnlock]
  | .eventGetType => [.readEventType, .handleUnlock]
  | .eventDestroy => [.condDestroy, .mutexDestroy, .free, .handleDestroy, .handleUnlock]
  | .socketSetEvent revents => [.storeRevents revents, .handleUnlock]
  | .socketGetEvent => [.readEvents, .handleUnlock]
  | .socketGetFd => [.readSocket, .handleUnlock]
  | .socketTest => List.replicate 6 .readRevents ++ [.handleUnlock]
  | .socketEnable type => [.storeEvents type, .handleUnlock]
  | .socketDestroy => [.readSocket, .closeSocket, .free, .handleDestroy, .handleUnlock]

/-! ## The system -/

/-- Which handles resolve, the records in memory and whether they are released, who
has the mutex of an event, and what each thread has left to do on which handle. -/
structure State (Thread : Type) where
  resolves : Handle → Bool
  record : Handle → Option Record
  released : Handle → Bool
  mutex : Handle → Option Thread
  running : Thread → Option (Handle × List Instr)
  late : List Handle

/-- Any records, all of them live, and no thread at work. -/
def initial (Thread : Type) (record : Handle → Option Record) : State Thread :=
  { resolves := fun h => (record h).isSome
    record := record
    released := fun _ => false
    mutex := fun _ => none
    running := fun _ => none
    late := [] }

/-- A step of one thread: the lock of an operation, its next instruction, or a
spurious wakeup. -/
inductive Action (Thread : Type) where
  | call (t : Thread) (h : Handle) (op : Op)
  | next (t : Thread)
  | wakeup (t : Thread)

variable {Thread : Type}

/-- What is left of a program whose thread is woken. -/
def wake : List Instr → List Instr
  | .asleep :: rest => .relock :: rest
  | rest => rest

/-- `pthread_cond_broadcast` on the event of a handle. -/
def broadcast (running : Thread → Option (Handle × List Instr)) (h : Handle) (t : Thread) :
    Option (Handle × List Instr) :=
  (running t).map fun (held, rest) => (held, if held = h then wake rest else rest)

/-- Whether an instruction can be taken: the mutex is taken when it is free, and a
sleeper does nothing by itself. -/
def Instr.enabled (mutex : Option Thread) : Instr → Bool
  | .mutexLock | .relock => mutex.isNone
  | .asleep => false
  | _ => true

/-- Who has the mutex after an instruction. -/
def Instr.mutexAfter (t : Thread) (sleeps : Bool) (mutex : Option Thread) : Instr → Option Thread
  | .mutexLock | .relock => some t
  | .mutexUnlock => none
  | .condWait => if sleeps then none else mutex
  | _ => mutex

/-- What is left of a program after its first instruction. -/
def Instr.after (sleeps : Bool) (rest : List Instr) : Instr → List Instr
  | .condWait => if sleeps then .asleep :: rest else rest
  | _ => rest

namespace State

variable [DecidableEq Thread]

/-- A thread goes on with another program. -/
def goto (s : State Thread) (t : Thread) (program : Option (Handle × List Instr)) : State Thread :=
  { s with running := Function.update s.running t program }

/-- Whether a wait on the event of a handle sleeps. -/
def sleeps (s : State Thread) (h : Handle) : Bool := (s.record h).any Record.sleeps

/-- One instruction of a thread on a handle. -/
def exec (s : State Thread) (t : Thread) (h : Handle) (instr : Instr) (rest : List Instr) :
    State Thread :=
  { resolves :=
      if instr = .handleDestroy then Function.update s.resolves h false else s.resolves
    record := Function.update s.record h ((s.record h).map instr.store)
    released := if instr = .free then Function.update s.released h true else s.released
    mutex := Function.update s.mutex h (instr.mutexAfter t (s.sleeps h) (s.mutex h))
    running :=
      Function.update (if instr = .condBroadcast then broadcast s.running h else s.running) t
        (some (h, instr.after (s.sleeps h) rest))
    late := if instr.touches ∧ s.released h then s.late ++ [h] else s.late }

end State

/-- The step function of the system.  A thread calls an operation on a handle of the
right type only. -/
def step [DecidableEq Thread] (s : State Thread) : Action Thread → Option (State Thread)
  | .call t h op =>
      if s.running t = none ∧ (s.record h).all fun record => record.handleType = op.handleType then
        -- `ofc_handle_lock` returns `OFC_NULL` for a handle that does not resolve
        some (if s.resolves h then s.goto t (some (h, op.program)) else s)
      else none
  | .next t =>
      match s.running t with
      | none => none
      | some (_, []) => some (s.goto t none)
      | some (h, instr :: rest) =>
          if instr.enabled (s.mutex h) then some (s.exec t h instr rest) else none
  | .wakeup t =>
      match s.running t with
      | some (h, .asleep :: rest) => some (s.goto t (some (h, .relock :: rest)))
      | _ => none

end OfcDarwin.Records
