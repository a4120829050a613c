import OfcDarwin.Handle

/-!
# Events

`DARWIN_EVENT` and the operations of `event_darwin.c` on it.  A function whose
source starts with `ofc_handle_lock(hEvent)` takes the result of that lock, so
that its answer for a handle which does not resolve is part of the model:
`ofc_event_test_impl` answers `OFC_TRUE` there and `ofc_event_get_type_impl`
answers `OFC_EVENT_AUTO`.

The condition variable and the mutex of the record are not fields here.  They
order the operations of several threads, which is the business of
`Event/Interleaving.lean`.
-/

namespace OfcDarwin

/-- `OFC_EVENT_TYPE`. -/
inductive EventType where
  | auto
  | manual
deriving DecidableEq, Repr

/-- `DARWIN_EVENT`. -/
structure DarwinEvent where
  eventType : EventType
  signalled : Bool
deriving DecidableEq, Repr

/-- `ofc_event_create_impl`, when the allocation succeeds. -/
def ofcEventCreateImpl (eventType : EventType) : DarwinEvent :=
  { eventType := eventType, signalled := false }

namespace DarwinEvent

/-- `darwinEvent->signalled = OFC_TRUE`, the store of `ofc_event_set_impl`. -/
def set (event : DarwinEvent) : DarwinEvent :=
  { event with signalled := true }

/-- `darwinEvent->signalled = OFC_FALSE`, the store of `ofc_event_reset_impl`. -/
def reset (event : DarwinEvent) : DarwinEvent :=
  { event with signalled := false }

/-- The end of `ofc_event_wait_impl`: an auto-reset event is cleared by the
thread that leaves the wait. -/
def release (event : DarwinEvent) : DarwinEvent :=
  if event.eventType = .auto then event.reset else event

@[simp] theorem set_signalled (event : DarwinEvent) : event.set.signalled = true := rfl

@[simp] theorem reset_signalled (event : DarwinEvent) : event.reset.signalled = false := rfl

@[simp] theorem release_eventType (event : DarwinEvent) :
    event.release.eventType = event.eventType := by
  unfold release
  split <;> rfl

theorem release_signalled_of_auto {event : DarwinEvent} (hauto : event.eventType = .auto) :
    event.release.signalled = false := by
  rw [release, if_pos hauto, reset_signalled]

end DarwinEvent

/-- `ofc_event_reset_impl` on the record its handle resolves to. -/
def ofcEventResetImpl (event : Option DarwinEvent) : Option DarwinEvent :=
  event.map DarwinEvent.reset

/-- `ofc_event_get_type_impl`. -/
def ofcEventGetTypeImpl : Option DarwinEvent → EventType
  | none => .auto
  | some event => event.eventType

/-- `ofc_event_test_impl`. -/
def ofcEventTestImpl : Option DarwinEvent → Bool
  | none => true
  | some event => event.signalled

end OfcDarwin
