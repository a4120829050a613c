import Mathlib.Logic.Function.Basic
import OfcDarwin.Handle
import OfcDarwin.Lib.Transition

/-!
# One thread record and everyone who holds it

`ofc_thread_create_impl` allocates a `DARWIN_THREAD`, makes a handle for it and
passes the bare pointer to `ofc_thread_launch`.  From then on three kinds of
party hold the record:

* the creator, which still reads `darwinThread->handle` after `pthread_create`;
* the launched thread, which runs the scheduler function and, for a detached
  record, destroys the handle and frees the record;
* client threads, which reach the record through `ofc_handle_lock`.

One action is one step of one party, and a step that touches the record names
the fields it reads or writes (`Shared.touch`).  The handle table is reduced to
what the code relies on: a handle resolves until `ofc_handle_destroy` has been
called on it, and a lock that was taken excludes nobody.

The record stays in the state after `ofc_free`, as the memory would.  `released`
and `destroyed` count the calls of `ofc_free` and `ofc_handle_destroy`, and
`late` lists the fields that were touched after a release.
-/

namespace OfcDarwin.Thread

/-- `OFC_THREAD_DETACHSTATE`. -/
inductive DetachState where
  | join
  | detach
deriving DecidableEq, Repr

/-- The fields of `DARWIN_THREAD`. -/
inductive Field where
  | thread
  | scheduler
  | context
  | ret
  | deleteMe
  | handle
  | detachstate
  | waitSet
  | hNotify
deriving DecidableEq, Repr

/-- `DARWIN_THREAD`, without the fields that no branch depends on. -/
structure DarwinThread where
  deleteMe : Bool
  handle : Handle
  detachstate : DetachState
  waitSet : Handle
  hNotify : Handle
deriving DecidableEq, Repr

/-- The record as `ofc_thread_create_impl` fills it in before `pthread_create`. -/
def newRecord (handle : Handle) (detachstate : DetachState) (hNotify : Handle) : DarwinThread :=
  { deleteMe := false
    handle := handle
    detachstate := detachstate
    waitSet := handleNull
    hNotify := hNotify }

/-! ## The parties -/

/-- Where `ofc_thread_create_impl` is: at `pthread_create`, at the read of
`darwinThread->handle` that follows it, at the two calls that undo a failed
creation, or back at its caller with the handle (`returned`) or without one. -/
inductive Creator where
  | creating
  | created
  | failed
  | freeing
  | returned
  | gaveUp
deriving DecidableEq, Repr

/-- Where `ofc_thread_launch` is.  From `entered` on the constructors name what
comes next: the call of the scheduler function, its return, the store of `ret`,
the test of `hNotify` and the set of that event, the test of `detachstate`, and
for a detached record `pthread_cancel`, `ofc_handle_destroy` and `ofc_free`. -/
inductive Launched where
  | absent
  | entered
  | running
  | finished
  | notifying
  | signalling
  | checking
  | cancelling
  | destroying
  | freeing
  | ended
deriving DecidableEq, Repr

/-- The operations a client calls on the handle. -/
inductive Op where
  | delete
  | isDeleting
  | setWaitset (waitSet : Handle)
  | wait
  | detach
deriving DecidableEq, Repr

/-- Where a client is between its `ofc_handle_lock` and its `ofc_handle_unlock`:
at one of the accesses of the operation that the constructor names, inside
`pthread_join` (`waitJoining`), or at the `ofc_free` of `ofc_thread_wait_impl`. -/
inductive Client where
  | idle
  | deleteStore
  | deleteTest
  | deleteWake
  | isDeletingRead
  | setWaitsetStore (waitSet : Handle)
  | detachStore
  | detachThread
  | waitTest
  | waitJoin
  | waitJoining
  | waitDestroy
  | waitFree
deriving DecidableEq, Repr

/-- The first step of an operation, once its lock has resolved the handle. -/
def Op.start : Op → Client
  | .delete => .deleteStore
  | .isDeleting => .isDeletingRead
  | .setWaitset waitSet => .setWaitsetStore waitSet
  | .wait => .waitTest
  | .detach => .detachStore

/-- `ofc_thread_wait_impl` and `ofc_thread_detach_impl` give up the handle. -/
def Op.closing : Op → Bool
  | .wait | .detach => true
  | .delete | .isDeleting | .setWaitset _ => false

/-! ## The record in memory -/

/-- The record and its handle, as every party sees them, what the thread library
knows about the thread, and the history of the run: the calls of `ofc_free` and
of `ofc_handle_destroy`, and the fields touched after a release. -/
structure Shared where
  record : DarwinThread
  detached : Bool
  terminated : Bool
  released : ℕ
  destroyed : ℕ
  late : List Field
deriving DecidableEq, Repr

namespace Shared

/-- Reading or writing fields of the record. -/
def touch (m : Shared) (fields : List Field) : Shared :=
  { m with late := if m.released = 0 then m.late else m.late ++ fields }

/-- `ofc_handle_destroy(darwinThread->handle)`. -/
def destroyHandle (m : Shared) : Shared :=
  { m.touch [.handle] with destroyed := m.destroyed + 1 }

/-- `ofc_free(darwinThread)`. -/
def free (m : Shared) : Shared :=
  { m with released := m.released + 1 }

/-- `darwinThread->deleteMe = OFC_TRUE`. -/
def storeDeleteMe (m : Shared) : Shared :=
  { m.touch [.deleteMe] with record := { m.record with deleteMe := true } }

/-- `darwinThread->wait_set = wait_set`. -/
def storeWaitSet (m : Shared) (waitSet : Handle) : Shared :=
  { m.touch [.waitSet] with record := { m.record with waitSet := waitSet } }

/-- `darwinThread->detachstate = OFC_THREAD_DETACH`. -/
def storeDetach (m : Shared) : Shared :=
  { m.touch [.detachstate] with record := { m.record with detachstate := .detach } }

/-- `pthread_detach(darwinThread->thread)`. -/
def pthreadDetach (m : Shared) : Shared :=
  { m.touch [.thread] with detached := true }

/-- `ofc_thread_launch` returns. -/
def terminate (m : Shared) : Shared :=
  { m with terminated := true }

end Shared

/-! ## The programs -/

/-- `ofc_thread_create_impl` after `pthread_create` has returned. -/
def Creator.next (m : Shared) : Creator → Option (Creator × Shared)
  | .creating | .returned | .gaveUp => none
  | .created => some (.returned, m.touch [.handle])
  | .failed => some (.freeing, m.destroyHandle)
  | .freeing => some (.gaveUp, m.free)

/-- `ofc_thread_launch`. -/
def Launched.next (m : Shared) : Launched → Option (Launched × Shared)
  | .absent | .ended => none
  | .entered => some (.running, m.touch [.scheduler, .handle, .context])
  | .running => some (.finished, m)
  | .finished => some (.notifying, m.touch [.ret])
  | .notifying =>
      some (if m.record.hNotify = handleNull then .checking else .signalling, m.touch [.hNotify])
  | .signalling => some (.checking, m.touch [.hNotify])
  | .checking =>
      match m.record.detachstate with
      | .detach => some (.cancelling, m.touch [.detachstate])
      | .join => some (.ended, (m.touch [.detachstate]).terminate)
  | .cancelling => some (.destroying, m.touch [.thread])
  | .destroying => some (.freeing, m.destroyHandle)
  | .freeing => some (.ended, m.free.terminate)

/-- The operations of `thread_darwin.c` on a handle that has resolved. -/
def Client.next (m : Shared) : Client → Option (Client × Shared)
  | .idle => none
  | .deleteStore => some (.deleteTest, m.storeDeleteMe)
  | .deleteTest =>
      some (if m.record.waitSet = handleNull then .idle else .deleteWake, m.touch [.waitSet])
  | .deleteWake => some (.idle, m.touch [.waitSet])
  | .isDeletingRead => some (.idle, m.touch [.deleteMe])
  | .setWaitsetStore waitSet => some (.idle, m.storeWaitSet waitSet)
  | .detachStore => some (.detachThread, m.storeDetach)
  | .detachThread => some (.idle, m.pthreadDetach)
  | .waitTest =>
      match m.record.detachstate with
      | .join => some (.waitJoin, m.touch [.detachstate])
      | .detach => some (.idle, m.touch [.detachstate])
  | .waitJoin => some (.waitJoining, m.touch [.thread])
  | .waitJoining =>
      -- a detached thread cannot be joined: `pthread_join` returns an error at once
      if m.terminated ∨ m.detached then some (.waitDestroy, m) else none
  | .waitDestroy => some (.waitFree, m.destroyHandle)
  | .waitFree => some (.idle, m.free)

/-! ## The system -/

/-- The shared record, where its parties are, and the number of calls of
`ofc_thread_wait_impl` and `ofc_thread_detach_impl`. -/
structure State (Thread : Type) where
  shared : Shared
  creator : Creator
  launched : Launched
  client : Thread → Client
  closes : ℕ

/-- One step of one party.  `create` carries the outcome of `pthread_create`,
and `call` enters an operation, from its `ofc_handle_lock` on. -/
inductive Action (Thread : Type) where
  | create (succeeds : Bool)
  | creator
  | launched
  | call (c : Thread) (op : Op)
  | client (c : Thread)
deriving DecidableEq, Repr

variable {Thread : Type} [DecidableEq Thread]

namespace State

def moveCreator (s : State Thread) (pc : Creator) (m : Shared) : State Thread :=
  { s with creator := pc, shared := m }

def moveLaunched (s : State Thread) (pc : Launched) (m : Shared) : State Thread :=
  { s with launched := pc, shared := m }

def moveClient (s : State Thread) (c : Thread) (pc : Client) (m : Shared) : State Thread :=
  { s with client := Function.update s.client c pc, shared := m }

/-- `pthread_create` returns: the launched thread exists, or the creation failed. -/
def afterCreate (s : State Thread) : Bool → State Thread
  | true =>
      { s with shared := s.shared.touch [.thread], creator := .created, launched := .entered }
  | false => { s with creator := .failed }

/-- Entering an operation: `ofc_handle_lock` resolves the handle until it has
been destroyed, and an operation whose handle does not resolve returns. -/
def afterCall (s : State Thread) (c : Thread) (op : Op) : State Thread :=
  { s with
    client := if s.shared.destroyed = 0 then Function.update s.client c op.start else s.client
    closes := if op.closing then s.closes + 1 else s.closes }

end State

/-- The step function of the system.  Clients know the handle once the thread
exists, since the scheduler function receives it. -/
def step (s : State Thread) : Action Thread → Option (State Thread)
  | .create succeeds => if s.creator = .creating then some (s.afterCreate succeeds) else none
  | .creator => (s.creator.next s.shared).map fun next => s.moveCreator next.1 next.2
  | .launched => (s.launched.next s.shared).map fun next => s.moveLaunched next.1 next.2
  | .call c op =>
      if s.client c = .idle ∧ s.launched ≠ .absent then some (s.afterCall c op) else none
  | .client c => ((s.client c).next s.shared).map fun next => s.moveClient c next.1 next.2

/-- `ofc_thread_create_impl` has filled the record in and calls `pthread_create`. -/
def initial (Thread : Type) (record : DarwinThread) : State Thread :=
  { shared :=
      { record := record
        detached := record.detachstate = .detach
        terminated := false
        released := 0
        destroyed := 0
        late := [] }
    creator := .creating
    launched := .absent
    client := fun _ => .idle
    closes := 0 }

/-! ## What one step can do -/

theorem create_inv {s t : State Thread} {succeeds : Bool}
    (hstep : step s (.create succeeds) = some t) :
    s.creator = .creating ∧ t = s.afterCreate succeeds := by
  simpa [step, eq_comm] using hstep

theorem creator_inv {s t : State Thread} (hstep : step s .creator = some t) :
    ∃ pc m, s.creator.next s.shared = some (pc, m) ∧ t = s.moveCreator pc m := by
  obtain ⟨⟨pc, m⟩, hnext, rfl⟩ := Option.map_eq_some_iff.mp hstep
  exact ⟨pc, m, hnext, rfl⟩

theorem launched_inv {s t : State Thread} (hstep : step s .launched = some t) :
    ∃ pc m, s.launched.next s.shared = some (pc, m) ∧ t = s.moveLaunched pc m := by
  obtain ⟨⟨pc, m⟩, hnext, rfl⟩ := Option.map_eq_some_iff.mp hstep
  exact ⟨pc, m, hnext, rfl⟩

theorem call_inv {s t : State Thread} {c : Thread} {op : Op}
    (hstep : step s (.call c op) = some t) :
    s.client c = .idle ∧ s.launched ≠ .absent ∧ t = s.afterCall c op := by
  simpa [step, eq_comm, and_assoc] using hstep

theorem client_inv {s t : State Thread} {c : Thread} (hstep : step s (.client c) = some t) :
    ∃ pc m, (s.client c).next s.shared = some (pc, m) ∧ t = s.moveClient c pc m := by
  obtain ⟨⟨pc, m⟩, hnext, rfl⟩ := Option.map_eq_some_iff.mp hstep
  exact ⟨pc, m, hnext, rfl⟩

/-! ## Where the parties are after a step -/

@[simp] theorem moveClient_client_self (s : State Thread) (c : Thread) (pc : Client)
    (m : Shared) : (s.moveClient c pc m).client c = pc :=
  Function.update_self ..

theorem moveClient_client_of_ne (s : State Thread) {c d : Thread} (hdc : d ≠ c) (pc : Client)
    (m : Shared) : (s.moveClient c pc m).client d = s.client d :=
  Function.update_of_ne hdc ..

theorem afterCall_client_self {s : State Thread} (hlive : s.shared.destroyed = 0) (c : Thread)
    (op : Op) : (s.afterCall c op).client c = op.start := by
  simp [State.afterCall, hlive]

theorem afterCall_client_of_ne (s : State Thread) {c d : Thread} (hdc : d ≠ c) (op : Op) :
    (s.afterCall c op).client d = s.client d := by
  by_cases hlive : s.shared.destroyed = 0 <;> simp [State.afterCall, hlive, hdc]

theorem afterCall_client_of_destroyed {s : State Thread} (hdestroyed : s.shared.destroyed ≠ 0)
    (c d : Thread) (op : Op) : (s.afterCall c op).client d = s.client d := by
  simp [State.afterCall, hdestroyed]

end OfcDarwin.Thread
