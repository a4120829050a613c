import Mathlib.Logic.Function.Basic
import OfcDarwin.Handle
import OfcDarwin.Lib.Descriptors
import OfcDarwin.Lib.Transition

/-!
# A wait set that is destroyed

One thread waits on a set, any number of threads signal it, through
`ofc_event_set_impl` or `ofc_waitset_wake_impl`, and one thread runs
`ofc_waitset_destroy_impl`.  `ofc_waitset_signal_impl` is four steps:

```text
pWaitSet = ofc_handle_lock(handle);              locking
DarwinWaitSet = pWaitSet->impl;                  locked
ofc_handle_unlock(handle);                       loaded
write(DarwinWaitSet->pipe_files[1], ..);         writing
```

and a wait likewise uses the pipe after its unlock, in `PollEvent`.  The lock
excludes nobody.  When the core library calls `ofc_handle_destroy` on the set is not
part of this code, so that is a step that may come at any time.

Other threads of the process open and close descriptors of their own, and an open may
get a number that the destroy has closed.  What is in the pipe, what `poll` answers
and how the scan of the set ends are the business of the other modules and any choice
here.
-/

namespace OfcDarwin.Waitset.Destroy

open Descriptors

/-! ## The state -/

/-- What a descriptor number stands for. -/
inductive Endpoint where
  | pipeRead
  | pipeWrite
  /-- Something that another part of the process has opened. -/
  | other
deriving DecidableEq, Repr

/-- The uses of the pipe. -/
inductive Use where
  /-- The `write` of `ofc_waitset_signal_impl`. -/
  | write (hEvent : Handle)
  /-- A `read` of `PollEvent`. -/
  | read
deriving DecidableEq, Repr

/-- A use through a released `DARWIN_WAIT_SET` or of a number that the destroy has
closed, with what the number stands for. -/
structure Late where
  use : Use
  fd : ℤ
  file : Option Endpoint
deriving DecidableEq, Repr

/-- What the threads share: whether the handle of the set resolves, whether
`pWaitSet->impl` is other than `OFC_NULL`, the `pipe_files` of the `DARWIN_WAIT_SET`,
which stay in memory, whether it is released and which numbers the destroy has
closed, the descriptors of the process, and the events whose wait set is this one. -/
structure Shared where
  resolves : Bool
  impl : Bool
  pipeFiles : ℤ × ℤ
  released : Bool
  closed : ℤ → Bool
  kernel : Table Endpoint
  associated : Handle → Bool
  late : List Late

/-- A thread in `ofc_event_set_impl` or `ofc_waitset_wake_impl`. -/
inductive Signaller where
  | idle
  /-- Before `ofc_handle_get_wait_set`. -/
  | setting (hEvent : Handle)
  | locking (hEvent : Handle)
  | locked (hEvent : Handle)
  /-- With `pWaitSet->impl` in a local. -/
  | loaded (hEvent : Handle) (impl : Bool)
  | writing (hEvent : Handle) (impl : Bool)
deriving DecidableEq, Repr

/-- The thread in `ofc_waitset_wait_impl`. -/
inductive Waiter where
  | away
  | locked
  /-- Reading the pipe until it is empty, with `pWaitSet->impl` in a local. -/
  | purging (impl : Bool)
  /-- Before `darwin_handle_list[0].fd = DarwinWaitSet->pipe_files[0]`. -/
  | filling
  /-- In the scan of the set, at whose end the handle is unlocked. -/
  | scanning
  | polling
  /-- Before `PollEvent(DarwinWaitSet->pipe_files[0], ..)`. -/
  | entering
  /-- In `PollEvent`, with its argument, which may come from a released set. -/
  | reading (fd : ℤ) (stale : Bool)
deriving DecidableEq, Repr

/-- The thread in `ofc_waitset_destroy_impl`, by what comes next. -/
inductive Destroyer where
  | closingRead
  | closingWrite
  | freeing
  /-- Before `pWaitSet->impl = OFC_NULL`. -/
  | clearing
  | done
deriving DecidableEq, Repr

structure State (Thread : Type) where
  shared : Shared
  signaller : Thread → Signaller
  waiter : Waiter
  destroyer : Destroyer

/-- What a signalling thread calls. -/
inductive Op where
  | set (hEvent : Handle)
  | wake
deriving DecidableEq, Repr

/-- The first step of an operation. -/
def Op.start : Op → Signaller
  | .set hEvent => .setting hEvent
  -- `ofc_waitset_wake_impl` signals with `OFC_HANDLE_NULL`
  | .wake => .locking handleNull

/-- One step of one thread.  `goOn` is the branch that the wait takes. -/
inductive Action (Thread : Type) where
  | call (t : Thread) (op : Op)
  | signaller (t : Thread)
  | wait
  | waiter (goOn : Bool)
  | destroyer
  /-- `ofc_handle_destroy` on the handle of the set. -/
  | handleDestroy
  | otherOpen (fd : ℤ)
  | otherClose (fd : ℤ)

/-! ## The programs -/

namespace Shared

/-- A use of the pipe on a number; `stale` when it was found in a released set. -/
def use (m : Shared) (use : Use) (stale : Bool) (fd : ℤ) : Shared :=
  { m with
    late :=
      if stale ∨ m.closed fd then
        m.late ++ [{ use := use, fd := fd, file := (m.kernel.slot fd).map Open.state }]
      else m.late }

/-- `close` by the destroy. -/
def close (m : Shared) (fd : ℤ) : Shared :=
  { m with kernel := m.kernel.close fd, closed := Function.update m.closed fd true }

end Shared

/-- `ofc_event_set_impl` from the lookup of the wait set, and `ofc_waitset_signal_impl`. -/
def Signaller.next (m : Shared) : Signaller → Option (Signaller × Shared)
  | .idle => none
  | .setting hEvent => some (if m.associated hEvent then .locking hEvent else .idle, m)
  | .locking hEvent => some (if m.resolves then .locked hEvent else .idle, m)
  | .locked hEvent => some (.loaded hEvent m.impl, m)
  | .loaded hEvent impl => some (.writing hEvent impl, m)
  | .writing hEvent impl =>
      -- a read through `OFC_NULL` ends the process
      if impl then some (.idle, m.use (.write hEvent) m.released m.pipeFiles.2) else none

/-- `ofc_waitset_wait_impl`. -/
def Waiter.next (m : Shared) (goOn : Bool) : Waiter → Option (Waiter × Shared)
  | .away => none
  | .locked => some (.purging m.impl, m)
  | .purging impl => if impl then some (if goOn then .purging impl else .filling, m) else none
  | .filling => some (.scanning, m)
  -- a handle that the scan finds triggered is returned without a poll
  | .scanning => some (if goOn then .polling else .away, m)
  | .polling => some (if goOn then .entering else .away, m)
  | .entering => some (.reading m.pipeFiles.1 m.released, m)
  | .reading fd stale => some (if goOn then .reading fd stale else .away, m.use .read stale fd)

/-- `ofc_waitset_destroy_impl`. -/
def Destroyer.next (m : Shared) : Destroyer → Option (Destroyer × Shared)
  | .closingRead => some (.closingWrite, m.close m.pipeFiles.1)
  | .closingWrite => some (.freeing, m.close m.pipeFiles.2)
  | .freeing => some (.clearing, { m with released := true })
  | .clearing => some (.done, { m with impl := false })
  | .done => none

/-! ## The system -/

variable {Thread : Type}

/-- A set with its pipe, before any thread comes to it. -/
def initial (Thread : Type) (pipeFiles : ℤ × ℤ) (associated : Handle → Bool) : State Thread :=
  { shared :=
      { resolves := true
        impl := true
        pipeFiles := pipeFiles
        released := false
        closed := fun _ => false
        kernel := (Table.empty.install pipeFiles.1 .pipeRead).install pipeFiles.2 .pipeWrite
        associated := associated
        late := [] }
    signaller := fun _ => .idle
    waiter := .away
    destroyer := .closingRead }

/-- The step function of the system. -/
def step [DecidableEq Thread] (s : State Thread) : Action Thread → Option (State Thread)
  | .call t op =>
      if s.signaller t = .idle then
        some { s with signaller := Function.update s.signaller t op.start }
      else none
  | .signaller t =>
      ((s.signaller t).next s.shared).map fun (pc, m) =>
        { s with shared := m, signaller := Function.update s.signaller t pc }
  | .wait =>
      if s.waiter = .away then
        some (if s.shared.resolves then { s with waiter := .locked } else s)
      else none
  | .waiter goOn =>
      (s.waiter.next s.shared goOn).map fun (pc, m) => { s with shared := m, waiter := pc }
  | .destroyer =>
      (s.destroyer.next s.shared).map fun (pc, m) => { s with shared := m, destroyer := pc }
  | .handleDestroy => some { s with shared := { s.shared with resolves := false } }
  | .otherOpen fd =>
      if 0 ≤ fd ∧ s.shared.kernel.serial? fd = none then
        some { s with shared := { s.shared with kernel := s.shared.kernel.install fd .other } }
      else none
  | .otherClose fd =>
      if (s.shared.kernel.slot fd).map Open.state = some .other then
        some { s with shared := { s.shared with kernel := s.shared.kernel.close fd } }
      else none

end OfcDarwin.Waitset.Destroy
