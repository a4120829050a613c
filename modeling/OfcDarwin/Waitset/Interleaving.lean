import OfcDarwin.Lib.Transition
import OfcDarwin.Waitset.Model

/-!
# One wait set, any number of threads

A scheduler thread registers the set as its own and then loops

```text
if (ofc_thread_is_deleting_impl(self)) exit; else ofc_waitset_wait_impl(set);
```

while other threads set and reset events, fill and empty wait queues and add
handles to the set, and one thread deletes the scheduler thread.

* The scheduler's steps are single accesses: one `read` of the pipe, one round
  of the scan up to its test, the reset of a tested event, the return of `poll`.
  Fetching the next handle of the queue goes with the test of that handle, as
  a handle once linked in stays where it is.
* `ofc_event_set_impl` takes four: lock and store, look the wait set up, write,
  unlock.  The mutex keeps `ofc_event_test` and `ofc_event_reset` out in
  between.
* The pipe holds at most `capacity` messages, and a write to a full pipe drops
  its message.

`ofc_waitset_debug` and the association of a handle with an application are
left out; of `ofc_handle_set_app` only the wait set is kept.
-/

namespace OfcDarwin.Waitset

open Transition

/-! ## The state -/

/-- What the threads share: the world of the wait, the queue of the set, whether
an event's wait set is this one, who holds an event's mutex, and two fields of
the scheduler's `DARWIN_THREAD`, where `registered` says whether `wait_set` is
this set. -/
structure Shared (Thread : Type) where
  world : World
  hHandleQueue : List Handle
  associated : Handle → Bool
  mutex : Handle → Option Thread
  deleteMe : Bool
  registered : Bool

/-- The scheduler thread. -/
inductive Scheduler where
  /-- Before `ofc_thread_set_waitset_impl`. -/
  | starting
  /-- Before `ofc_thread_is_deleting_impl`; a wait returns to here. -/
  | checking
  | exited
  | purging
  | scanning (index : ℕ) (scan : Scan)
  /-- The scan has found an auto-reset event and resets it next. -/
  | resetting (hEvent : Handle)
  /-- Blocked in `poll`. -/
  | polling (scan : Scan)
  /-- In `PollEvent`, before a `read`. -/
  | reading (scan : Scan)
  /-- In `PollEvent`, with a message for an event of the queue. -/
  | testing (scan : Scan) (element : EventElement)
  | consuming (scan : Scan) (element : EventElement)
deriving DecidableEq, Repr

/-- A thread inside one of its operations. -/
inductive Client where
  | idle
  /-- Before the lock of `ofc_event_set_impl`. -/
  | setting (hEvent : Handle)
  /-- The event is signalled, its wait set is not yet looked up. -/
  | stored (hEvent : Handle)
  | signalling (hEvent : Handle)
  | unlocking (hEvent : Handle)
  /-- In `ofc_waitset_add_impl`, before `ofc_handle_set_app`. -/
  | associating (hEvent : Handle)
  | looking (hEvent hAssoc : Handle)
  | notifying (hAssoc : Handle)
deriving DecidableEq, Repr

/-- The thread that runs `ofc_thread_delete_impl`. -/
inductive Deleter where
  | idle
  /-- `deleteMe` is stored, `wait_set` is not yet read. -/
  | flagged
  | waking
  | done
deriving DecidableEq, Repr

structure State (Thread : Type) where
  shared : Shared Thread
  scheduler : Scheduler
  client : Thread → Client
  deleter : Deleter

/-- Why `poll` returns: the pipe is readable, or a descriptor, a timeout or an
error. -/
inductive PollReturn where
  | pipe
  | other
deriving DecidableEq, Repr

/-- The operations of a client. -/
inductive Op where
  | set (hEvent : Handle)
  | reset (hEvent : Handle)
  | enqueue (hWaitQ : Handle)
  | dequeue (hWaitQ : Handle)
  | add (hEvent : Handle)
deriving DecidableEq, Repr

/-- One step of one thread; `environment` is time passing and sockets changing. -/
inductive Action (Thread : Type) where
  | scheduler (reason : PollReturn)
  | call (t : Thread) (op : Op)
  | client (t : Thread)
  | deleter
  | environment (waitTime : Handle → ℤ) (socket : Handle → Option Socket.OfcSocketImpl)

/-! ## Accesses -/

variable {Thread : Type}

namespace Shared

variable (m : Shared Thread)

/-- No thread is inside the critical section of `ofc_event_set_impl`. -/
def free (hEvent : Handle) : Bool := (m.mutex hEvent).isNone

/-- `write(pipe_files[1], &hEvent, ..)` by `ofc_waitset_signal_impl`. -/
def signal (capacity : ℕ) (hEvent : Handle) : Shared Thread :=
  if m.world.pipe.length < capacity then
    { m with world := { m.world with pipe := m.world.pipe ++ [hEvent] } }
  else m

/-- What a read leaves in the pipe. -/
def setPipe (rest : List Handle) : Shared Thread :=
  { m with world := { m.world with pipe := rest } }

/-- `ofc_event_reset`. -/
def eventReset (hEvent : Handle) : Shared Thread :=
  { m with world := m.world.eventReset hEvent }

/-- Lock and store of `ofc_event_set_impl`. -/
def store [DecidableEq Thread] (t : Thread) (hEvent : Handle) (event : DarwinEvent) :
    Shared Thread :=
  { m with
    world := { m.world with event := Function.update m.world.event hEvent (some event.set) }
    mutex := Function.update m.mutex hEvent (some t) }

/-- Unlock of `ofc_event_set_impl`. -/
def unlock (hEvent : Handle) : Shared Thread :=
  { m with mutex := Function.update m.mutex hEvent none }

/-- `ofc_handle_set_app(hAssoc, hApp, hSet)`. -/
def setApp (hAssoc : Handle) : Shared Thread :=
  { m with associated := Function.update m.associated hAssoc true }

/-- The number of elements in a wait queue changes. -/
def setWaitq (hWaitQ : Handle) (length : ℕ) : Shared Thread :=
  { m with world := { m.world with waitq := Function.update m.world.waitq hWaitQ length } }

/-- A handle is linked into `hHandleQueue`. -/
def link (hEvent : Handle) : Shared Thread :=
  { m with hHandleQueue := m.hHandleQueue ++ [hEvent] }

@[simp] theorem store_event [DecidableEq Thread] (t : Thread) (hEvent : Handle)
    (event : DarwinEvent) : (m.store t hEvent event).world.event =
      Function.update m.world.event hEvent (some event.set) := rfl

@[simp] theorem setWaitq_waitq (hWaitQ : Handle) (length : ℕ) :
    (m.setWaitq hWaitQ length).world.waitq = Function.update m.world.waitq hWaitQ length := rfl

@[simp] theorem setApp_associated (hAssoc : Handle) :
    (m.setApp hAssoc).associated = Function.update m.associated hAssoc true := rfl

/-- A write changes nothing but the pipe. -/
theorem signal_eq_setPipe (capacity : ℕ) (hEvent : Handle) :
    ∃ pipe, m.signal capacity hEvent = m.setPipe pipe := by
  unfold signal
  split
  · exact ⟨_, rfl⟩
  · exact ⟨m.world.pipe, rfl⟩

/-- After a write there is something in the pipe, even when it was full. -/
theorem signal_pipe_ne_nil {capacity : ℕ} (hcapacity : 1 ≤ capacity) (hEvent : Handle) :
    (m.signal capacity hEvent).world.pipe ≠ [] := by
  unfold signal
  split
  · simp
  · rename_i hfull
    intro hempty
    rw [hempty] at hfull
    exact hfull hcapacity

end Shared

/-- The event that the scan tests for a handle. -/
def testedEvent (core : Core) (h : Handle) : Option Handle :=
  match core.handleGetType h with
  | .event => some h
  | .fsdarwinOverlapped =>
      if core.fsDarwin then some (core.fsDarwinGetOverlappedEvent h) else none
  | _ => none

/-! ## The programs -/

/-- One round of the scan. -/
def Scheduler.round (core : Core) (m : Shared Thread) (index : ℕ) (scan : Scan) (h : Handle) :
    Scheduler :=
  match inspect core m.world h with
  | .triggered true =>
      if m.world.eventGetType h = .auto then .resetting h else .checking
  | .triggered false => .checking
  | finding => .scanning (index + 1) (scan.note h finding)

/-- The scheduler thread. -/
def Scheduler.next (core : Core) (pipeFile : ℤ) (reason : PollReturn) (m : Shared Thread) :
    Scheduler → Option (Scheduler × Shared Thread)
  | .starting => some (.checking, { m with registered := true })
  | .checking => some (if m.deleteMe then .exited else .purging, m)
  | .exited => none
  | .purging =>
      match m.world.pipe with
      | [] => some (.scanning 0 (Scan.start core pipeFile), m)
      | _ :: rest => some (.purging, m.setPipe rest)
  | .scanning index scan =>
      match m.hHandleQueue[index]? with
      | none => some (.polling scan, m)
      | some h =>
          if h = handleNull then some (.polling scan, m)
          -- a test waits for the mutex of its event
          else if (testedEvent core h).all m.free then some (.round core m index scan h, m)
          else none
  | .resetting hEvent =>
      if m.free hEvent then some (.checking, m.eventReset hEvent) else none
  | .polling scan =>
      match reason with
      | .pipe => if m.world.pipe ≠ [] then some (.reading scan, m) else none
      | .other => some (.checking, m)
  | .reading scan =>
      match m.world.pipe with
      | [] => some (.checking, m)
      | hEvent :: rest =>
          if hEvent = handleNull then some (.checking, m.setPipe rest)
          else
            match scan.eventQueue.find? (·.hEvent = hEvent) with
            | none => some (.reading scan, m.setPipe rest)
            | some element => some (.testing scan element, m.setPipe rest)
  | .testing scan element =>
      if m.free element.hEvent then
        some
          (if m.world.eventTest element.hEvent then
              if m.world.eventGetType element.hEvent = .auto then .consuming scan element
              else if element.hAssoc = handleNull then .reading scan
              else .checking
            else .reading scan, m)
      else none
  | .consuming scan element =>
      if m.free element.hEvent then
        some (if element.hAssoc = handleNull then .reading scan else .checking,
          m.eventReset element.hEvent)
      else none

/-- The first step of an operation, from its call on. -/
def Op.start (m : Shared Thread) (core : Core) : Op → Option (Client × Shared Thread)
  | .set hEvent => some (.setting hEvent, m)
  | .reset hEvent => if m.free hEvent then some (.idle, m.eventReset hEvent) else none
  | .enqueue hWaitQ =>
      some (.setting (core.waitqGetEventHandle hWaitQ),
        m.setWaitq hWaitQ (m.world.waitq hWaitQ + 1))
  | .dequeue hWaitQ => some (.idle, m.setWaitq hWaitQ (m.world.waitq hWaitQ - 1))
  | .add hEvent =>
      if hEvent = handleNull then none else some (.associating hEvent, m.link hEvent)

/-- An operation, step by step. -/
def Client.next [DecidableEq Thread] (core : Core) (capacity : ℕ) (t : Thread)
    (m : Shared Thread) : Client → Option (Client × Shared Thread)
  | .idle => none
  | .setting hEvent =>
      match m.world.event hEvent with
      -- the handle does not resolve
      | none => some (.idle, m)
      | some event => if m.free hEvent then some (.stored hEvent, m.store t hEvent event) else none
  | .stored hEvent =>
      some (if m.associated hEvent then .signalling hEvent else .unlocking hEvent, m)
  | .signalling hEvent => some (.unlocking hEvent, m.signal capacity hEvent)
  | .unlocking hEvent => some (.idle, m.unlock hEvent)
  | .associating hEvent =>
      match addAssoc core hEvent with
      | none => some (.idle, m)
      | some hAssoc => some (.looking hEvent hAssoc, m.setApp hAssoc)
  | .looking hEvent hAssoc =>
      -- `ofc_waitq_empty` is the only one of the tests that takes no event mutex
      if core.handleGetType hEvent = .waitQueue ∨ m.free hAssoc then
        some (if addReady core m.world hEvent hAssoc then .notifying hAssoc else .idle, m)
      else none
  | .notifying hAssoc => some (.idle, m.signal capacity hAssoc)

/-- `ofc_thread_delete_impl`. -/
def Deleter.next (capacity : ℕ) (m : Shared Thread) : Deleter → Option (Deleter × Shared Thread)
  | .idle => some (.flagged, { m with deleteMe := true })
  -- without a wait set there is nobody to wake
  | .flagged => some (if m.registered then .waking else .done, m)
  | .waking => some (.done, m.signal capacity handleNull)
  | .done => none

/-- The scheduler is on its way from the look at `deleteMe` to `poll`, or in it. -/
def Scheduler.heading : Scheduler → Prop
  | .purging | .scanning _ _ | .polling _ => True
  | _ => False

/-- The steps of the scheduler, as far as they lead to `poll`; of the others it
says what they do to the shared state. -/
inductive Scheduler.Moved (core : Core) (m : Shared Thread) :
    Scheduler → Scheduler → Shared Thread → Prop where
  | register : Moved core m .starting .checking { m with registered := true }
  | check : Moved core m .checking (if m.deleteMe then .exited else .purging) m
  | discard (rest : List Handle) : Moved core m .purging .purging (m.setPipe rest)
  | purged (scan : Scan) : Moved core m .purging (.scanning 0 scan) m
  | scanned {index : ℕ} {scan : Scan}
      (hend : ∀ h ∈ m.hHandleQueue[index]?, h = handleNull) :
      Moved core m (.scanning index scan) (.polling scan) m
  | inspected {index : ℕ} {scan : Scan} {h : Handle} (hget : m.hHandleQueue[index]? = some h)
      (hpresent : h ≠ handleNull) :
      Moved core m (.scanning index scan) (.round core m index scan h) m
  | elsewhere {pc pc' : Scheduler} {m' : Shared Thread} (hpc : pc ≠ .starting)
      (hpc' : ¬ pc'.heading)
      (hshared : m' = m ∨ (∃ rest, m' = m.setPipe rest) ∨ ∃ hEvent, m' = m.eventReset hEvent) :
      Moved core m pc pc' m'

theorem Scheduler.moved {core : Core} {pipeFile : ℤ} {reason : PollReturn}
    {m m' : Shared Thread} {pc pc' : Scheduler}
    (hnext : pc.next core pipeFile reason m = some (pc', m')) : pc.Moved core m pc' m' := by
  cases pc with
  | starting =>
      obtain ⟨rfl, rfl⟩ := Prod.mk.inj (Option.some.inj hnext)
      exact .register
  | checking =>
      obtain ⟨rfl, rfl⟩ := Prod.mk.inj (Option.some.inj hnext)
      exact .check
  | exited => exact absurd hnext (by simp [Scheduler.next])
  | purging =>
      rw [Scheduler.next] at hnext
      split at hnext
      · obtain ⟨rfl, rfl⟩ := Prod.mk.inj (Option.some.inj hnext)
        exact .purged _
      · obtain ⟨rfl, rfl⟩ := Prod.mk.inj (Option.some.inj hnext)
        exact .discard _
  | scanning index scan =>
      rw [Scheduler.next] at hnext
      split at hnext
      · rename_i hend
        obtain ⟨rfl, rfl⟩ := Prod.mk.inj (Option.some.inj hnext)
        exact .scanned (by rw [hend]; exact nofun)
      · rename_i h hget
        by_cases hpresent : h = handleNull
        · rw [if_pos hpresent] at hnext
          obtain ⟨rfl, rfl⟩ := Prod.mk.inj (Option.some.inj hnext)
          refine .scanned fun g hmem => ?_
          rw [hget] at hmem
          exact Option.some.inj hmem ▸ hpresent
        · rw [if_neg hpresent, Option.ite_none_right_eq_some] at hnext
          obtain ⟨rfl, rfl⟩ := Prod.mk.inj (Option.some.inj hnext.2)
          exact .inspected hget hpresent
  | resetting hEvent =>
      rw [Scheduler.next, Option.ite_none_right_eq_some] at hnext
      obtain ⟨rfl, rfl⟩ := Prod.mk.inj (Option.some.inj hnext.2)
      exact .elsewhere nofun id (Or.inr (Or.inr ⟨hEvent, rfl⟩))
  | polling scan =>
      cases reason with
      | pipe =>
          rw [Scheduler.next, Option.ite_none_right_eq_some] at hnext
          obtain ⟨rfl, rfl⟩ := Prod.mk.inj (Option.some.inj hnext.2)
          exact .elsewhere nofun id (Or.inl rfl)
      | other =>
          obtain ⟨rfl, rfl⟩ := Prod.mk.inj (Option.some.inj hnext)
          exact .elsewhere nofun id (Or.inl rfl)
  | reading scan =>
      rw [Scheduler.next] at hnext
      split at hnext
      · obtain ⟨rfl, rfl⟩ := Prod.mk.inj (Option.some.inj hnext)
        exact .elsewhere nofun id (Or.inl rfl)
      · repeat' split at hnext
        all_goals
          obtain ⟨rfl, rfl⟩ := Prod.mk.inj (Option.some.inj hnext)
          exact .elsewhere nofun id (Or.inr (Or.inl ⟨_, rfl⟩))
  | testing scan element =>
      rw [Scheduler.next, Option.ite_none_right_eq_some] at hnext
      obtain ⟨rfl, rfl⟩ := Prod.mk.inj (Option.some.inj hnext.2)
      refine .elsewhere nofun ?_ (Or.inl rfl)
      repeat' split
      all_goals exact id
  | consuming scan element =>
      rw [Scheduler.next, Option.ite_none_right_eq_some] at hnext
      obtain ⟨rfl, rfl⟩ := Prod.mk.inj (Option.some.inj hnext.2)
      refine .elsewhere nofun ?_ (Or.inr (Or.inr ⟨_, rfl⟩))
      split <;> exact id

/-- What the scheduler can do to the shared state. -/
theorem scheduler_shared {core : Core} {pipeFile : ℤ} {reason : PollReturn}
    {m m' : Shared Thread} {pc pc' : Scheduler}
    (hnext : pc.next core pipeFile reason m = some (pc', m')) :
    m' = m ∨ pc = .starting ∧ m' = { m with registered := true } ∨
      (∃ rest, m' = m.setPipe rest) ∨ ∃ hEvent, m' = m.eventReset hEvent := by
  cases Scheduler.moved hnext with
  | register => exact Or.inr (Or.inl ⟨rfl, rfl⟩)
  | discard rest => exact Or.inr (Or.inr (Or.inl ⟨rest, rfl⟩))
  | elsewhere _ _ hshared => exact hshared.imp_right Or.inr
  | _ => exact Or.inl rfl

/-! ## The system -/

variable [DecidableEq Thread]

namespace State

def moveScheduler (s : State Thread) (pc : Scheduler) (m : Shared Thread) : State Thread :=
  { s with scheduler := pc, shared := m }

def moveClient (s : State Thread) (t : Thread) (pc : Client) (m : Shared Thread) :
    State Thread :=
  { s with client := Function.update s.client t pc, shared := m }

def moveDeleter (s : State Thread) (pc : Deleter) (m : Shared Thread) : State Thread :=
  { s with deleter := pc, shared := m }

def moveWorld (s : State Thread) (w : World) : State Thread :=
  { s with shared := { s.shared with world := w } }

end State

/-- The step function of the system. -/
def step (core : Core) (pipeFile : ℤ) (capacity : ℕ) (s : State Thread) :
    Action Thread → Option (State Thread)
  | .scheduler reason =>
      (s.scheduler.next core pipeFile reason s.shared).map fun next =>
        s.moveScheduler next.1 next.2
  | .call t op =>
      if s.client t = .idle then
        (op.start s.shared core).map fun next => s.moveClient t next.1 next.2
      else none
  | .client t =>
      ((s.client t).next core capacity t s.shared).map fun next => s.moveClient t next.1 next.2
  | .deleter =>
      (s.deleter.next capacity s.shared).map fun next => s.moveDeleter next.1 next.2
  | .environment waitTime socket =>
      some (s.moveWorld { s.shared.world with waitTime := waitTime, socket := socket })

/-- The event of an `EVENT` or `WAIT_QUEUE` handle. -/
def ownEvent (core : Core) (h : Handle) : Option Handle :=
  match core.handleGetType h with
  | .event => some h
  | .waitQueue => some (core.waitqGetEventHandle h)
  | _ => none

/-- A set in use: it holds handles that have been added, each wait queue has its
event, and no thread is in the middle of anything. -/
structure Initial (core : Core) (s : State Thread) : Prop where
  present : ∀ h ∈ s.shared.hHandleQueue, h ≠ handleNull
  live : ∀ h, core.handleGetType h = .waitQueue →
    (s.shared.world.event (core.waitqGetEventHandle h)).isSome
  associated : ∀ h ∈ s.shared.hHandleQueue, ∀ hEvent ∈ ownEvent core h,
    s.shared.associated hEvent = true
  free : ∀ h, s.shared.mutex h = none
  scheduler : s.scheduler = .starting
  client : ∀ t, s.client t = .idle
  deleter : s.deleter = .idle
  deleteMe : s.shared.deleteMe = false

/-! ## What one step can do -/

variable {core : Core} {pipeFile : ℤ} {capacity : ℕ} {s u : State Thread}

theorem scheduler_inv {reason : PollReturn}
    (hstep : step core pipeFile capacity s (.scheduler reason) = some u) :
    ∃ pc m, s.scheduler.next core pipeFile reason s.shared = some (pc, m) ∧
      u = s.moveScheduler pc m := by
  obtain ⟨⟨pc, m⟩, hnext, rfl⟩ := Option.map_eq_some_iff.mp hstep
  exact ⟨pc, m, hnext, rfl⟩

theorem call_inv {t : Thread} {op : Op}
    (hstep : step core pipeFile capacity s (.call t op) = some u) :
    s.client t = .idle ∧ ∃ pc m, op.start s.shared core = some (pc, m) ∧
      u = s.moveClient t pc m := by
  simp only [step, Option.ite_none_right_eq_some] at hstep
  obtain ⟨hidle, hstep⟩ := hstep
  obtain ⟨⟨pc, m⟩, hstart, rfl⟩ := Option.map_eq_some_iff.mp hstep
  exact ⟨hidle, pc, m, hstart, rfl⟩

theorem client_inv {t : Thread} (hstep : step core pipeFile capacity s (.client t) = some u) :
    ∃ pc m, (s.client t).next core capacity t s.shared = some (pc, m) ∧
      u = s.moveClient t pc m := by
  obtain ⟨⟨pc, m⟩, hnext, rfl⟩ := Option.map_eq_some_iff.mp hstep
  exact ⟨pc, m, hnext, rfl⟩

theorem deleter_inv (hstep : step core pipeFile capacity s .deleter = some u) :
    ∃ pc m, s.deleter.next capacity s.shared = some (pc, m) ∧ u = s.moveDeleter pc m := by
  obtain ⟨⟨pc, m⟩, hnext, rfl⟩ := Option.map_eq_some_iff.mp hstep
  exact ⟨pc, m, hnext, rfl⟩

theorem environment_inv {waitTime : Handle → ℤ} {socket : Handle → Option Socket.OfcSocketImpl}
    (hstep : step core pipeFile capacity s (.environment waitTime socket) = some u) :
    u = s.moveWorld { s.shared.world with waitTime := waitTime, socket := socket } :=
  (Option.some.inj hstep).symm

end OfcDarwin.Waitset
