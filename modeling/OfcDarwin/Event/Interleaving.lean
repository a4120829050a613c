import Mathlib.Order.Nat
import OfcDarwin.Event.Model
import OfcDarwin.Lib.Transition

/-!
# One event, any number of threads

Threads call `ofc_event_set_impl`, `ofc_event_reset_impl`, `ofc_event_test_impl`
and `ofc_event_wait_impl` on one live event.  Each critical section under the
event's mutex is one action.  `pthread_cond_wait` releases the mutex and sleeps
in one action, becomes runnable through a broadcast or a spurious wakeup, and
takes the mutex again when it resumes.

`ofc_event_wait_impl` tests the flag once:

```text
if (!signalled) pthread_cond_wait(...);     call, asleep | resume
if (eventType == OFC_EVENT_AUTO) signalled = OFC_FALSE;
```

so the code after the sleep is what `resume` runs, whatever the flag is then.

`sets`, `returns` and `unsignalled` are history, written by the actions and read
by none of them: the number of set calls, of waits that have returned, and of
waits that returned while the flag was clear.
-/

namespace OfcDarwin.Event

open Transition

/-- Where a thread is with respect to `ofc_event_wait_impl`. -/
inductive Waiter where
  /-- Not inside a wait. -/
  | away
  /-- Asleep in `pthread_cond_wait`. -/
  | asleep
  /-- Woken, waiting for the mutex. -/
  | runnable
deriving DecidableEq, Repr

/-- The event, its threads, and the history of the run. -/
structure State (Thread : Type) where
  event : DarwinEvent
  waiter : Thread → Waiter
  sets : ℕ
  returns : ℕ
  unsignalled : ℕ

/-- One critical section, or one wakeup that no broadcast asked for. -/
inductive Action (Thread : Type) where
  | set (t : Thread)
  | reset (t : Thread)
  | test (t : Thread)
  | wait (t : Thread)
  | wakeup (t : Thread)
  | resume (t : Thread)

variable {Thread : Type} [DecidableEq Thread]

/-- `pthread_cond_broadcast`: every sleeper becomes runnable. -/
def broadcast (waiter : Thread → Waiter) (t : Thread) : Waiter :=
  match waiter t with
  | .asleep => .runnable
  | other => other

namespace State

/-- The end of a wait: `if (eventType == OFC_EVENT_AUTO) signalled = OFC_FALSE`,
unlock, return. -/
def finishWait (s : State Thread) (t : Thread) : State Thread :=
  { s with
    event := s.event.release
    waiter := Function.update s.waiter t .away
    returns := s.returns + 1
    unsignalled := if s.event.signalled then s.unsignalled else s.unsignalled + 1 }

/-- A set: store `OFC_TRUE`, broadcast. -/
def afterSet (s : State Thread) : State Thread :=
  { s with event := s.event.set, waiter := broadcast s.waiter, sets := s.sets + 1 }

/-- A wait that found the flag clear sleeps. -/
def afterSleep (s : State Thread) (t : Thread) : State Thread :=
  { s with waiter := Function.update s.waiter t .asleep }

end State

/-- The step function of the system. -/
def step (s : State Thread) : Action Thread → Option (State Thread)
  | .set t => if s.waiter t = .away then some s.afterSet else none
  | .reset t =>
      if s.waiter t = .away then some { s with event := s.event.reset } else none
  | .test t => if s.waiter t = .away then some s else none
  | .wait t =>
      if s.waiter t = .away then
        some (if s.event.signalled then s.finishWait t else s.afterSleep t)
      else none
  | .wakeup t =>
      if s.waiter t = .asleep then
        some { s with waiter := Function.update s.waiter t .runnable }
      else none
  -- the source tests the flag with `if`, so nothing is tested again here
  | .resume t => if s.waiter t = .runnable then some (s.finishWait t) else none

/-- A fresh event of the given type, with every thread outside a wait. -/
def initial (Thread : Type) (eventType : EventType) : State Thread :=
  { event := ofcEventCreateImpl eventType
    waiter := fun _ => .away
    sets := 0
    returns := 0
    unsignalled := 0 }

/-! ## What one step can do -/

theorem set_inv {s u : State Thread} {t : Thread} (hstep : step s (.set t) = some u) :
    s.waiter t = .away ∧ u = s.afterSet := by
  simpa [step, eq_comm] using hstep

theorem reset_inv {s u : State Thread} {t : Thread} (hstep : step s (.reset t) = some u) :
    s.waiter t = .away ∧ u = { s with event := s.event.reset } := by
  simpa [step, eq_comm] using hstep

theorem test_inv {s u : State Thread} {t : Thread} (hstep : step s (.test t) = some u) :
    s.waiter t = .away ∧ u = s := by
  simpa [step, eq_comm] using hstep

theorem wait_inv {s u : State Thread} {t : Thread} (hstep : step s (.wait t) = some u) :
    s.waiter t = .away ∧
      (s.event.signalled = true ∧ u = s.finishWait t ∨
        s.event.signalled = false ∧ u = s.afterSleep t) := by
  simp only [step, Option.ite_none_right_eq_some, Option.some.injEq] at hstep
  obtain ⟨haway, rfl⟩ := hstep
  cases hsignalled : s.event.signalled <;> simp [haway]

theorem wakeup_inv {s u : State Thread} {t : Thread} (hstep : step s (.wakeup t) = some u) :
    s.waiter t = .asleep ∧ u = { s with waiter := Function.update s.waiter t .runnable } := by
  simpa [step, eq_comm] using hstep

theorem resume_inv {s u : State Thread} {t : Thread} (hstep : step s (.resume t) = some u) :
    s.waiter t = .runnable ∧ u = s.finishWait t := by
  simpa [step, eq_comm] using hstep

/-- No step changes the type of the event. -/
theorem step_eventType {s u : State Thread} {a : Action Thread} (hstep : step s a = some u) :
    u.event.eventType = s.event.eventType := by
  cases a with
  | set t => obtain ⟨-, rfl⟩ := set_inv hstep; rfl
  | reset t => obtain ⟨-, rfl⟩ := reset_inv hstep; rfl
  | test t => obtain ⟨-, rfl⟩ := test_inv hstep; rfl
  | wait t =>
      obtain ⟨-, ⟨-, rfl⟩ | ⟨-, rfl⟩⟩ := wait_inv hstep
      · exact s.event.release_eventType
      · rfl
  | wakeup t => obtain ⟨-, rfl⟩ := wakeup_inv hstep; rfl
  | resume t =>
      obtain ⟨-, rfl⟩ := resume_inv hstep
      exact s.event.release_eventType

/-- The count of waits that returned with the flag clear never goes down. -/
theorem step_unsignalled_le {s u : State Thread} {a : Action Thread}
    (hstep : step s a = some u) : s.unsignalled ≤ u.unsignalled := by
  have hfinish : ∀ t, s.unsignalled ≤ (s.finishWait t).unsignalled := by
    intro t
    simp only [State.finishWait]
    split <;> omega
  cases a with
  | set t => obtain ⟨-, rfl⟩ := set_inv hstep; exact le_rfl
  | reset t => obtain ⟨-, rfl⟩ := reset_inv hstep; exact le_rfl
  | test t => obtain ⟨-, rfl⟩ := test_inv hstep; exact le_rfl
  | wait t =>
      obtain ⟨-, ⟨-, rfl⟩ | ⟨-, rfl⟩⟩ := wait_inv hstep
      · exact hfinish t
      · exact le_rfl
  | wakeup t => obtain ⟨-, rfl⟩ := wakeup_inv hstep; exact le_rfl
  | resume t => obtain ⟨-, rfl⟩ := resume_inv hstep; exact hfinish t

theorem run_unsignalled_le {s u : State Thread} {actions : List (Action Thread)}
    (hrun : run step s actions = some u) : s.unsignalled ≤ u.unsignalled :=
  run_induction (I := fun v => s.unsignalled ≤ v.unsignalled)
    (fun _ _ _ hle hstep => hle.trans (step_unsignalled_le hstep)) le_rfl hrun

end OfcDarwin.Event
