import OfcDarwin.Waitset.NoLostEvent
import OfcDarwin.Waitset.Sequential

/-!
# When a wake is lost

`ofc_thread_delete_impl` stores `deleteMe` and writes `OFC_HANDLE_NULL` to the
pipe.  The scheduler misses the store when it has already looked, and then only
the message keeps it out of `poll`.  But a wait begins with a purge of the pipe,

```text
/* Purge any additional queued events.  We'll get these before we
 * sleep the next time */
```

which is right for events, as the scan finds them again, and wrong for a wake,
of which nothing is left.  So a wake gets through if it is not written between
the look at `deleteMe` and the end of the purge: `no_lost_wake`.  Otherwise the
thread can sleep through its own deletion: `lost_wake`, and it can do so from
every state in which the wake is about to be written too early and no handle of
the set is ready: `lost_wake_of_purging`.
-/

namespace OfcDarwin.Waitset

open Transition

variable {Thread : Type} {core : Core} {pipeFile : ℤ} {capacity : ℕ}

/-- The wake is not written between a look at `deleteMe` and the end of the purge
that follows it. -/
def WakeAfterPurge (s : State Thread) : Action Thread → Prop
  | .deleter => s.deleter = .waking → s.scheduler ≠ .purging
  | _ => True

instance (s : State Thread) (a : Action Thread) : Decidable (WakeAfterPurge s a) :=
  match a with
  | .deleter => inferInstanceAs (Decidable (s.deleter = .waking → s.scheduler ≠ .purging))
  | .scheduler _ | .call _ _ | .client _ | .environment _ _ => isTrue trivial

/-- A deletion that the scheduler has not seen will still wake it, or has left a
message which the purge does not take. -/
structure Woken (s : State Thread) : Prop where
  registered : s.scheduler ≠ .starting → s.shared.registered = true
  heading : s.scheduler.heading → s.shared.deleteMe = true →
    (s.deleter = .flagged ∨ s.deleter = .waking) ∨
      s.scheduler ≠ .purging ∧ s.shared.world.pipe ≠ []

/-! ## The threads -/

section Threads

variable {m m' : Shared Thread}

/-- The scheduler heads for `poll` only past a look at `deleteMe`, and reads the
pipe only while it purges. -/
theorem next_heading {pc pc' : Scheduler} {reason : PollReturn}
    (hnext : pc.next core pipeFile reason m = some (pc', m')) (hheading : pc'.heading) :
    pc = .checking ∧ m.deleteMe = false ∧ m' = m ∨
      pc.heading ∧ (pc ≠ .purging → pc' ≠ .purging ∧ m' = m) := by
  cases Scheduler.moved hnext with
  | register => exact hheading.elim
  | check =>
      cases hdelete : m.deleteMe with
      | false => exact Or.inl ⟨rfl, rfl, rfl⟩
      | true =>
          rw [hdelete] at hheading
          exact hheading.elim
  | discard rest => exact Or.inr ⟨trivial, fun hne => absurd rfl hne⟩
  | purged scan => exact Or.inr ⟨trivial, fun hne => absurd rfl hne⟩
  | scanned hend => exact Or.inr ⟨trivial, fun _ => ⟨by simp, rfl⟩⟩
  | inspected hget hpresent =>
      refine Or.inr ⟨trivial, fun _ => ⟨?_, rfl⟩⟩
      rw [Scheduler.round]
      repeat' split
      all_goals simp
  | elsewhere _ hpc' _ => exact absurd hheading hpc'

/-- What a client leaves alone: the deletion, and a message once it is there. -/
structure Undisturbed (m m' : Shared Thread) : Prop where
  deleteMe : m'.deleteMe = m.deleteMe
  registered : m'.registered = m.registered
  pipe : m.world.pipe ≠ [] → m'.world.pipe ≠ []

theorem signal_undisturbed (hcapacity : 1 ≤ capacity) (hEvent : Handle) :
    Undisturbed m (m.signal capacity hEvent) := by
  have hne := m.signal_pipe_ne_nil hcapacity hEvent
  obtain ⟨pipe, heq⟩ := m.signal_eq_setPipe capacity hEvent
  rw [heq] at hne ⊢
  exact ⟨rfl, rfl, fun _ => hne⟩

theorem start_undisturbed {op : Op} {pc' : Client} (hstart : op.start m core = some (pc', m')) :
    Undisturbed m m' := by
  cases op <;> rw [Op.start] at hstart
  case reset hEvent =>
    rw [Option.ite_none_right_eq_some] at hstart
    obtain ⟨-, rfl⟩ := Prod.mk.inj (Option.some.inj hstart.2)
    exact ⟨rfl, rfl, id⟩
  case add hEvent =>
    rw [Option.ite_none_left_eq_some] at hstart
    obtain ⟨-, rfl⟩ := Prod.mk.inj (Option.some.inj hstart.2)
    exact ⟨rfl, rfl, id⟩
  all_goals
    obtain ⟨-, rfl⟩ := Prod.mk.inj (Option.some.inj hstart)
    exact ⟨rfl, rfl, id⟩

theorem next_undisturbed [DecidableEq Thread] (hcapacity : 1 ≤ capacity) {t : Thread}
    {pc pc' : Client} (hnext : pc.next core capacity t m = some (pc', m')) :
    Undisturbed m m' := by
  cases pc <;> rw [Client.next] at hnext
  case idle => exact absurd hnext (by simp)
  case setting hEvent =>
    split at hnext
    · obtain ⟨-, rfl⟩ := Prod.mk.inj (Option.some.inj hnext)
      exact ⟨rfl, rfl, id⟩
    · rw [Option.ite_none_right_eq_some] at hnext
      obtain ⟨-, rfl⟩ := Prod.mk.inj (Option.some.inj hnext.2)
      exact ⟨rfl, rfl, id⟩
  case associating hEvent =>
    split at hnext
    all_goals
      obtain ⟨-, rfl⟩ := Prod.mk.inj (Option.some.inj hnext)
      exact ⟨rfl, rfl, id⟩
  case looking hEvent hAssoc =>
    rw [Option.ite_none_right_eq_some] at hnext
    obtain ⟨-, rfl⟩ := Prod.mk.inj (Option.some.inj hnext.2)
    exact ⟨rfl, rfl, id⟩
  case signalling hEvent =>
    obtain ⟨-, rfl⟩ := Prod.mk.inj (Option.some.inj hnext)
    exact signal_undisturbed hcapacity hEvent
  case notifying hEvent =>
    obtain ⟨-, rfl⟩ := Prod.mk.inj (Option.some.inj hnext)
    exact signal_undisturbed hcapacity hEvent
  all_goals
    obtain ⟨-, rfl⟩ := Prod.mk.inj (Option.some.inj hnext)
    exact ⟨rfl, rfl, id⟩

end Threads

/-! ## The invariant -/

theorem Woken.of_undisturbed {s u : State Thread} (hwoken : Woken s)
    (hscheduler : u.scheduler = s.scheduler) (hdeleter : u.deleter = s.deleter)
    (hshared : Undisturbed s.shared u.shared) : Woken u := by
  obtain ⟨hregistered, hheading⟩ := hwoken
  obtain ⟨hdelete, hregister, hpipe⟩ := hshared
  refine ⟨?_, ?_⟩
  · rw [hscheduler, hregister]
    exact hregistered
  · rw [hscheduler, hdelete, hdeleter]
    intro h hdeleted
    exact (hheading h hdeleted).imp_right fun hleft => ⟨hleft.1, hpipe hleft.2⟩

theorem Woken.moveScheduler {s : State Thread} (hwoken : Woken s) {reason : PollReturn}
    {pc : Scheduler} {m : Shared Thread}
    (hnext : s.scheduler.next core pipeFile reason s.shared = some (pc, m)) :
    Woken (s.moveScheduler pc m) := by
  have hdelete : m.deleteMe = s.shared.deleteMe := by
    rcases scheduler_shared hnext with rfl | ⟨-, rfl⟩ | ⟨rest, rfl⟩ | ⟨hEvent, rfl⟩ <;> rfl
  refine ⟨fun _ => ?_, fun hheading hdeleted => ?_⟩
  · show m.registered = true
    by_cases hstart : s.scheduler = .starting
    · rw [hstart] at hnext
      obtain ⟨-, rfl⟩ := Prod.mk.inj (Option.some.inj hnext)
      rfl
    · have hregistered := hwoken.registered hstart
      rcases scheduler_shared hnext with rfl | ⟨hpc, -⟩ | ⟨rest, rfl⟩ | ⟨hEvent, rfl⟩
      · exact hregistered
      · exact absurd hpc hstart
      · exact hregistered
      · exact hregistered
  · replace hdeleted : s.shared.deleteMe = true := hdelete ▸ hdeleted
    rcases next_heading hnext hheading with ⟨-, hclear, -⟩ | ⟨hbefore, hkeeps⟩
    · rw [hclear] at hdeleted
      exact absurd hdeleted (by decide)
    · rcases hwoken.heading hbefore hdeleted with hdeleter | ⟨hpurge, hpipe⟩
      · exact Or.inl hdeleter
      · -- past the purge the scheduler reads no message on its way to `poll`
        obtain ⟨hpurge', rfl⟩ := hkeeps hpurge
        exact Or.inr ⟨hpurge', hpipe⟩

theorem Woken.moveDeleter (hcapacity : 1 ≤ capacity) {s : State Thread} (hwoken : Woken s)
    (hafter : s.deleter = .waking → s.scheduler ≠ .purging) {pc : Deleter} {m : Shared Thread}
    (hnext : s.deleter.next capacity s.shared = some (pc, m)) : Woken (s.moveDeleter pc m) := by
  cases hpc : s.deleter <;> rw [hpc] at hnext
  case idle =>
    obtain ⟨rfl, rfl⟩ := Prod.mk.inj (Option.some.inj hnext)
    exact ⟨hwoken.registered, fun _ _ => Or.inl (Or.inl rfl)⟩
  case flagged =>
    obtain ⟨rfl, rfl⟩ := Prod.mk.inj (Option.some.inj hnext)
    refine ⟨hwoken.registered, fun hheading _ => Or.inl (Or.inr ?_)⟩
    -- a scheduler on its way to `poll` has registered its set, so the wake will be written
    have hregistered : s.shared.registered = true := hwoken.registered fun hstart => by
      rw [State.moveDeleter, hstart] at hheading
      exact hheading.elim
    exact if_pos hregistered
  case waking =>
    obtain ⟨rfl, rfl⟩ := Prod.mk.inj (Option.some.inj hnext)
    refine ⟨fun hstart => ?_, fun _ _ => Or.inr ⟨hafter hpc, ?_⟩⟩
    -- even if the pipe was full and dropped the wake, it is not empty
    · exact (signal_undisturbed hcapacity handleNull).registered.trans (hwoken.registered hstart)
    · exact s.shared.signal_pipe_ne_nil hcapacity handleNull
  case done => exact absurd hnext (by simp [Deleter.next])

theorem initial_woken {s : State Thread} (hinitial : Initial core s) : Woken s := by
  refine ⟨fun hstart => absurd hinitial.scheduler hstart, fun hheading => ?_⟩
  rw [hinitial.scheduler] at hheading
  exact hheading.elim

theorem step_woken [DecidableEq Thread] (hcapacity : 1 ≤ capacity) (s : State Thread)
    (a : Action Thread) (u : State Thread) (hwoken : Woken s) (hafter : WakeAfterPurge s a)
    (hstep : step core pipeFile capacity s a = some u) : Woken u := by
  cases a with
  | scheduler reason =>
      obtain ⟨pc, m, hnext, rfl⟩ := scheduler_inv hstep
      exact hwoken.moveScheduler hnext
  | call t op =>
      obtain ⟨-, pc, m, hstart, rfl⟩ := call_inv hstep
      exact hwoken.of_undisturbed rfl rfl (start_undisturbed hstart)
  | client t =>
      obtain ⟨pc, m, hnext, rfl⟩ := client_inv hstep
      exact hwoken.of_undisturbed rfl rfl (next_undisturbed hcapacity hnext)
  | deleter =>
      obtain ⟨pc, m, hnext, rfl⟩ := deleter_inv hstep
      exact hwoken.moveDeleter hcapacity hafter hnext
  | environment waitTime socket =>
      rw [environment_inv hstep]
      exact hwoken.of_undisturbed rfl rfl ⟨rfl, rfl, id⟩

/-- In a run whose wake is not written between the look at `deleteMe` and the end
of the purge, the scheduler is not blocked in `poll` over an empty pipe once its
deletion has completed. -/
theorem no_lost_wake [DecidableEq Thread] (hcapacity : 1 ≤ capacity) {s u : State Thread}
    {actions : List (Action Thread)} (hinitial : Initial core s)
    (halong : Along (step core pipeFile capacity) WakeAfterPurge s actions)
    (hrun : run (step core pipeFile capacity) s actions = some u) :
    ¬ ((∃ scan, u.scheduler = .polling scan) ∧ u.shared.world.pipe = [] ∧
      u.shared.deleteMe = true ∧ u.deleter = .done) := by
  have hwoken : Woken u :=
    run_induction_along (step_woken hcapacity) (initial_woken hinitial) halong hrun
  rintro ⟨⟨scan, hscheduler⟩, hpipe, hdeleted, hdone⟩
  have hheading : u.scheduler.heading := by
    rw [hscheduler]
    trivial
  rcases hwoken.heading hheading hdeleted with hdeleter | ⟨-, hne⟩
  · rw [hdone] at hdeleter
    exact absurd hdeleter (by decide)
  · exact hne hpipe

/-- The scheduler goes to `poll`, and its thread is deleted. -/
theorem no_lost_wake_in_poll :
    ∃ u, run (step exampleCore 9 1) exampleState
        [.scheduler .other, .scheduler .other, .scheduler .other, .scheduler .other,
          .scheduler .other, .deleter, .deleter, .deleter] = some u ∧
      ¬ ((∃ scan, u.scheduler = .polling scan) ∧ u.shared.world.pipe = [] ∧
        u.shared.deleteMe = true ∧ u.deleter = .done) := by
  obtain ⟨u, hrun⟩ : ∃ u, run (step exampleCore 9 1) exampleState
      [.scheduler .other, .scheduler .other, .scheduler .other, .scheduler .other,
        .scheduler .other, .deleter, .deleter, .deleter] = some u := ⟨_, rfl⟩
  exact ⟨u, hrun, no_lost_wake (le_refl 1) exampleState_initial (by decide) hrun⟩

/-- The scheduler finds `deleteMe` clear, the wake is written, and the purge
takes it. -/
theorem lost_wake :
    Initial exampleCore exampleState ∧ ∃ u, run (step exampleCore 9 1) exampleState
        [.scheduler .other, .scheduler .other, .deleter, .deleter, .deleter, .scheduler .other,
          .scheduler .other, .scheduler .other, .scheduler .other] = some u ∧
      (∃ scan, u.scheduler = .polling scan) ∧ u.shared.world.pipe = [] ∧
        u.shared.deleteMe = true ∧ u.deleter = .done :=
  ⟨exampleState_initial, _, rfl, ⟨_, rfl⟩, rfl, rfl, rfl⟩

/-! ## The condition is needed -/

/-- From a state in which the wake is about to be written before the end of the
purge, and no handle of the set is ready, the scheduler can go on to sleep. -/
theorem lost_wake_of_purging [DecidableEq Thread] {s : State Thread}
    (hscheduler : s.scheduler = .purging) (hdeleter : s.deleter = .waking)
    (hdeleted : s.shared.deleteMe = true) (hfree : ∀ h, s.shared.mutex h = none)
    (hquiet : ∀ h ∈ members s.shared.hHandleQueue,
      (inspect core s.shared.world h).isTriggered = false) :
    ∃ n u, run (step core pipeFile capacity) s (.deleter :: alone n) = some u ∧
      (∃ scan, u.scheduler = .polling scan) ∧ u.shared.world.pipe = [] ∧
        u.shared.deleteMe = true ∧ u.deleter = .done := by
  obtain ⟨pipe, hsignal⟩ := s.shared.signal_eq_setPipe capacity handleNull
  have hwake : step core pipeFile capacity s .deleter =
      some (s.moveDeleter .done (s.shared.setPipe pipe)) := by
    rw [step, hdeleter, Deleter.next, hsignal]
    rfl
  obtain ⟨n, hrun⟩ := @wait_alone Thread _ core pipeFile capacity
    (s.moveDeleter .done (s.shared.setPipe pipe)) hscheduler hfree
  rcases @scanQueue_cases core s.shared.world.purge s.shared.hHandleQueue
      (Scan.start core pipeFile) rfl with ⟨hpasses, hscan⟩ |
    ⟨before, h, after, consumed, scan, hmembers, -, -, hfinding, -⟩
  · have hscanned := @scanned_noteAll core s.shared.world.purge pipeFile _ hpasses
    refine ⟨n, _, run_cons_eq_some.mpr ⟨_, hwake, hrun⟩,
      ⟨noteAll core s.shared.world.purge (members s.shared.hHandleQueue)
        (Scan.start core pipeFile), ?_⟩, ?_, hdeleted, rfl⟩
    · show Scheduler.afterScan (scanQueue core s.shared.hHandleQueue _ s.shared.world.purge).1 = _
      rw [hscan, Scheduler.afterScan, if_pos hscanned.triggered]
    · show (scanQueue core s.shared.hHandleQueue _ s.shared.world.purge).2.pipe = _
      rw [hscan]
      rfl
  · have hmem : h ∈ members s.shared.hHandleQueue := by
      rw [hmembers]
      exact List.mem_append_right before List.mem_cons_self
    have hnot := hquiet h hmem
    rw [← inspect_purge, hfinding] at hnot
    exact absurd hnot (by simp [Finding.isTriggered])

end OfcDarwin.Waitset
