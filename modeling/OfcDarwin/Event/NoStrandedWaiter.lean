import OfcDarwin.Event.Interleaving

/-!
# No sleeper is left behind by a set

The flag is stored and the broadcast made in one critical section, so a thread
asleep on the condition variable and a set flag never meet in a state where the
mutex is free (`NoStranded`).  A thread goes to sleep only in a section that found
the flag clear.

A sleeper that a set has made runnable stays so until it resumes, whatever other
threads do to the flag: nothing but its own resumption moves it (`Passed`).  Its
resumption runs to the end of `ofc_event_wait_impl` without a second test.
-/

namespace OfcDarwin.Event

open Transition

variable {Thread : Type} [DecidableEq Thread]

/-! ## The flag and the sleepers -/

/-- While the flag is set no thread sleeps. -/
def NoStranded (s : State Thread) : Prop :=
  s.event.signalled = true → ∀ t, s.waiter t ≠ .asleep

omit [DecidableEq Thread] in
theorem initial_noStranded (eventType : EventType) :
    NoStranded (initial Thread eventType) :=
  fun _ _ => nofun

omit [DecidableEq Thread] in
/-- After a broadcast no thread sleeps. -/
theorem broadcast_ne_asleep (waiter : Thread → Waiter) (t : Thread) :
    broadcast waiter t ≠ .asleep := by
  cases hwaiter : waiter t <;> simp [broadcast, hwaiter]

/-- The thread that leaves a wait can only clear the flag. -/
theorem release_signalled_le {event : DarwinEvent} (hset : event.release.signalled = true) :
    event.signalled = true := by
  cases hsignalled : event.signalled with
  | true => rfl
  | false =>
      unfold DarwinEvent.release at hset
      split at hset <;> simp_all

theorem finishWait_noStranded {s : State Thread} (hs : NoStranded s) (t : Thread) :
    NoStranded (s.finishWait t) := by
  intro hset other
  have hasleep : s.waiter other ≠ .asleep := hs (release_signalled_le hset) other
  by_cases hsame : other = t
  · subst hsame
    simp [State.finishWait]
  · simpa [State.finishWait, Function.update_of_ne hsame] using hasleep

theorem step_noStranded {s u : State Thread} {a : Action Thread} (hs : NoStranded s)
    (hstep : step s a = some u) : NoStranded u := by
  cases a with
  | set t =>
      obtain ⟨-, rfl⟩ := set_inv hstep
      intro _ other
      exact broadcast_ne_asleep s.waiter other
  | reset t =>
      obtain ⟨-, rfl⟩ := reset_inv hstep
      intro hset
      simp at hset
  | test t => obtain ⟨-, rfl⟩ := test_inv hstep; exact hs
  | wait t =>
      obtain ⟨-, ⟨-, rfl⟩ | ⟨hclear, rfl⟩⟩ := wait_inv hstep
      · exact finishWait_noStranded hs t
      · -- the section that puts a thread to sleep leaves the flag clear
        intro hset
        simp [State.afterSleep, hclear] at hset
  | wakeup t =>
      obtain ⟨-, rfl⟩ := wakeup_inv hstep
      intro hset other
      by_cases hsame : other = t
      · subst hsame
        simp
      · simpa [Function.update_of_ne hsame] using hs hset other
  | resume t =>
      obtain ⟨-, rfl⟩ := resume_inv hstep
      exact finishWait_noStranded hs t

/-- In every state of every run, a set flag means that nobody sleeps. -/
theorem run_noStranded {eventType : EventType} {u : State Thread}
    {actions : List (Action Thread)}
    (hrun : run step (initial Thread eventType) actions = some u) : NoStranded u :=
  run_induction (fun _ _ _ hs hstep => step_noStranded hs hstep)
    (initial_noStranded eventType) hrun

/-! ## A runnable thread -/

/-- A runnable thread stays runnable in every step but its own resumption. -/
theorem step_runnable {s u : State Thread} {a : Action Thread} {t : Thread}
    (hrunnable : s.waiter t = .runnable) (hother : a ≠ .resume t)
    (hstep : step s a = some u) : u.waiter t = .runnable := by
  have hmoved : ∀ {actor : Thread} {was now : Waiter}, s.waiter actor = was →
      was ≠ .runnable → Function.update s.waiter actor now t = .runnable := by
    intro actor was now hwas hne
    rw [Function.update_of_ne, hrunnable]
    rintro rfl
    exact hne (hwas.symm.trans hrunnable)
  cases a with
  | set actor =>
      obtain ⟨-, rfl⟩ := set_inv hstep
      simp [State.afterSet, broadcast, hrunnable]
  | reset actor => obtain ⟨-, rfl⟩ := reset_inv hstep; exact hrunnable
  | test actor => obtain ⟨-, rfl⟩ := test_inv hstep; exact hrunnable
  | wait actor =>
      obtain ⟨haway, ⟨-, rfl⟩ | ⟨-, rfl⟩⟩ := wait_inv hstep
      · exact hmoved haway (by simp)
      · exact hmoved haway (by simp)
  | wakeup actor =>
      obtain ⟨hasleep, rfl⟩ := wakeup_inv hstep
      exact hmoved hasleep (by simp)
  | resume actor =>
      obtain ⟨-, rfl⟩ := resume_inv hstep
      have hne : t ≠ actor := by
        rintro rfl
        exact hother rfl
      simpa [State.finishWait, Function.update_of_ne hne] using hrunnable

theorem run_runnable {s u : State Thread} {actions : List (Action Thread)} {t : Thread}
    (hrunnable : s.waiter t = .runnable) (hother : .resume t ∉ actions)
    (hrun : run step s actions = some u) : u.waiter t = .runnable := by
  induction actions generalizing s with
  | nil =>
      cases hrun
      exact hrunnable
  | cons a rest ih =>
      obtain ⟨v, hstep, hrest⟩ := run_cons_eq_some.mp hrun
      rw [List.mem_cons, not_or] at hother
      exact ih (step_runnable hrunnable (Ne.symm hother.1) hstep) hother.2 hrest

/-- A runnable thread can resume, and its resumption is the return of its wait. -/
theorem step_resume {s : State Thread} {t : Thread} (hrunnable : s.waiter t = .runnable) :
    step s (.resume t) = some (s.finishWait t) := by
  simp [step, hrunnable]

/-! ## Sleepers at a set -/

/-- What a set does for the sleeper `t`: it is runnable in the state `v` after the
set, it is runnable at every later point before its resumption, and the resumption
is enabled there and is the return of its wait. -/
def Passed (v : State Thread) (t : Thread) : Prop :=
  v.waiter t = .runnable ∧
    ∀ (between : List (Action Thread)) (u : State Thread), .resume t ∉ between →
      run step v between = some u →
        u.waiter t = .runnable ∧
          ∃ w, step u (.resume t) = some w ∧ w.waiter t = .away ∧ w.returns = u.returns + 1

theorem set_passed {s v : State Thread} {setter t : Thread} (hasleep : s.waiter t = .asleep)
    (hstep : step s (.set setter) = some v) : Passed v t := by
  obtain ⟨-, rfl⟩ := set_inv hstep
  have hwoken : s.afterSet.waiter t = .runnable := by
    simp [State.afterSet, broadcast, hasleep]
  refine ⟨hwoken, fun between u hother hrun => ?_⟩
  have hrunnable : u.waiter t = .runnable := run_runnable hwoken hother hrun
  exact ⟨hrunnable, u.finishWait t, step_resume hrunnable, by simp [State.finishWait], rfl⟩

/-- No stranded waiter: in every state of every run a set flag means that nobody
sleeps, and a set takes every sleeper of the state it runs in to the end of its
wait. -/
theorem no_stranded_waiter (eventType : EventType) (actions : List (Action Thread))
    (s : State Thread) (hrun : run step (initial Thread eventType) actions = some s) :
    (s.event.signalled = true → ∀ t, s.waiter t ≠ .asleep) ∧
      ∀ (setter t : Thread) (v : State Thread), s.waiter t = .asleep →
        step s (.set setter) = some v → Passed v t :=
  ⟨run_noStranded hrun, fun _ _ _ hasleep hstep => set_passed hasleep hstep⟩

/-- The state in which thread 0 sleeps on a manual event. -/
theorem no_stranded_waiter_one_sleeper :
    (((initial ℕ .manual).afterSleep 0).event.signalled = true →
        ∀ t, ((initial ℕ .manual).afterSleep 0).waiter t ≠ .asleep) ∧
      ∀ (setter t : ℕ) (v : State ℕ),
        ((initial ℕ .manual).afterSleep 0).waiter t = .asleep →
          step ((initial ℕ .manual).afterSleep 0) (.set setter) = some v → Passed v t :=
  no_stranded_waiter .manual [.wait 0] ((initial ℕ .manual).afterSleep 0) rfl

end OfcDarwin.Event
