import OfcDarwin.Event.Interleaving

/-!
# How many waiters a set of an auto-reset event releases

A set stores the flag and broadcasts, so every sleeper becomes runnable, and a
sleeper that resumes returns without looking at the flag again.  One set may
therefore release any number of waiters.

What holds in every run is the balance `Balanced`: a wait that returned either
took the flag that some set had stored, or counts as `unsignalled`.  For an
auto-reset event the flag is a function of the schedule alone: it is set exactly
when the last set, reset, wait or resumption was a set.  This gives the exact
condition on a schedule, `HandedOver`: each resumption comes when a set was the
last of these operations.
-/

namespace OfcDarwin.Event

open Transition

variable {Thread : Type} [DecidableEq Thread]

/-! ## The balance of sets and returns -/

/-- Waits that have returned, and a flag still set, are paid for by sets or by
returns that found the flag clear. -/
def Balanced (s : State Thread) : Prop :=
  s.returns + s.event.signalled.toNat ≤ s.sets + s.unsignalled

theorem finishWait_balanced {s : State Thread} (hauto : s.event.eventType = .auto)
    (hbal : Balanced s) (t : Thread) : Balanced (s.finishWait t) := by
  have hclear : (s.finishWait t).event.signalled = false :=
    DarwinEvent.release_signalled_of_auto hauto
  unfold Balanced at hbal ⊢
  rw [hclear]
  cases hsignalled : s.event.signalled <;>
    simp [State.finishWait, hsignalled] at hbal ⊢ <;> omega

theorem step_balanced {s u : State Thread} {a : Action Thread}
    (hauto : s.event.eventType = .auto) (hbal : Balanced s) (hstep : step s a = some u) :
    Balanced u := by
  cases a with
  | set t =>
      obtain ⟨-, rfl⟩ := set_inv hstep
      simp only [Balanced, State.afterSet, DarwinEvent.set_signalled, Bool.toNat_true] at hbal ⊢
      omega
  | reset t =>
      obtain ⟨-, rfl⟩ := reset_inv hstep
      simp only [Balanced, DarwinEvent.reset_signalled, Bool.toNat_false] at hbal ⊢
      omega
  | test t => obtain ⟨-, rfl⟩ := test_inv hstep; exact hbal
  | wait t =>
      obtain ⟨-, ⟨-, rfl⟩ | ⟨-, rfl⟩⟩ := wait_inv hstep
      · exact finishWait_balanced hauto hbal t
      · exact hbal
  | wakeup t => obtain ⟨-, rfl⟩ := wakeup_inv hstep; exact hbal
  | resume t => obtain ⟨-, rfl⟩ := resume_inv hstep; exact finishWait_balanced hauto hbal t

/-- In every run of an auto-reset event the returns exceed the sets by no more
than the number of waits that returned with the flag clear. -/
theorem run_balanced {u : State Thread} {actions : List (Action Thread)}
    (hrun : run step (initial Thread .auto) actions = some u) : Balanced u := by
  have hboth : u.event.eventType = .auto ∧ Balanced u := by
    refine run_induction (I := fun s => s.event.eventType = .auto ∧ Balanced s) ?_ ?_ hrun
    · intro s a t hs hstep
      exact ⟨(step_eventType hstep).trans hs.1, step_balanced hs.1 hs.2 hstep⟩
    · exact ⟨rfl, by simp [Balanced, initial, ofcEventCreateImpl]⟩
  exact hboth.2

/-! ## The flag as a function of the schedule -/

/-- Whether a set is the last operation that wrote the flag, after one more
action.  A wait clears the flag of an auto-reset event or finds it clear. -/
def Action.armed (armed : Bool) : Action Thread → Bool
  | .set _ => true
  | .reset _ | .wait _ | .resume _ => false
  | .test _ | .wakeup _ => armed

/-- Each resumption of a sleeper comes while a set is the last operation that
wrote the flag: no reset, no other wait and no other resumption lies between the
set and the resumption. -/
def HandedOver : Bool → List (Action Thread) → Prop
  | _, [] => True
  | armed, .resume t :: rest =>
      armed = true ∧ HandedOver (Action.armed armed (.resume t)) rest
  | armed, a :: rest => HandedOver (Action.armed armed a) rest

omit [DecidableEq Thread] in
theorem handedOver_cons {armed : Bool} {a : Action Thread} {rest : List (Action Thread)} :
    HandedOver armed (a :: rest) ↔
      ((∃ t, a = .resume t) → armed = true) ∧ HandedOver (Action.armed armed a) rest := by
  cases a <;> simp [HandedOver]

/-- The flag of an auto-reset event follows the schedule. -/
theorem step_signalled {s u : State Thread} {a : Action Thread}
    (hauto : s.event.eventType = .auto) (hstep : step s a = some u) :
    u.event.signalled = Action.armed s.event.signalled a := by
  cases a with
  | set t => obtain ⟨-, rfl⟩ := set_inv hstep; rfl
  | reset t => obtain ⟨-, rfl⟩ := reset_inv hstep; rfl
  | test t => obtain ⟨-, rfl⟩ := test_inv hstep; rfl
  | wait t =>
      obtain ⟨-, ⟨-, rfl⟩ | ⟨hclear, rfl⟩⟩ := wait_inv hstep
      · exact DarwinEvent.release_signalled_of_auto hauto
      · exact hclear
  | wakeup t => obtain ⟨-, rfl⟩ := wakeup_inv hstep; rfl
  | resume t =>
      obtain ⟨-, rfl⟩ := resume_inv hstep
      exact DarwinEvent.release_signalled_of_auto hauto

/-- A step adds an unsignalled return exactly when it resumes a sleeper with the
flag clear. -/
theorem step_unsignalled_eq_iff {s u : State Thread} {a : Action Thread}
    (hstep : step s a = some u) :
    u.unsignalled = s.unsignalled ↔ ((∃ t, a = .resume t) → s.event.signalled = true) := by
  cases a with
  | set t => obtain ⟨-, rfl⟩ := set_inv hstep; simp [State.afterSet]
  | reset t => obtain ⟨-, rfl⟩ := reset_inv hstep; simp
  | test t => obtain ⟨-, rfl⟩ := test_inv hstep; simp
  | wait t =>
      obtain ⟨-, ⟨hset, rfl⟩ | ⟨-, rfl⟩⟩ := wait_inv hstep
      · simp [State.finishWait, hset]
      · simp [State.afterSleep]
  | wakeup t => obtain ⟨-, rfl⟩ := wakeup_inv hstep; simp
  | resume t =>
      obtain ⟨-, rfl⟩ := resume_inv hstep
      cases hsignalled : s.event.signalled <;> simp [State.finishWait, hsignalled]

/-- A run has no unsignalled return exactly when its schedule hands every set
over. -/
theorem run_unsignalled_eq_iff {s u : State Thread} {actions : List (Action Thread)}
    (hauto : s.event.eventType = .auto) (hrun : run step s actions = some u) :
    u.unsignalled = s.unsignalled ↔ HandedOver s.event.signalled actions := by
  induction actions generalizing s with
  | nil =>
      cases hrun
      simp [HandedOver]
  | cons a rest ih =>
      obtain ⟨t, hstep, hrest⟩ := run_cons_eq_some.mp hrun
      have htail := ih ((step_eventType hstep).trans hauto) hrest
      rw [step_signalled hauto hstep] at htail
      rw [handedOver_cons, ← step_unsignalled_eq_iff hstep, ← htail]
      -- the count never goes down, so it is unchanged only if both parts leave it
      have hfirst := step_unsignalled_le hstep
      have hlast := run_unsignalled_le hrest
      omega

/-! ## Releases per set -/

/-- One set releases at most one waiter, and none returns without a flag to take,
at every point of a run exactly when the schedule hands every set over. -/
theorem auto_releases_iff {u : State Thread} {actions : List (Action Thread)}
    (hrun : run step (initial Thread .auto) actions = some u) :
    (∀ before after : List (Action Thread), actions = before ++ after →
        ∀ s, run step (initial Thread .auto) before = some s →
          s.returns ≤ s.sets ∧ s.unsignalled = 0) ↔
      HandedOver false actions := by
  have hiff : u.unsignalled = 0 ↔ HandedOver false actions :=
    run_unsignalled_eq_iff (s := initial Thread .auto) rfl hrun
  constructor
  · intro hall
    exact hiff.mp (hall actions [] (List.append_nil actions).symm u hrun).2
  · rintro hhanded before after rfl s hbefore
    obtain ⟨s', hs', hafter⟩ := run_prefix hrun
    obtain rfl : s = s' := Option.some.inj (hbefore.symm.trans hs')
    have hzero : s.unsignalled = 0 := by
      have hle := run_unsignalled_le hafter
      rw [hiff.mpr hhanded] at hle
      omega
    have hbal : s.returns + s.event.signalled.toNat ≤ s.sets + s.unsignalled :=
      run_balanced hbefore
    exact ⟨by omega, hzero⟩

/-- A waiter sleeps, a set wakes it, it resumes: one return for one set. -/
theorem auto_releases_one_waiter :
    HandedOver false [.wait 0, .set 1, .resume (0 : ℕ)] ∧
      ∀ before after : List (Action ℕ), [.wait 0, .set 1, .resume 0] = before ++ after →
        ∀ s, run step (initial ℕ .auto) before = some s →
          s.returns ≤ s.sets ∧ s.unsignalled = 0 := by
  have hhanded : HandedOver false [.wait 0, .set 1, .resume (0 : ℕ)] := ⟨rfl, trivial⟩
  exact ⟨hhanded,
    (auto_releases_iff (u := (((initial ℕ .auto).afterSleep 0).afterSet).finishWait 0) rfl).mpr
      hhanded⟩

/-- Two sleepers, one set, two returns. -/
theorem auto_releases_two_waiters :
    ¬ ∀ (actions : List (Action ℕ)) (s : State ℕ),
        run step (initial ℕ .auto) actions = some s → s.returns ≤ s.sets := by
  intro hall
  have hcounts : (run step (initial ℕ .auto)
      [.wait 0, .wait 1, .set 2, .resume 0, .resume 1]).map
        (fun s => (s.sets, s.returns)) = some (1, 2) := by decide
  obtain ⟨s, hrun, hs⟩ := Option.map_eq_some_iff.mp hcounts
  have hle := hall _ s hrun
  rw [Prod.mk.injEq] at hs
  omega

end OfcDarwin.Event
