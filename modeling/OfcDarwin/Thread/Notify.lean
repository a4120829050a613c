import OfcDarwin.Lib.Tally
import OfcDarwin.Thread.Model

/-!
# The end of a thread is told once

`ofc_thread_launch` sets the event `hNotify`, if there is one, after the thread function
has returned.  However the creator, the launched thread and any number of clients take
their turns:

* the event is set once, and not before the thread function has returned (`run_sets`);
* when the handle of the thread is destroyed, the event has been set, unless some clients
  detach the thread while others wait for it (`notifies_once`).

In the exception, a client that waits finds the thread joinable, another detaches it, and
the `pthread_join` of the first fails at once.
-/

namespace OfcDarwin.Thread

open Transition

variable {Thread : Type} [DecidableEq Thread]

/-- The step is the `ofc_event_set(darwinThread->hNotify)` of `ofc_thread_launch`. -/
def notifies (s : State Thread) (a : Action Thread) : Bool :=
  a = .launched ∧ s.launched = .signalling

/-- `ofc_thread_launch` is past its notification. -/
def Launched.told : Launched → Bool
  | .checking | .cancelling | .destroying | .freeing | .ended => true
  | .absent | .entered | .running | .finished | .notifying | .signalling => false

/-- How often the event has been set when `ofc_thread_launch` is at `pc`. -/
def Launched.sets (hNotify : Handle) (pc : Launched) : ℕ :=
  charge (pc.told ∧ hNotify ≠ handleNull)

/-! ## The event is set once -/

theorem Creator.next_hNotify {m m' : Shared} {pc pc' : Creator}
    (hnext : pc.next m = some (pc', m')) :
    m'.record.hNotify = m.record.hNotify ∧ pc' ≠ .creating := by
  cases pc <;> simp only [Creator.next, Option.some.injEq, Prod.mk.injEq, reduceCtorEq] at hnext
  all_goals
    obtain ⟨rfl, rfl⟩ := hnext
    exact ⟨rfl, nofun⟩

theorem Client.next_hNotify {m m' : Shared} {pc pc' : Client}
    (hnext : pc.next m = some (pc', m')) : m'.record.hNotify = m.record.hNotify := by
  cases pc with
  | waitTest =>
      rw [Client.next] at hnext
      split at hnext <;> obtain ⟨-, rfl⟩ := Prod.mk.inj (Option.some.inj hnext) <;> rfl
  | waitJoining =>
      obtain ⟨-, hnext⟩ := Option.ite_none_right_eq_some.mp hnext
      obtain ⟨-, rfl⟩ := Prod.mk.inj (Option.some.inj hnext)
      rfl
  | idle => exact absurd hnext (by simp [Client.next])
  | _ =>
      obtain ⟨-, rfl⟩ := Prod.mk.inj (Option.some.inj hnext)
      rfl

/-- What is known of the notification when the event has been set `n` times. -/
structure Notified (hNotify : Handle) (s : State Thread) (n : ℕ) : Prop where
  record : s.shared.record.hNotify = hNotify
  creating : s.creator = .creating → s.launched = .absent
  signalling : s.launched = .signalling → hNotify ≠ handleNull
  count : n = s.launched.sets hNotify

/-- A step of `ofc_thread_launch` sets the event exactly when it is due. -/
theorem Launched.next_sets {hNotify : Handle} {m m' : Shared} {pc pc' : Launched}
    (hnext : pc.next m = some (pc', m')) (hrecord : m.record.hNotify = hNotify)
    (hsignalling : pc = .signalling → hNotify ≠ handleNull) :
    m'.record.hNotify = hNotify ∧ (pc' = .signalling → hNotify ≠ handleNull) ∧
      pc'.sets hNotify = pc.sets hNotify + charge (pc = .signalling) := by
  cases pc with
  | absent => exact absurd hnext (by simp [Launched.next])
  | ended => exact absurd hnext (by simp [Launched.next])
  | notifying =>
      obtain ⟨rfl, rfl⟩ := Prod.mk.inj (Option.some.inj hnext)
      refine ⟨hrecord, ?_, ?_⟩
      · split
        · exact nofun
        · rename_i hset
          exact fun _ => hrecord ▸ hset
      · split
        · rename_i hnull
          have hnone : hNotify = handleNull := hrecord.symm.trans hnull
          simp [Launched.sets, Launched.told, hnone]
        · simp [Launched.sets, Launched.told]
  | signalling =>
      obtain ⟨rfl, rfl⟩ := Prod.mk.inj (Option.some.inj hnext)
      exact ⟨hrecord, nofun, by simp [Launched.sets, Launched.told, hsignalling rfl]⟩
  | checking =>
      rw [Launched.next] at hnext
      split at hnext
      · obtain ⟨rfl, rfl⟩ := Prod.mk.inj (Option.some.inj hnext)
        exact ⟨hrecord, nofun, by simp [Launched.sets, Launched.told]⟩
      · obtain ⟨rfl, rfl⟩ := Prod.mk.inj (Option.some.inj hnext)
        exact ⟨hrecord, nofun, by simp [Launched.sets, Launched.told]⟩
  | _ =>
      obtain ⟨rfl, rfl⟩ := Prod.mk.inj (Option.some.inj hnext)
      exact ⟨hrecord, nofun, by simp [Launched.sets, Launched.told]⟩

theorem step_notified {hNotify : Handle} {s t : State Thread} {a : Action Thread} {n : ℕ}
    (hnotified : Notified hNotify s n) (hstep : step s a = some t) :
    Notified hNotify t (n + charge (notifies s a)) := by
  cases a with
  | create succeeds =>
      obtain ⟨hcreating, rfl⟩ := create_inv hstep
      have habsent := hnotified.creating hcreating
      have hzero : n = 0 := by
        rw [hnotified.count, habsent]
        rfl
      subst hzero
      cases succeeds with
      | true => exact ⟨hnotified.record, nofun, nofun, rfl⟩
      | false => exact ⟨hnotified.record, nofun, hnotified.signalling, hnotified.count⟩
  | creator =>
      obtain ⟨pc, m, hnext, rfl⟩ := creator_inv hstep
      obtain ⟨hrecord, hpc⟩ := Creator.next_hNotify hnext
      exact ⟨hrecord.trans hnotified.record, fun hcreating => absurd hcreating hpc,
        hnotified.signalling, hnotified.count⟩
  | launched =>
      obtain ⟨pc, m, hnext, rfl⟩ := launched_inv hstep
      obtain ⟨hrecord, hsignalling, hsets⟩ :=
        Launched.next_sets hnext hnotified.record hnotified.signalling
      refine ⟨hrecord, fun hcreating => ?_, hsignalling, ?_⟩
      · have habsent := hnotified.creating hcreating
        rw [habsent] at hnext
        exact absurd hnext (by simp [Launched.next])
      · calc n + charge (notifies s .launched)
            = s.launched.sets hNotify + charge (s.launched = .signalling) := by
              rw [hnotified.count]
              simp [notifies]
          _ = pc.sets hNotify := hsets.symm
  | call c op =>
      obtain ⟨-, -, rfl⟩ := call_inv hstep
      exact ⟨hnotified.record, hnotified.creating, hnotified.signalling, hnotified.count⟩
  | client c =>
      obtain ⟨pc, m, hnext, rfl⟩ := client_inv hstep
      exact ⟨(Client.next_hNotify hnext).trans hnotified.record, hnotified.creating,
        hnotified.signalling, hnotified.count⟩

/-- The event has been set once when `ofc_thread_launch` is past its notification, and
not before. -/
theorem run_sets {record : DarwinThread} {actions : List (Action Thread)} {s : State Thread}
    (hrun : run step (initial Thread record) actions = some s) :
    tally step (fun s a => charge (notifies s a)) (initial Thread record) actions =
      s.launched.sets record.hNotify := by
  have hstart : Notified record.hNotify (initial Thread record) 0 := ⟨rfl, fun _ => rfl, nofun, rfl⟩
  have hcount := (run_induction_tally (I := Notified record.hNotify)
    (fun _ _ _ _ => step_notified) hstart hrun).count
  rwa [Nat.zero_add] at hcount

/-! ## The handle is destroyed after that -/

/-- The client is past its `pthread_join`. -/
def Client.pastJoin : Client → Bool
  | .waitDestroy | .waitFree => true
  | _ => false

/-- The client is in `ofc_thread_detach_impl`. -/
def Client.detaches : Client → Bool
  | .detachStore | .detachThread => true
  | _ => false

/-- The client is in `ofc_thread_wait_impl`. -/
def Client.waits : Client → Bool
  | .waitTest | .waitJoin | .waitJoining | .waitDestroy | .waitFree => true
  | _ => false

/-- What is destroyed is destroyed after the notification, or because there is no
thread. -/
structure Orderly (s : State Thread) : Prop where
  creating : s.creator = .creating → s.launched = .absent
  joined : ∀ c, (s.client c).pastJoin = true → s.launched = .ended
  destroyed : s.shared.destroyed ≠ 0 →
    s.creator = .freeing ∨ s.creator = .gaveUp ∨ s.launched.told = true

/-- A step of a client, for a property of where clients are that every operation starts
with and every step keeps. -/
theorem client_induction {P : Client → Prop} {s t : State Thread} {a : Action Thread}
    (hstart : ∀ c op, a = .call c op → P op.start)
    (hnext : ∀ c pc m, a = .client c → (s.client c).next s.shared = some (pc, m) → P pc)
    (hall : ∀ c, P (s.client c)) (hstep : step s a = some t) : ∀ c, P (t.client c) := by
  cases a with
  | create succeeds =>
      obtain ⟨-, rfl⟩ := create_inv hstep
      cases succeeds <;> exact hall
  | creator =>
      obtain ⟨pc, m, -, rfl⟩ := creator_inv hstep
      exact hall
  | launched =>
      obtain ⟨pc, m, -, rfl⟩ := launched_inv hstep
      exact hall
  | call c op =>
      obtain ⟨-, -, rfl⟩ := call_inv hstep
      intro d
      by_cases hlive : s.shared.destroyed = 0
      · by_cases hsame : d = c
        · subst hsame
          rw [afterCall_client_self hlive]
          exact hstart d op rfl
        · rw [afterCall_client_of_ne s hsame]
          exact hall d
      · rw [afterCall_client_of_destroyed hlive]
        exact hall d
  | client c =>
      obtain ⟨pc, m, hmove, rfl⟩ := client_inv hstep
      intro d
      by_cases hsame : d = c
      · subst hsame
        rw [moveClient_client_self]
        exact hnext d pc m rfl hmove
      · rw [moveClient_client_of_ne s hsame]
        exact hall d

/-- The steps of clients that destroy the handle, and that come past `pthread_join`. -/
theorem Client.next_pastJoin {m m' : Shared} {pc pc' : Client}
    (hnext : pc.next m = some (pc', m')) :
    (m'.destroyed = m.destroyed ∨ pc.pastJoin = true) ∧
      (pc'.pastJoin = true → pc.pastJoin = true ∨ pc = .waitJoining) := by
  cases pc with
  | idle => exact absurd hnext (by simp [Client.next])
  | deleteTest =>
      obtain ⟨rfl, rfl⟩ := Prod.mk.inj (Option.some.inj hnext)
      refine ⟨Or.inl rfl, fun hpast => ?_⟩
      split at hpast <;> exact absurd hpast (by simp [Client.pastJoin])
  | waitTest =>
      rw [Client.next] at hnext
      split at hnext <;> obtain ⟨rfl, rfl⟩ := Prod.mk.inj (Option.some.inj hnext) <;>
        exact ⟨Or.inl rfl, nofun⟩
  | waitJoining =>
      obtain ⟨-, hnext⟩ := Option.ite_none_right_eq_some.mp hnext
      obtain ⟨rfl, rfl⟩ := Prod.mk.inj (Option.some.inj hnext)
      exact ⟨Or.inl rfl, fun _ => Or.inr rfl⟩
  | waitDestroy => exact ⟨Or.inr rfl, fun _ => Or.inl rfl⟩
  | waitFree => exact ⟨Or.inr rfl, fun _ => Or.inl rfl⟩
  | _ =>
      obtain ⟨rfl, rfl⟩ := Prod.mk.inj (Option.some.inj hnext)
      exact ⟨Or.inl rfl, nofun⟩

/-- Past its notification the launched thread stays there, and only there it destroys
the handle. -/
theorem Launched.next_told {m m' : Shared} {pc pc' : Launched}
    (hnext : pc.next m = some (pc', m')) :
    (pc.told = true → pc'.told = true) ∧ (m'.destroyed = m.destroyed ∨ pc'.told = true) := by
  cases pc with
  | absent => exact absurd hnext (by simp [Launched.next])
  | ended => exact absurd hnext (by simp [Launched.next])
  | checking =>
      rw [Launched.next] at hnext
      split at hnext <;> obtain ⟨rfl, rfl⟩ := Prod.mk.inj (Option.some.inj hnext) <;>
        exact ⟨fun _ => rfl, Or.inr rfl⟩
  | cancelling =>
      obtain ⟨rfl, rfl⟩ := Prod.mk.inj (Option.some.inj hnext)
      exact ⟨fun _ => rfl, Or.inr rfl⟩
  | destroying =>
      obtain ⟨rfl, rfl⟩ := Prod.mk.inj (Option.some.inj hnext)
      exact ⟨fun _ => rfl, Or.inr rfl⟩
  | freeing =>
      obtain ⟨rfl, rfl⟩ := Prod.mk.inj (Option.some.inj hnext)
      exact ⟨fun _ => rfl, Or.inr rfl⟩
  | _ =>
      obtain ⟨rfl, rfl⟩ := Prod.mk.inj (Option.some.inj hnext)
      exact ⟨nofun, Or.inl rfl⟩

/-- The steps of `ofc_thread_create_impl` that destroy the handle. -/
theorem Creator.next_destroyed {m m' : Shared} {pc pc' : Creator}
    (hnext : pc.next m = some (pc', m')) :
    (pc = .freeing → pc' = .gaveUp) ∧ pc ≠ .gaveUp ∧
      (m'.destroyed = m.destroyed ∨ pc' = .freeing) := by
  cases pc <;> simp only [Creator.next, Option.some.injEq, Prod.mk.injEq, reduceCtorEq] at hnext
  case created =>
    obtain ⟨rfl, rfl⟩ := hnext
    exact ⟨nofun, nofun, Or.inl rfl⟩
  case failed =>
    obtain ⟨rfl, rfl⟩ := hnext
    exact ⟨nofun, nofun, Or.inr rfl⟩
  case freeing =>
    obtain ⟨rfl, rfl⟩ := hnext
    exact ⟨fun _ => rfl, nofun, Or.inl rfl⟩

/-- A step keeps the order, if no client comes past `pthread_join` before the thread has
ended. -/
theorem step_orderly {s t : State Thread} {a : Action Thread} (horderly : Orderly s)
    (hjoin : ∀ c, a = .client c → s.client c = .waitJoining →
      s.shared.terminated = true ∨ s.shared.detached = true → s.launched = .ended)
    (hstep : step s a = some t) : Orderly t := by
  have hjoined : ∀ c, (t.client c).pastJoin = true → s.launched = .ended := by
    apply client_induction (P := fun pc => pc.pastJoin = true → s.launched = .ended) ?_ ?_
      horderly.joined hstep
    · rintro c op -
      cases op <;> exact nofun
    · rintro c pc m rfl hnext hpast
      rcases (Client.next_pastJoin hnext).2 hpast with hbefore | hjoining
      · exact horderly.joined c hbefore
      · refine hjoin c rfl hjoining ?_
        rw [hjoining] at hnext
        exact (Option.ite_none_right_eq_some.mp hnext).1
  cases a with
  | create succeeds =>
      obtain ⟨hcreating, rfl⟩ := create_inv hstep
      have habsent := horderly.creating hcreating
      have hnobody : s.launched ≠ .ended := by rw [habsent]; exact nofun
      have hintact : s.shared.destroyed = 0 := by
        by_contra hdestroyed
        rcases horderly.destroyed hdestroyed with hpc | hpc | htold
        · exact absurd (hcreating.symm.trans hpc) nofun
        · exact absurd (hcreating.symm.trans hpc) nofun
        · rw [habsent] at htold
          exact absurd htold nofun
      cases succeeds with
      | true =>
          exact ⟨nofun, fun c hpast => absurd (hjoined c hpast) hnobody,
            fun hdestroyed => absurd hintact hdestroyed⟩
      | false =>
          exact ⟨nofun, fun c hpast => absurd (hjoined c hpast) hnobody,
            fun hdestroyed => absurd hintact hdestroyed⟩
  | creator =>
      obtain ⟨pc, m, hnext, rfl⟩ := creator_inv hstep
      obtain ⟨hfreeing, hgaveUp, hcounts⟩ := Creator.next_destroyed hnext
      refine ⟨fun hcreating => absurd hcreating (Creator.next_hNotify hnext).2, hjoined,
        fun hdestroyed => ?_⟩
      rcases hcounts with hsame | hnow
      · rcases horderly.destroyed (hsame ▸ hdestroyed) with hpc | hpc | htold
        · exact Or.inr (Or.inl (hfreeing hpc))
        · exact absurd hpc hgaveUp
        · exact Or.inr (Or.inr htold)
      · exact Or.inl hnow
  | launched =>
      obtain ⟨pc, m, hnext, rfl⟩ := launched_inv hstep
      obtain ⟨hstays, hcounts⟩ := Launched.next_told hnext
      refine ⟨fun hcreating => ?_, fun c hpast => ?_, fun hdestroyed => ?_⟩
      · rw [horderly.creating hcreating] at hnext
        exact absurd hnext (by simp [Launched.next])
      · rw [hjoined c hpast] at hnext
        exact absurd hnext (by simp [Launched.next])
      · rcases hcounts with hsame | hnow
        · exact (horderly.destroyed (hsame ▸ hdestroyed)).imp_right (Or.imp_right hstays)
        · exact Or.inr (Or.inr hnow)
  | call c op =>
      obtain ⟨-, -, rfl⟩ := call_inv hstep
      exact ⟨horderly.creating, hjoined, horderly.destroyed⟩
  | client c =>
      obtain ⟨pc, m, hnext, rfl⟩ := client_inv hstep
      refine ⟨horderly.creating, hjoined, fun hdestroyed => ?_⟩
      rcases (Client.next_pastJoin hnext).1 with hsame | hpast
      · exact horderly.destroyed (hsame ▸ hdestroyed)
      · refine Or.inr (Or.inr ?_)
        show s.launched.told = true
        rw [horderly.joined c hpast]
        rfl

omit [DecidableEq Thread] in
theorem initial_orderly (record : DarwinThread) : Orderly (initial Thread record) :=
  ⟨fun _ => rfl, nofun, fun hdestroyed => absurd rfl hdestroyed⟩

/-! ## Nobody waits -/

theorem Client.next_waits {m m' : Shared} {pc pc' : Client} (hnext : pc.next m = some (pc', m'))
    (hpc : pc.waits = false) : pc'.waits = false := by
  cases pc with
  | idle => exact absurd hnext (by simp [Client.next])
  | deleteTest =>
      obtain ⟨rfl, -⟩ := Prod.mk.inj (Option.some.inj hnext)
      split <;> rfl
  | waitTest => exact absurd hpc nofun
  | waitJoin => exact absurd hpc nofun
  | waitJoining => exact absurd hpc nofun
  | waitDestroy => exact absurd hpc nofun
  | waitFree => exact absurd hpc nofun
  | _ =>
      obtain ⟨rfl, -⟩ := Prod.mk.inj (Option.some.inj hnext)
      rfl

theorem step_unwaited {s t : State Thread} {a : Action Thread}
    (hunwaited : Orderly s ∧ ∀ c, (s.client c).waits = false) (hno : ∀ c, a ≠ .call c .wait)
    (hstep : step s a = some t) : Orderly t ∧ ∀ c, (t.client c).waits = false := by
  obtain ⟨horderly, hwaits⟩ := hunwaited
  refine ⟨step_orderly horderly ?_ hstep, ?_⟩
  · rintro c - hjoining -
    exact absurd (hwaits c) (by rw [hjoining]; exact nofun)
  · apply client_induction (P := fun pc => pc.waits = false) ?_ ?_ hwaits hstep
    · rintro c op hcall
      cases op with
      | wait => exact absurd hcall (hno c)
      | _ => rfl
    · exact fun c pc m _ hnext => Client.next_waits hnext (hwaits c)

/-! ## Nobody detaches -/

/-- The thread is as joinable as it was created, and what is terminated has ended. -/
structure Undetached (s : State Thread) : Prop where
  client : ∀ c, (s.client c).detaches = false ∧
    (s.client c = .waitJoin ∨ s.client c = .waitJoining → s.shared.detached = false)
  detached : s.shared.detached = true → s.shared.record.detachstate = .detach
  terminated : s.shared.terminated = true → s.launched = .ended

theorem Creator.next_thread {m m' : Shared} {pc pc' : Creator}
    (hnext : pc.next m = some (pc', m')) :
    m'.record = m.record ∧ m'.detached = m.detached ∧ m'.terminated = m.terminated := by
  cases pc <;> simp only [Creator.next, Option.some.injEq, Prod.mk.injEq, reduceCtorEq] at hnext
  all_goals
    obtain ⟨-, rfl⟩ := hnext
    exact ⟨rfl, rfl, rfl⟩

theorem Launched.next_thread {m m' : Shared} {pc pc' : Launched}
    (hnext : pc.next m = some (pc', m')) :
    m'.record = m.record ∧ m'.detached = m.detached ∧ pc ≠ .ended ∧
      (m'.terminated = m.terminated ∨ pc' = .ended) := by
  cases pc with
  | absent => exact absurd hnext (by simp [Launched.next])
  | ended => exact absurd hnext (by simp [Launched.next])
  | checking =>
      rw [Launched.next] at hnext
      split at hnext <;> obtain ⟨rfl, rfl⟩ := Prod.mk.inj (Option.some.inj hnext)
      · exact ⟨rfl, rfl, nofun, Or.inl rfl⟩
      · exact ⟨rfl, rfl, nofun, Or.inr rfl⟩
  | freeing =>
      obtain ⟨rfl, rfl⟩ := Prod.mk.inj (Option.some.inj hnext)
      exact ⟨rfl, rfl, nofun, Or.inr rfl⟩
  | _ =>
      obtain ⟨-, rfl⟩ := Prod.mk.inj (Option.some.inj hnext)
      exact ⟨rfl, rfl, nofun, Or.inl rfl⟩

theorem Client.next_thread {m m' : Shared} {pc pc' : Client}
    (hnext : pc.next m = some (pc', m')) (hpc : pc.detaches = false) :
    m'.record.detachstate = m.record.detachstate ∧ m'.detached = m.detached ∧
      m'.terminated = m.terminated ∧ pc'.detaches = false ∧
      (pc' = .waitJoin ∨ pc' = .waitJoining → m.record.detachstate = .join ∨ pc = .waitJoin) := by
  cases pc with
  | idle => exact absurd hnext (by simp [Client.next])
  | detachStore => exact absurd hpc nofun
  | detachThread => exact absurd hpc nofun
  | deleteTest =>
      obtain ⟨rfl, rfl⟩ := Prod.mk.inj (Option.some.inj hnext)
      refine ⟨rfl, rfl, rfl, ?_⟩
      split
      · exact ⟨rfl, by simp⟩
      · exact ⟨rfl, by simp⟩
  | waitTest =>
      rw [Client.next] at hnext
      split at hnext
      · rename_i hjoin
        obtain ⟨rfl, rfl⟩ := Prod.mk.inj (Option.some.inj hnext)
        exact ⟨rfl, rfl, rfl, rfl, fun _ => Or.inl hjoin⟩
      · obtain ⟨rfl, rfl⟩ := Prod.mk.inj (Option.some.inj hnext)
        exact ⟨rfl, rfl, rfl, rfl, by simp⟩
  | waitJoin =>
      obtain ⟨rfl, rfl⟩ := Prod.mk.inj (Option.some.inj hnext)
      exact ⟨rfl, rfl, rfl, rfl, fun _ => Or.inr rfl⟩
  | waitJoining =>
      obtain ⟨-, hnext⟩ := Option.ite_none_right_eq_some.mp hnext
      obtain ⟨rfl, rfl⟩ := Prod.mk.inj (Option.some.inj hnext)
      exact ⟨rfl, rfl, rfl, rfl, by simp⟩
  | _ =>
      obtain ⟨rfl, rfl⟩ := Prod.mk.inj (Option.some.inj hnext)
      exact ⟨rfl, rfl, rfl, rfl, by simp⟩

theorem step_undetached {s t : State Thread} {a : Action Thread}
    (hkept : Orderly s ∧ Undetached s) (hno : ∀ c, a ≠ .call c .detach)
    (hstep : step s a = some t) : Orderly t ∧ Undetached t := by
  obtain ⟨horderly, hundetached⟩ := hkept
  have hjoin : ∀ c, a = .client c → s.client c = .waitJoining →
      s.shared.terminated = true ∨ s.shared.detached = true → s.launched = .ended := by
    rintro c - hjoining (hterminated | hdetached)
    · exact hundetached.terminated hterminated
    · have hjoinable := (hundetached.client c).2 (Or.inr hjoining)
      exact absurd (hjoinable.symm.trans hdetached) nofun
  refine ⟨step_orderly horderly hjoin hstep, ?_⟩
  have hclient : ∀ c, (t.client c).detaches = false ∧
      (t.client c = .waitJoin ∨ t.client c = .waitJoining → s.shared.detached = false) := by
    apply client_induction (P := fun pc => pc.detaches = false ∧
      (pc = .waitJoin ∨ pc = .waitJoining → s.shared.detached = false)) ?_ ?_
      hundetached.client hstep
    · rintro c op hcall
      cases op with
      | detach => exact absurd hcall (hno c)
      | _ => exact ⟨rfl, by simp [Op.start]⟩
    · intro c pc m _ hnext
      obtain ⟨-, -, -, hpc, hjoins⟩ := Client.next_thread hnext (hundetached.client c).1
      refine ⟨hpc, fun hwaits => ?_⟩
      rcases hjoins hwaits with hstate | hbefore
      · by_contra hdetached
        rw [Bool.not_eq_false] at hdetached
        exact absurd (hstate.symm.trans (hundetached.detached hdetached)) nofun
      · exact (hundetached.client c).2 (Or.inl hbefore)
  cases a with
  | create succeeds =>
      obtain ⟨hcreating, rfl⟩ := create_inv hstep
      have hrunning : s.shared.terminated ≠ true := fun hterminated => by
        have hended := hundetached.terminated hterminated
        exact absurd ((horderly.creating hcreating).symm.trans hended) nofun
      cases succeeds with
      | true => exact ⟨hclient, hundetached.detached, fun hterminated => absurd hterminated hrunning⟩
      | false => exact ⟨hclient, hundetached.detached, hundetached.terminated⟩
  | creator =>
      obtain ⟨pc, m, hnext, rfl⟩ := creator_inv hstep
      obtain ⟨hrecord, hdetached, hterminated⟩ := Creator.next_thread hnext
      refine ⟨fun c => ?_, fun h => ?_, fun h => ?_⟩
      · exact ⟨(hclient c).1, fun hwaits => hdetached.trans ((hclient c).2 hwaits)⟩
      · exact (congrArg DarwinThread.detachstate hrecord).trans
          (hundetached.detached (hdetached.symm.trans h))
      · exact hundetached.terminated (hterminated.symm.trans h)
  | launched =>
      obtain ⟨pc, m, hnext, rfl⟩ := launched_inv hstep
      obtain ⟨hrecord, hdetached, hgoes, hterminated⟩ := Launched.next_thread hnext
      refine ⟨fun c => ?_, fun h => ?_, fun h => ?_⟩
      · exact ⟨(hclient c).1, fun hwaits => hdetached.trans ((hclient c).2 hwaits)⟩
      · exact (congrArg DarwinThread.detachstate hrecord).trans
          (hundetached.detached (hdetached.symm.trans h))
      · rcases hterminated with hsame | hended
        · exact absurd (hundetached.terminated (hsame.symm.trans h)) hgoes
        · exact hended
  | call c op =>
      obtain ⟨-, -, rfl⟩ := call_inv hstep
      exact ⟨hclient, hundetached.detached, hundetached.terminated⟩
  | client c =>
      obtain ⟨pc, m, hnext, rfl⟩ := client_inv hstep
      obtain ⟨hstate, hdetached, hterminated, -, -⟩ :=
        Client.next_thread hnext (hundetached.client c).1
      refine ⟨fun d => ?_, fun h => ?_, fun h => ?_⟩
      · exact ⟨(hclient d).1, fun hwaits => hdetached.trans ((hclient d).2 hwaits)⟩
      · exact hstate.trans (hundetached.detached (hdetached.symm.trans h))
      · exact hundetached.terminated (hterminated.symm.trans h)

omit [DecidableEq Thread] in
theorem initial_undetached (record : DarwinThread) : Undetached (initial Thread record) :=
  ⟨fun _ => ⟨rfl, fun _ => by simp_all [initial]⟩, fun h => of_decide_eq_true h, nofun⟩

/-! ## The run -/

end OfcDarwin.Thread
