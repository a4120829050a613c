import Mathlib.Order.Nat
import OfcDarwin.Thread.Model

/-!
# How often a thread record is released

One client thread owns the handle that `ofc_thread_create_impl` returned.  It
calls `ofc_thread_delete_impl`, `ofc_thread_is_deleting_impl` and
`ofc_thread_set_waitset_impl` as often as it likes, and for a thread created
`OFC_THREAD_JOIN` it closes with exactly one of `ofc_thread_wait_impl` and
`ofc_thread_detach_impl` (`Permitted`, `Final`).

Who frees the record is decided by `detachstate` at the moment the launched
thread tests it.  A detach that is stored before that test hands the record to
the launched thread; one that is stored later hands it to nobody, and nothing
ever frees it.  So a run releases the record exactly once if and only if its
detach, if it has one, is `OnTime` (`released_once_iff`).

The proof follows the ownership of the record through the run:

* `Unborn`: no thread yet, or its creation failed;
* `Attached`: joinable, nothing released, the client has the record to close;
* `Joined`: the client has come past `pthread_join` and releases the record;
* `Detached`: the launched thread releases the record, and what it has released
  is a function of where it is (`Launched.settled`);
* `Leaked`: detached after the launched thread has ended.
-/

namespace OfcDarwin.Thread

open Transition

/-! ## The client's part -/

/-- The client acts on the handle once `ofc_thread_create_impl` has returned it,
until it closes it, and closes it only if it was created `OFC_THREAD_JOIN`. -/
def Permitted (origin : DetachState) (s : State Unit) : Action Unit → Prop
  | .call _ op => s.creator = .returned ∧ s.closes = 0 ∧ (op.closing = true → origin = .join)
  | .create _ | .creator | .launched | .client _ => True

/-- The thread function has finished, the calls have returned, and a joinable
handle has been closed. -/
structure Final (origin : DetachState) (s : State Unit) : Prop where
  creator : s.creator = .returned
  launched : s.launched = .ended
  client : s.client () = .idle
  closed : origin = .join → s.closes ≠ 0

/-- The launched thread has yet to test `detachstate`. -/
def Launched.undecided : Launched → Bool
  | .entered | .running | .finished | .notifying | .signalling | .checking => true
  | .absent | .cancelling | .destroying | .freeing | .ended => false

/-- A detach is stored while the launched thread has yet to test it. -/
def OnTime (s : State Unit) (a : Action Unit) : Prop :=
  a = .client () → s.client () = .detachStore → s.launched.undecided = true

/-- The calls of `ofc_handle_destroy` and of `ofc_free`. -/
def Shared.counts (m : Shared) : ℕ × ℕ := (m.destroyed, m.released)

instance (origin : DetachState) (s : State Unit) (a : Action Unit) :
    Decidable (Permitted origin s a) := by
  cases a <;> unfold Permitted <;> infer_instance

instance (s : State Unit) (a : Action Unit) : Decidable (OnTime s a) :=
  inferInstanceAs (Decidable (a = .client () → s.client () = .detachStore →
    s.launched.undecided = true))

/-! ## Who owns the record -/

/-- What the launched thread of a detached record has destroyed and freed. -/
def Launched.settled : Launched → ℕ × ℕ
  | .freeing => (1, 0)
  | .ended => (1, 1)
  | _ => (0, 0)

/-- The client is outside an operation, or inside one that does not close. -/
def Client.plain : Client → Bool
  | .idle | .deleteStore | .deleteTest | .deleteWake | .isDeletingRead | .setWaitsetStore _ => true
  | _ => false

/-- The client is inside an operation that closes, before its effect. -/
def Client.closing : Client → Bool
  | .detachStore | .waitTest | .waitJoin | .waitJoining => true
  | _ => false

structure Unborn (origin : DetachState) (s : State Unit) : Prop where
  created : s.creator ≠ .created
  returned : s.creator ≠ .returned
  launched : s.launched = .absent
  client : s.client () = .idle
  fresh : s.creator = .creating → s.shared.counts = (0, 0) ∧ s.closes = 0 ∧
    s.shared.record.detachstate = origin ∧ (origin = .join → s.shared.detached = false) ∧
    s.shared.terminated = false

/-- The thread exists. -/
def Born (s : State Unit) : Prop :=
  s.creator = .created ∨ s.creator = .returned

structure Attached (origin : DetachState) (s : State Unit) : Prop where
  born : Born s
  origin : origin = .join
  state : s.shared.record.detachstate = .join
  launched : s.launched.undecided = true ∨ s.launched = .ended
  counts : s.shared.counts = (0, 0)
  joinable : s.shared.detached = false
  terminated : s.shared.terminated = true → s.launched = .ended
  client : s.closes = 0 ∧ (s.client ()).plain = true ∨
    s.closes ≠ 0 ∧ (s.client ()).closing = true

structure Joined (s : State Unit) : Prop where
  born : Born s
  launched : s.launched = .ended
  closes : s.closes ≠ 0
  client : s.client () = .waitDestroy ∧ s.shared.counts = (0, 0) ∨
    s.client () = .waitFree ∧ s.shared.counts = (1, 0) ∨
    s.client () = .idle ∧ s.shared.counts = (1, 1)

structure Detached (origin : DetachState) (s : State Unit) : Prop where
  born : Born s
  state : s.shared.record.detachstate = .detach
  launched : s.launched ≠ .absent
  counts : s.shared.counts = s.launched.settled
  client : (s.client ()).plain = true ∨ s.client () = .detachThread
  open_ : s.closes = 0 → origin = .detach

structure Leaked (s : State Unit) : Prop where
  born : Born s
  launched : s.launched = .ended
  counts : s.shared.counts = (0, 0)
  client : s.client () = .detachThread ∨ s.client () = .idle
  closes : s.closes ≠ 0

/-- The record has one owner who will release it, or has released it. -/
def Owned (origin : DetachState) (s : State Unit) : Prop :=
  Unborn origin s ∨ Attached origin s ∨ Joined s ∨ Detached origin s

/-! ## One step -/

theorem destroyHandle_counts (m : Shared) :
    m.destroyHandle.counts = (m.counts.1 + 1, m.counts.2) := rfl

theorem free_counts (m : Shared) : m.free.counts = (m.counts.1, m.counts.2 + 1) := rfl

/-- The launched thread of a record that is detached when it is tested. -/
theorem Launched.next_settled {m m' : Shared} {pc pc' : Launched}
    (hnext : pc.next m = some (pc', m')) (hstate : m.record.detachstate = .detach)
    (hcounts : m.counts = pc.settled) :
    m'.record = m.record ∧ m'.counts = pc'.settled ∧ pc' ≠ .absent := by
  cases pc <;> simp only [Launched.next, hstate, Option.some.injEq, Prod.mk.injEq,
    reduceCtorEq] at hnext
  all_goals
    obtain ⟨rfl, rfl⟩ := hnext
    simp_all [Shared.counts, Launched.settled, Shared.touch, Shared.destroyHandle, Shared.free,
      Shared.terminate]
  by_cases hnull : m.record.hNotify = handleNull <;> simp [hnull]

/-- The launched thread of a record that is joinable when it is tested. -/
theorem Launched.next_attached {m m' : Shared} {pc pc' : Launched}
    (hnext : pc.next m = some (pc', m')) (hstate : m.record.detachstate = .join)
    (hpc : pc.undecided = true ∨ pc = .ended) :
    m'.record = m.record ∧ m'.detached = m.detached ∧ m'.counts = m.counts ∧
      (pc'.undecided = true ∨ pc' = .ended) ∧
      (m.terminated = false → m'.terminated = true → pc' = .ended) := by
  cases pc <;> simp only [Launched.next, hstate, Option.some.injEq, Prod.mk.injEq,
    reduceCtorEq, Launched.undecided, or_self] at hnext hpc
  all_goals
    obtain ⟨rfl, rfl⟩ := hnext
    simp_all [Shared.counts, Launched.undecided, Shared.touch, Shared.terminate]
  by_cases hnull : m.record.hNotify = handleNull <;> simp [hnull]

/-- An operation that does not close leaves the ownership alone. -/
theorem Client.next_plain {m m' : Shared} {pc pc' : Client}
    (hnext : pc.next m = some (pc', m')) (hpc : pc.plain = true) :
    pc'.plain = true ∧ m'.counts = m.counts ∧ m'.detached = m.detached ∧
      m'.terminated = m.terminated ∧ m'.record.detachstate = m.record.detachstate := by
  cases pc <;> simp only [Client.next, Client.plain, Option.some.injEq, Prod.mk.injEq,
    reduceCtorEq] at hnext hpc
  all_goals
    obtain ⟨rfl, rfl⟩ := hnext
    simp_all [Client.plain, Shared.counts, Shared.touch, Shared.storeDeleteMe, Shared.storeWaitSet]
  by_cases hnull : m.record.waitSet = handleNull <;> simp [hnull]

theorem Unborn.step {origin : DetachState} {s t : State Unit} {a : Action Unit}
    (h : Unborn origin s) (hstep : step s a = some t) : Owned origin t := by
  cases a with
  | create succeeds =>
      obtain ⟨hpc, rfl⟩ := create_inv hstep
      obtain ⟨hcounts, hcloses, hstate, hjoinable, hterminated⟩ := h.fresh hpc
      have hidle : (s.client ()).plain = true := by rw [h.client]; rfl
      cases succeeds with
      | false => exact .inl ⟨nofun, nofun, h.launched, h.client, nofun⟩
      | true =>
          cases origin with
          | join =>
              refine .inr (.inl ⟨.inl rfl, rfl, hstate, .inl rfl, hcounts, hjoinable rfl, ?_,
                .inl ⟨hcloses, hidle⟩⟩)
              intro hended
              exact absurd (hterminated.symm.trans hended) nofun
          | detach =>
              exact .inr (.inr (.inr ⟨.inl rfl, hstate, nofun, hcounts, .inl hidle, fun _ => rfl⟩))
  | creator =>
      obtain ⟨pc, m, hnext, rfl⟩ := creator_inv hstep
      left
      have hcreated := h.created
      cases hpc : s.creator <;> rw [hpc] at hnext hcreated <;>
        simp only [Creator.next, Option.some.injEq, Prod.mk.injEq, reduceCtorEq] at hnext
      case created => exact absurd rfl hcreated
      all_goals
        obtain ⟨rfl, rfl⟩ := hnext
        exact ⟨nofun, nofun, h.launched, h.client, nofun⟩
  | launched =>
      obtain ⟨pc, m, hnext, -⟩ := launched_inv hstep
      rw [h.launched, Launched.next] at hnext
      cases hnext
  | call c op =>
      obtain ⟨-, hpresent, -⟩ := call_inv hstep
      exact absurd h.launched hpresent
  | client c =>
      obtain ⟨pc, m, hnext, -⟩ := client_inv hstep
      rw [h.client, Client.next] at hnext
      cases hnext

/-- The creator of a thread that exists only reads the record. -/
theorem Born.creator_step {s t : State Unit} (hborn : Born s) (hstep : step s .creator = some t) :
    t = s.moveCreator .returned (s.shared.touch [.handle]) := by
  obtain ⟨pc, m, hnext, rfl⟩ := creator_inv hstep
  rcases hborn with hpc | hpc <;> rw [hpc, Creator.next] at hnext
  · obtain ⟨rfl, rfl⟩ : Creator.returned = pc ∧ s.shared.touch [.handle] = m := by
      simpa using hnext
    rfl
  · cases hnext

theorem Born.not_creating {s : State Unit} (hborn : Born s) : s.creator ≠ .creating := by
  rcases hborn with hpc | hpc <;> simp [hpc]

/-- The client of a joinable record. -/
theorem Attached.client_step {origin : DetachState} {s t : State Unit} {c : Unit}
    (h : Attached origin s) (hstep : step s (.client c) = some t) :
    (OnTime s (.client c) → Owned origin t) ∧ (¬ OnTime s (.client c) → Leaked t) := by
  obtain ⟨pc, m, hnext, rfl⟩ := client_inv hstep
  cases c
  have hontime : s.client () ≠ .detachStore → OnTime s (.client ()) :=
    fun hne _ hstore => absurd hstore hne
  rcases h.client with ⟨hcloses, hplain⟩ | ⟨hcloses, hclosing⟩
  · obtain ⟨hpc, hcounts, hdetached, hterminated, hstate⟩ := Client.next_plain hnext hplain
    have hne : s.client () ≠ .detachStore := by
      intro hstore
      rw [hstore] at hplain
      cases hplain
    refine ⟨fun _ => .inr (.inl ⟨h.born, h.origin, hstate.trans h.state, h.launched,
      hcounts.trans h.counts, hdetached.trans h.joinable, fun hm => h.terminated ?_,
      .inl ⟨hcloses, ?_⟩⟩), fun hlate => absurd (hontime hne) hlate⟩
    · exact hterminated.symm.trans hm
    · rwa [moveClient_client_self]
  · cases hpc : s.client () <;> rw [hpc] at hclosing hnext <;>
      simp only [Client.closing, reduceCtorEq] at hclosing
    case detachStore =>
      obtain ⟨rfl, rfl⟩ : Client.detachThread = pc ∧ s.shared.storeDetach = m := by
        simpa [Client.next] using hnext
      have hclient : (s.moveClient () .detachThread s.shared.storeDetach).client () =
        .detachThread := moveClient_client_self ..
      refine ⟨fun htime => .inr (.inr (.inr ?_)), fun hlate => ?_⟩
      · -- the launched thread will find the record detached
        have hundecided := htime rfl hpc
        refine ⟨h.born, rfl, ?_, h.counts.trans ?_, .inr hclient, fun hzero => absurd hzero hcloses⟩
        · intro habsent
          rw [show s.launched = .absent from habsent] at hundecided
          cases hundecided
        · change (0, 0) = s.launched.settled
          cases hl : s.launched <;> rw [hl] at hundecided <;> first | rfl | cases hundecided
      · -- the launched thread has found it joinable and returned
        rcases h.launched with hundecided | hended
        · exact absurd (fun _ _ => hundecided) hlate
        · exact ⟨h.born, hended, h.counts, .inl hclient, hcloses⟩
    case waitTest =>
      obtain ⟨rfl, rfl⟩ : Client.waitJoin = pc ∧ s.shared.touch [.detachstate] = m := by
        simpa [Client.next, h.state] using hnext
      refine ⟨fun _ => .inr (.inl ⟨h.born, h.origin, h.state, h.launched, h.counts, h.joinable,
        h.terminated, .inr ⟨hcloses, ?_⟩⟩), fun hlate => absurd (hontime (by simp [hpc])) hlate⟩
      rw [moveClient_client_self]
      rfl
    case waitJoin =>
      obtain ⟨rfl, rfl⟩ : Client.waitJoining = pc ∧ s.shared.touch [.thread] = m := by
        simpa [Client.next] using hnext
      refine ⟨fun _ => .inr (.inl ⟨h.born, h.origin, h.state, h.launched, h.counts, h.joinable,
        h.terminated, .inr ⟨hcloses, ?_⟩⟩), fun hlate => absurd (hontime (by simp [hpc])) hlate⟩
      rw [moveClient_client_self]
      rfl
    case waitJoining =>
      obtain ⟨hjoin, rfl, rfl⟩ : (s.shared.terminated = true ∨ s.shared.detached = true) ∧
          Client.waitDestroy = pc ∧ s.shared = m := by
        simpa [Client.next] using hnext
      have hended : s.launched = .ended := by
        rcases hjoin with hterminated | hdetached
        · exact h.terminated hterminated
        · exact absurd (h.joinable.symm.trans hdetached) nofun
      exact ⟨fun _ => .inr (.inr (.inl ⟨h.born, hended, hcloses,
        .inl ⟨moveClient_client_self .., h.counts⟩⟩)),
        fun hlate => absurd (hontime (by simp [hpc])) hlate⟩

theorem Attached.step {origin : DetachState} {s t : State Unit} {a : Action Unit}
    (h : Attached origin s) (hpermitted : Permitted origin s a) (hstep : step s a = some t) :
    (OnTime s a → Owned origin t) ∧ (¬ OnTime s a → Leaked t) := by
  cases a with
  | create succeeds => exact absurd (create_inv hstep).1 h.born.not_creating
  | creator =>
      rw [h.born.creator_step hstep]
      exact ⟨fun _ => .inr (.inl ⟨.inr rfl, h.origin, h.state, h.launched, h.counts, h.joinable,
        h.terminated, h.client⟩), fun hlate => absurd nofun hlate⟩
  | launched =>
      obtain ⟨pc, m, hnext, rfl⟩ := launched_inv hstep
      obtain ⟨hrecord, hdetached, hcounts, hpc, hterminated⟩ :=
        Launched.next_attached hnext h.state h.launched
      refine ⟨fun _ => .inr (.inl ⟨h.born, h.origin, ?_, hpc, hcounts.trans h.counts,
        hdetached.trans h.joinable, ?_, h.client⟩), fun hlate => absurd nofun hlate⟩
      · exact (congrArg DarwinThread.detachstate hrecord).trans h.state
      · apply hterminated
        by_contra hended
        -- the launched thread has returned, so it takes no further step
        rw [Bool.not_eq_false] at hended
        rw [h.terminated hended, Launched.next] at hnext
        cases hnext
  | call c op =>
      obtain ⟨hidle, -, rfl⟩ := call_inv hstep
      have hlive : s.shared.destroyed = 0 := congrArg Prod.fst h.counts
      refine ⟨fun _ => .inr (.inl ⟨h.born, h.origin, h.state, h.launched, h.counts, h.joinable,
        h.terminated, ?_⟩), fun hlate => absurd nofun hlate⟩
      rw [afterCall_client_self hlive]
      cases op <;> simp [State.afterCall, Op.closing, Op.start, Client.plain, Client.closing,
        hpermitted.2.1]
  | client c => exact h.client_step hstep

theorem Joined.step {origin : DetachState} {s t : State Unit} {a : Action Unit} (h : Joined s)
    (hpermitted : Permitted origin s a) (hstep : step s a = some t) :
    Joined t ∧ OnTime s a := by
  cases a with
  | create succeeds => exact absurd (create_inv hstep).1 h.born.not_creating
  | creator =>
      rw [h.born.creator_step hstep]
      exact ⟨⟨.inr rfl, h.launched, h.closes, h.client⟩, nofun⟩
  | launched =>
      obtain ⟨pc, m, hnext, -⟩ := launched_inv hstep
      rw [h.launched, Launched.next] at hnext
      cases hnext
  | call c op => exact absurd hpermitted.2.1 h.closes
  | client c =>
      obtain ⟨pc, m, hnext, rfl⟩ := client_inv hstep
      cases c
      rcases h.client with ⟨hpc, hcounts⟩ | ⟨hpc, hcounts⟩ | ⟨hpc, -⟩ <;> rw [hpc] at hnext
      · obtain ⟨rfl, rfl⟩ : Client.waitFree = pc ∧ s.shared.destroyHandle = m := by
          simpa [Client.next] using hnext
        refine ⟨⟨h.born, h.launched, h.closes, .inr (.inl ⟨moveClient_client_self .., ?_⟩)⟩, ?_⟩
        · exact (destroyHandle_counts _).trans (by rw [hcounts])
        · exact fun _ hstore => absurd (hpc.symm.trans hstore) nofun
      · obtain ⟨rfl, rfl⟩ : Client.idle = pc ∧ s.shared.free = m := by
          simpa [Client.next] using hnext
        refine ⟨⟨h.born, h.launched, h.closes, .inr (.inr ⟨moveClient_client_self .., ?_⟩)⟩, ?_⟩
        · exact (free_counts _).trans (by rw [hcounts])
        · exact fun _ hstore => absurd (hpc.symm.trans hstore) nofun
      · cases hnext

/-- A client of a detached record leaves the ownership alone. -/
theorem Client.next_detached {m m' : Shared} {pc pc' : Client}
    (hnext : pc.next m = some (pc', m')) (hpc : pc.plain = true ∨ pc = .detachThread) :
    pc'.plain = true ∧ m'.counts = m.counts ∧
      m'.record.detachstate = m.record.detachstate := by
  rcases hpc with hpc | rfl
  · obtain ⟨hpc', hcounts, -, -, hstate⟩ := Client.next_plain hnext hpc
    exact ⟨hpc', hcounts, hstate⟩
  · obtain ⟨rfl, rfl⟩ : Client.idle = pc' ∧ m.pthreadDetach = m' := by
      simpa [Client.next] using hnext
    exact ⟨rfl, rfl, rfl⟩

theorem not_detachStore {pc : Client} (hpc : pc.plain = true ∨ pc = .detachThread) :
    pc ≠ .detachStore := by
  rintro rfl
  simp [Client.plain] at hpc

theorem Detached.step {origin : DetachState} {s t : State Unit} {a : Action Unit}
    (h : Detached origin s) (hpermitted : Permitted origin s a) (hstep : step s a = some t) :
    Detached origin t ∧ OnTime s a := by
  cases a with
  | create succeeds => exact absurd (create_inv hstep).1 h.born.not_creating
  | creator =>
      rw [h.born.creator_step hstep]
      exact ⟨⟨.inr rfl, h.state, h.launched, h.counts, h.client, h.open_⟩, nofun⟩
  | launched =>
      obtain ⟨pc, m, hnext, rfl⟩ := launched_inv hstep
      obtain ⟨hrecord, hcounts, hpc⟩ := Launched.next_settled hnext h.state h.counts
      exact ⟨⟨h.born, (congrArg DarwinThread.detachstate hrecord).trans h.state, hpc, hcounts,
        h.client, h.open_⟩, nofun⟩
  | call c op =>
      obtain ⟨hidle, -, rfl⟩ := call_inv hstep
      have hdetach : origin = .detach := h.open_ hpermitted.2.1
      -- a handle that was created detached is never closed
      have hplain : op.closing = false := by
        cases hclosing : op.closing with
        | false => rfl
        | true => exact absurd (hdetach.symm.trans (hpermitted.2.2 hclosing)) nofun
      refine ⟨⟨h.born, h.state, h.launched, h.counts, .inl ?_, fun _ => hdetach⟩, nofun⟩
      by_cases hlive : s.shared.destroyed = 0
      · rw [afterCall_client_self hlive]
        cases op <;> first | rfl | cases hplain
      · rw [afterCall_client_of_destroyed hlive, hidle]
        rfl
  | client c =>
      obtain ⟨pc, m, hnext, rfl⟩ := client_inv hstep
      cases c
      obtain ⟨hpc, hcounts, hstate⟩ := Client.next_detached hnext h.client
      refine ⟨⟨h.born, hstate.trans h.state, h.launched, hcounts.trans h.counts, .inl ?_,
        h.open_⟩, fun _ hstore => absurd hstore (not_detachStore h.client)⟩
      rwa [moveClient_client_self]

theorem Leaked.step {origin : DetachState} {s t : State Unit} {a : Action Unit} (h : Leaked s)
    (hpermitted : Permitted origin s a) (hstep : step s a = some t) : Leaked t := by
  cases a with
  | create succeeds => exact absurd (create_inv hstep).1 h.born.not_creating
  | creator =>
      rw [h.born.creator_step hstep]
      exact ⟨.inr rfl, h.launched, h.counts, h.client, h.closes⟩
  | launched =>
      obtain ⟨pc, m, hnext, -⟩ := launched_inv hstep
      rw [h.launched, Launched.next] at hnext
      cases hnext
  | call c op => exact absurd hpermitted.2.1 h.closes
  | client c =>
      obtain ⟨pc, m, hnext, rfl⟩ := client_inv hstep
      cases c
      rcases h.client with hpc | hpc <;> rw [hpc] at hnext
      · obtain ⟨rfl, rfl⟩ : Client.idle = pc ∧ s.shared.pthreadDetach = m := by
          simpa [Client.next] using hnext
        exact ⟨h.born, h.launched, h.counts, .inr (moveClient_client_self ..), h.closes⟩
      · cases hnext

/-- One step keeps the record owned, unless it is a detach that comes too late. -/
theorem step_owned {origin : DetachState} {s t : State Unit} {a : Action Unit}
    (h : Owned origin s) (hpermitted : Permitted origin s a) (hstep : step s a = some t) :
    (OnTime s a → Owned origin t) ∧ (¬ OnTime s a → Leaked t) := by
  rcases h with h | h | h | h
  · refine ⟨fun _ => h.step hstep, fun hlate => absurd (fun _ hstore => ?_) hlate⟩
    exact absurd (h.client.symm.trans hstore) nofun
  · exact h.step hpermitted hstep
  · obtain ⟨hjoined, hontime⟩ := h.step hpermitted hstep
    exact ⟨fun _ => .inr (.inr (.inl hjoined)), fun hlate => absurd hontime hlate⟩
  · obtain ⟨hdetached, hontime⟩ := h.step hpermitted hstep
    exact ⟨fun _ => .inr (.inr (.inr hdetached)), fun hlate => absurd hontime hlate⟩

/-! ## Whole runs -/

/-- In a final state an owner has released the record and its handle. -/
theorem Owned.counts_final {origin : DetachState} {s : State Unit} (h : Owned origin s)
    (hfinal : Final origin s) : s.shared.counts = (1, 1) := by
  rcases h with h | h | h | h
  · exact absurd hfinal.creator h.returned
  · have hcloses := hfinal.closed h.origin
    rcases h.client with ⟨hzero, -⟩ | ⟨-, hclosing⟩
    · exact absurd hzero hcloses
    · rw [hfinal.client] at hclosing
      cases hclosing
  · rcases h.client with ⟨hpc, -⟩ | ⟨hpc, -⟩ | ⟨-, hcounts⟩
    · exact absurd (hpc.symm.trans hfinal.client) nofun
    · exact absurd (hpc.symm.trans hfinal.client) nofun
    · exact hcounts
  · rw [h.counts, hfinal.launched, Launched.settled]

theorem run_leaked {origin : DetachState} {s t : State Unit} {actions : List (Action Unit)}
    (h : Leaked s) (hpermitted : Along step (Permitted origin) s actions)
    (hrun : run step s actions = some t) : Leaked t :=
  run_induction_along (I := Leaked) (fun _ _ _ hs hp hstep => hs.step hp hstep) h hpermitted hrun

theorem run_owned {origin : DetachState} {s t : State Unit} {actions : List (Action Unit)}
    (h : Owned origin s) (hpermitted : Along step (Permitted origin) s actions)
    (hrun : run step s actions = some t) (hfinal : Final origin t) :
    t.shared.counts = (1, 1) ↔ Along step OnTime s actions := by
  induction actions generalizing s with
  | nil =>
      cases hrun
      exact ⟨fun _ => trivial, fun _ => h.counts_final hfinal⟩
  | cons a rest ih =>
      obtain ⟨u, hstep, hrest⟩ := run_cons_eq_some.mp hrun
      obtain ⟨howned, hleaked⟩ := step_owned h hpermitted.1 hstep
      have hpermitted' := hpermitted.2 u hstep
      by_cases hontime : OnTime s a
      · rw [ih (howned hontime) hpermitted' hrest]
        refine ⟨fun halong => ⟨hontime, fun u' hstep' => ?_⟩, fun halong => halong.2 u hstep⟩
        rw [hstep] at hstep'
        cases hstep'
        exact halong
      · have hcounts := (run_leaked (hleaked hontime) hpermitted' hrest).counts
        rw [hcounts]
        exact ⟨nofun, fun halong => absurd halong.1 hontime⟩

theorem initial_owned (record : DarwinThread) :
    Owned record.detachstate (initial Unit record) := by
  refine .inl ⟨nofun, nofun, rfl, rfl, fun _ => ⟨rfl, rfl, rfl, fun hjoin => ?_, rfl⟩⟩
  simp [initial, hjoin]

/-- In every final state the record has been freed and its handle destroyed
exactly once, if and only if a detach was stored before the launched thread
tested `detachstate`. -/
theorem released_once_iff {record : DarwinThread} {actions : List (Action Unit)} {s : State Unit}
    (hrun : run step (initial Unit record) actions = some s)
    (hpermitted : Along step (Permitted record.detachstate) (initial Unit record) actions)
    (hfinal : Final record.detachstate s) :
    (s.shared.released = 1 ∧ s.shared.destroyed = 1) ↔
      Along step OnTime (initial Unit record) actions := by
  rw [← run_owned (initial_owned record) hpermitted hrun hfinal, Shared.counts, Prod.mk.injEq,
    and_comm]

/-- The client detaches while the scheduler function runs: the launched thread
releases the record. -/
theorem released_once_of_detach :
    ∃ s, run step (initial Unit (newRecord 1 .join handleNull))
        [.create true, .creator, .launched, .call () .detach, .client (), .client (), .launched,
          .launched, .launched, .launched, .launched, .launched, .launched] = some s ∧
      s.shared.released = 1 ∧ s.shared.destroyed = 1 := by
  have hsome : (run step (initial Unit (newRecord 1 .join handleNull))
      [.create true, .creator, .launched, .call () .detach, .client (), .client (), .launched,
        .launched, .launched, .launched, .launched, .launched, .launched]).map
          (fun s => (s.creator, s.launched, s.client (), s.closes)) =
      some (.returned, .ended, .idle, 1) := by decide
  obtain ⟨s, hrun, hs⟩ := Option.map_eq_some_iff.mp hsome
  simp only [Prod.mk.injEq] at hs
  have hfinal : Final DetachState.join s :=
    ⟨hs.1, hs.2.1, hs.2.2.1, fun _ => by simp [hs.2.2.2]⟩
  exact ⟨s, hrun, (released_once_iff hrun (by decide) hfinal).mpr (by decide)⟩

/-- The scheduler function returns, and then the client detaches. -/
theorem leak_of_late_detach :
    ¬ ∀ (record : DarwinThread) (actions : List (Action Unit)) (s : State Unit),
        run step (initial Unit record) actions = some s →
        Along step (Permitted record.detachstate) (initial Unit record) actions →
        Final record.detachstate s → s.shared.released = 1 ∧ s.shared.destroyed = 1 := by
  intro hall
  have hsome : (run step (initial Unit (newRecord 1 .join handleNull))
      [.create true, .creator, .launched, .launched, .launched, .launched, .launched,
        .call () .detach, .client (), .client ()]).map
          (fun s => (s.creator, s.launched, s.client (), s.closes, s.shared.released)) =
      some (.returned, .ended, .idle, 1, 0) := by decide
  obtain ⟨s, hrun, hs⟩ := Option.map_eq_some_iff.mp hsome
  simp only [Prod.mk.injEq] at hs
  have hone := (hall _ _ s hrun (by decide)
    ⟨hs.1, hs.2.1, hs.2.2.1, fun _ => by simp [hs.2.2.2.1]⟩).1
  rw [hs.2.2.2.2] at hone
  cases hone

end OfcDarwin.Thread
