import Mathlib.Data.Fintype.Basic
import Mathlib.Order.Nat
import OfcDarwin.Thread.Model

/-!
# Who may still hold a released record

A party is `Quiet` when the rest of its program touches no field of the record.
The source frees the record without waiting for the others to be quiet: the
launched thread of a detached record may free it before the creator has read
`darwinThread->handle`, or while a client is between its lock and its unlock.

The condition under which nothing is touched late is about the releases alone:
`QuietRelease` asks that every `ofc_free` is called when all parties are quiet.
From there on nobody starts again, because whoever frees the record has
destroyed its handle first (`DestroyFirst`).  The condition leaves nothing out:
a release that comes while some party is not quiet can always be followed by a
late access (`exists_late_of_not_quiet`).
-/

namespace OfcDarwin.Thread

open Transition

/-! ## Parties with nothing left to touch -/

/-- The creator touches no field any more. -/
def Creator.quiet : Creator → Bool
  | .creating | .created | .failed => false
  | .freeing | .returned | .gaveUp => true

/-- The launched thread touches no field any more. -/
def Launched.quiet : Launched → Bool
  | .absent | .freeing | .ended => true
  | _ => false

/-- The client touches no field in the rest of its operation. -/
def Client.quiet : Client → Bool
  | .idle | .waitFree => true
  | _ => false

/-- No party has a field of the record left to touch. -/
structure Quiet {Thread : Type} (s : State Thread) : Prop where
  creator : s.creator.quiet
  launched : s.launched.quiet
  client : ∀ c, (s.client c).quiet

/-- The action is a call of `ofc_free` on the record. -/
def Releases {Thread : Type} (s : State Thread) : Action Thread → Prop
  | .creator => s.creator = .freeing
  | .launched => s.launched = .freeing
  | .client c => s.client c = .waitFree
  | .create _ | .call _ _ => False

/-- The record is freed only when no party has a field of it left to touch. -/
def QuietRelease {Thread : Type} (s : State Thread) (a : Action Thread) : Prop :=
  Releases s a → Quiet s

instance {Thread : Type} [Fintype Thread] (s : State Thread) : Decidable (Quiet s) :=
  decidable_of_iff (s.creator.quiet ∧ s.launched.quiet ∧ ∀ c, (s.client c).quiet)
    ⟨fun h => ⟨h.1, h.2.1, h.2.2⟩, fun h => ⟨h.creator, h.launched, h.client⟩⟩

instance {Thread : Type} (s : State Thread) (a : Action Thread) : Decidable (Releases s a) := by
  cases a <;> unfold Releases <;> infer_instance

instance {Thread : Type} [Fintype Thread] (s : State Thread) (a : Action Thread) :
    Decidable (QuietRelease s a) :=
  inferInstanceAs (Decidable (Releases s a → Quiet s))

/-! ## What the programs do to the record -/

namespace Shared

theorem touch_late_of_live {m : Shared} (hlive : m.released = 0) (fields : List Field) :
    (m.touch fields).late = m.late := by
  simp [touch, hlive]

end Shared

/-- `pthread_join` returns: the thread has ended, or it cannot be joined. -/
def Shared.Joinable (m : Shared) : Prop :=
  m.terminated = true ∨ m.detached = true

/-- What one step of one program does to the record: it touches nothing unless
the program was not quiet, it frees only where `freeing` says, and it never
undoes a destroy or the end of the thread. -/
structure Effect (quiet freeing quiet' freeing' : Prop) (m m' : Shared) : Prop where
  late : m.released = 0 ∨ quiet → m'.late = m.late
  released : ¬ freeing → m'.released = m.released
  destroyed : m.destroyed ≤ m'.destroyed
  joinable : m.Joinable → m'.Joinable
  destroyFirst : freeing' → m'.destroyed ≠ 0
  quiet : quiet → quiet'

theorem Creator.next_effect {m m' : Shared} {pc pc' : Creator}
    (hnext : pc.next m = some (pc', m')) :
    Effect pc.quiet (pc = .freeing) pc'.quiet (pc' = .freeing) m m' := by
  cases pc <;> simp only [Creator.next, Option.some.injEq, Prod.mk.injEq, reduceCtorEq] at hnext
  all_goals
    obtain ⟨rfl, rfl⟩ := hnext
    constructor <;>
      simp +contextual [Shared.Joinable, Creator.quiet, Shared.touch, Shared.destroyHandle,
        Shared.free]

theorem Launched.next_effect {m m' : Shared} {pc pc' : Launched}
    (hnext : pc.next m = some (pc', m')) :
    Effect pc.quiet (pc = .freeing) pc'.quiet (pc' = .freeing) m m' := by
  cases pc <;> simp only [Launched.next, Option.some.injEq, Prod.mk.injEq, reduceCtorEq] at hnext
  case checking =>
    cases hstate : m.record.detachstate <;>
      simp only [hstate, Option.some.injEq, Prod.mk.injEq] at hnext
    all_goals
      obtain ⟨rfl, rfl⟩ := hnext
      constructor <;>
        simp +contextual [Shared.Joinable, Launched.quiet, Shared.touch, Shared.terminate]
  all_goals
    obtain ⟨rfl, rfl⟩ := hnext
    constructor <;>
      simp +contextual [Shared.Joinable, Launched.quiet, Shared.touch, Shared.destroyHandle,
        Shared.free, Shared.terminate]
  split <;> simp

theorem Client.next_effect {m m' : Shared} {pc pc' : Client}
    (hnext : pc.next m = some (pc', m')) :
    Effect pc.quiet (pc = .waitFree) pc'.quiet (pc' = .waitFree) m m' := by
  cases pc <;> simp only [Client.next, Option.some.injEq, Prod.mk.injEq, reduceCtorEq,
    Option.ite_none_right_eq_some] at hnext
  case waitTest =>
    cases hstate : m.record.detachstate <;>
      simp only [hstate, Option.some.injEq, Prod.mk.injEq] at hnext
    all_goals
      obtain ⟨rfl, rfl⟩ := hnext
      constructor <;> simp +contextual [Shared.Joinable, Client.quiet, Shared.touch]
  case waitJoining =>
    obtain ⟨-, rfl, rfl⟩ := hnext
    constructor <;> simp [Client.quiet]
  all_goals
    obtain ⟨rfl, rfl⟩ := hnext
    constructor <;>
      simp +contextual [Shared.Joinable, Client.quiet, Shared.touch, Shared.destroyHandle,
        Shared.free, Shared.storeDeleteMe, Shared.storeWaitSet, Shared.storeDetach,
        Shared.pthreadDetach]
  split <;> simp

variable {Thread : Type} [DecidableEq Thread]

/-! ## The handle is destroyed before the record is freed -/

/-- Whoever frees the record has destroyed its handle first. -/
structure DestroyFirst (s : State Thread) : Prop where
  released : s.shared.released ≠ 0 → s.shared.destroyed ≠ 0
  creator : s.creator = .freeing → s.shared.destroyed ≠ 0
  launched : s.launched = .freeing → s.shared.destroyed ≠ 0
  client : ∀ c, s.client c = .waitFree → s.shared.destroyed ≠ 0

omit [DecidableEq Thread] in
theorem initial_destroyFirst (record : DarwinThread) :
    DestroyFirst (initial Thread record) := by
  constructor <;> simp [initial]

omit [DecidableEq Thread] in
/-- An effect on the record keeps what the other parties rely on. -/
theorem DestroyFirst.of_effect {s : State Thread} (hfirst : DestroyFirst s)
    {quiet freeing quiet' freeing' : Prop} {m : Shared}
    (heffect : Effect quiet freeing quiet' freeing' s.shared m)
    (hfreeing : freeing → s.shared.destroyed ≠ 0) :
    (m.released ≠ 0 → m.destroyed ≠ 0) ∧ (s.shared.destroyed ≠ 0 → m.destroyed ≠ 0) := by
  have hmono : s.shared.destroyed ≠ 0 → m.destroyed ≠ 0 := by
    have := heffect.destroyed
    omega
  refine ⟨fun hreleased => hmono ?_, hmono⟩
  by_cases hf : freeing
  · exact hfreeing hf
  · rw [heffect.released hf] at hreleased
    exact hfirst.released hreleased

theorem step_destroyFirst {s t : State Thread} {a : Action Thread} (hfirst : DestroyFirst s)
    (hstep : step s a = some t) : DestroyFirst t := by
  cases a with
  | create succeeds =>
      obtain ⟨hpc, rfl⟩ := create_inv hstep
      cases succeeds with
      | true =>
          exact ⟨hfirst.released, (nomatch ·), (nomatch ·), hfirst.client⟩
      | false => exact ⟨hfirst.released, (nomatch ·), hfirst.launched, hfirst.client⟩
  | creator =>
      obtain ⟨pc, m, hnext, rfl⟩ := creator_inv hstep
      have heffect := Creator.next_effect hnext
      obtain ⟨hreleased, hmono⟩ := hfirst.of_effect heffect hfirst.creator
      exact ⟨hreleased, heffect.destroyFirst, fun h => hmono (hfirst.launched h),
        fun c h => hmono (hfirst.client c h)⟩
  | launched =>
      obtain ⟨pc, m, hnext, rfl⟩ := launched_inv hstep
      have heffect := Launched.next_effect hnext
      obtain ⟨hreleased, hmono⟩ := hfirst.of_effect heffect hfirst.launched
      exact ⟨hreleased, fun h => hmono (hfirst.creator h), heffect.destroyFirst,
        fun c h => hmono (hfirst.client c h)⟩
  | call c op =>
      obtain ⟨-, -, rfl⟩ := call_inv hstep
      refine ⟨hfirst.released, hfirst.creator, hfirst.launched, fun d hd => ?_⟩
      change s.shared.destroyed ≠ 0
      intro hlive
      by_cases hdc : d = c
      · subst hdc
        rw [afterCall_client_self hlive] at hd
        cases op <;> cases hd
      · rw [afterCall_client_of_ne s hdc] at hd
        exact hfirst.client d hd hlive
  | client c =>
      obtain ⟨pc, m, hnext, rfl⟩ := client_inv hstep
      have heffect := Client.next_effect hnext
      obtain ⟨hreleased, hmono⟩ := hfirst.of_effect heffect (hfirst.client c)
      refine ⟨hreleased, fun h => hmono (hfirst.creator h), fun h => hmono (hfirst.launched h),
        fun d hd => ?_⟩
      by_cases hdc : d = c
      · subst hdc
        rw [moveClient_client_self] at hd
        exact heffect.destroyFirst hd
      · rw [moveClient_client_of_ne s hdc] at hd
        exact hmono (hfirst.client d hd)

/-! ## No late access -/

/-- Nothing has been touched late, and after a release nobody is left to do so. -/
structure Intact (s : State Thread) : Prop where
  late : s.shared.late = []
  quiet : s.shared.released ≠ 0 → Quiet s

omit [DecidableEq Thread] in
theorem initial_intact (record : DarwinThread) : Intact (initial Thread record) :=
  ⟨rfl, fun hreleased => absurd rfl hreleased⟩

omit [DecidableEq Thread] in
/-- After a step of a program the record is as it was, or every party is quiet. -/
theorem Intact.quiet_before {s : State Thread} (hintact : Intact s)
    {quiet freeing quiet' freeing' : Prop} {m : Shared}
    (heffect : Effect quiet freeing quiet' freeing' s.shared m)
    (hfreeing : freeing → Quiet s) (hreleased : m.released ≠ 0) : Quiet s := by
  by_cases hf : freeing
  · exact hfreeing hf
  · rw [heffect.released hf] at hreleased
    exact hintact.quiet hreleased

/-- One step whose release, if it is one, is quiet. -/
theorem step_intact {s t : State Thread} {a : Action Thread} (hintact : Intact s)
    (hfirst : DestroyFirst s) (hquiet : QuietRelease s a) (hstep : step s a = some t) :
    Intact t := by
  have hlive : ∀ p : Prop, (Quiet s → p) → s.shared.released = 0 ∨ p := by
    intro p hp
    by_cases hreleased : s.shared.released = 0
    · exact Or.inl hreleased
    · exact Or.inr (hp (hintact.quiet hreleased))
  cases a with
  | create succeeds =>
      obtain ⟨hpc, rfl⟩ := create_inv hstep
      have hreleased : s.shared.released = 0 := by
        rcases hlive _ Quiet.creator with hreleased | hcreator
        · exact hreleased
        · rw [hpc] at hcreator
          cases hcreator
      cases succeeds with
      | true =>
          exact ⟨(Shared.touch_late_of_live hreleased _).trans hintact.late,
            fun h => absurd hreleased h⟩
      | false => exact ⟨hintact.late, fun h => absurd hreleased h⟩
  | creator =>
      obtain ⟨pc, m, hnext, rfl⟩ := creator_inv hstep
      have heffect := Creator.next_effect hnext
      refine ⟨(heffect.late (hlive _ Quiet.creator)).trans hintact.late, fun hreleased => ?_⟩
      have hbefore := hintact.quiet_before heffect hquiet hreleased
      exact ⟨heffect.quiet hbefore.creator, hbefore.launched, hbefore.client⟩
  | launched =>
      obtain ⟨pc, m, hnext, rfl⟩ := launched_inv hstep
      have heffect := Launched.next_effect hnext
      refine ⟨(heffect.late (hlive _ Quiet.launched)).trans hintact.late, fun hreleased => ?_⟩
      have hbefore := hintact.quiet_before heffect hquiet hreleased
      exact ⟨hbefore.creator, heffect.quiet hbefore.launched, hbefore.client⟩
  | call c op =>
      obtain ⟨-, -, rfl⟩ := call_inv hstep
      refine ⟨hintact.late, fun hreleased => ?_⟩
      have hbefore := hintact.quiet hreleased
      refine ⟨hbefore.creator, hbefore.launched, fun d => ?_⟩
      -- the handle has been destroyed, so the lock of the call does not resolve it
      rw [afterCall_client_of_destroyed (hfirst.released hreleased)]
      exact hbefore.client d
  | client c =>
      obtain ⟨pc, m, hnext, rfl⟩ := client_inv hstep
      have heffect := Client.next_effect hnext
      refine ⟨(heffect.late (hlive _ fun h => h.client c)).trans hintact.late,
        fun hreleased => ?_⟩
      have hbefore := hintact.quiet_before heffect hquiet hreleased
      refine ⟨hbefore.creator, hbefore.launched, fun d => ?_⟩
      by_cases hdc : d = c
      · subst hdc
        rw [moveClient_client_self]
        exact heffect.quiet (hbefore.client d)
      · rw [moveClient_client_of_ne s hdc]
        exact hbefore.client d

/-- A record that is only freed when every party is quiet is never touched after
its release. -/
theorem no_late_access {record : DarwinThread} {actions : List (Action Thread)}
    {s : State Thread} (hrun : run step (initial Thread record) actions = some s)
    (hquiet : Along step QuietRelease (initial Thread record) actions) :
    s.shared.late = [] := by
  have hboth : Intact s ∧ DestroyFirst s := by
    refine run_induction_along (I := fun s => Intact s ∧ DestroyFirst s) ?_
      ⟨initial_intact record, initial_destroyFirst record⟩ hquiet hrun
    intro s a t hs hq hstep
    exact ⟨step_intact hs.1 hs.2 hq hstep, step_destroyFirst hs.2 hstep⟩
  exact hboth.1.late

/-- A client waits for a thread whose creator has returned: the record is freed
once, with nobody left. -/
theorem no_late_access_of_wait :
    ∃ s, run step (initial Unit (newRecord 1 .join handleNull))
        [.create true, .creator, .launched, .launched, .call () .wait, .client (), .client (),
          .launched, .launched, .launched, .client (), .client (), .client ()] = some s ∧
      s.shared.released = 1 ∧ s.shared.late = [] := by
  have hsome : (run step (initial Unit (newRecord 1 .join handleNull))
      [.create true, .creator, .launched, .launched, .call () .wait, .client (), .client (),
        .launched, .launched, .launched, .client (), .client (), .client ()]).map
          (fun s => s.shared.released) = some 1 := by decide
  obtain ⟨s, hrun, hs⟩ := Option.map_eq_some_iff.mp hsome
  exact ⟨s, hrun, hs, no_late_access hrun (by decide)⟩

/-- The calls of `ofc_thread_wait_impl` in a schedule. -/
def waitCalls (actions : List (Action Thread)) : ℕ :=
  actions.countP fun a =>
    match a with
    | .call _ .wait => true
    | _ => false

/-- A detached thread ends before its creator has read `darwinThread->handle`. -/
theorem late_access_of_creator :
    ¬ ∀ (record : DarwinThread) (actions : List (Action ℕ)) (s : State ℕ),
        waitCalls actions ≤ 1 → run step (initial ℕ record) actions = some s →
          s.shared.late = [] := by
  intro hall
  have hlate : (run step (initial ℕ (newRecord 1 .detach handleNull))
      [.create true, .launched, .launched, .launched, .launched, .launched, .launched, .launched,
        .launched, .creator]).map (fun s => s.shared.late) = some [.handle] := by decide
  obtain ⟨s, hrun, hs⟩ := Option.map_eq_some_iff.mp hlate
  rw [hall _ _ s (by decide) hrun] at hs
  cases hs

/-! ## A release that is not quiet can be followed by a late access -/

namespace Shared

theorem touch_late_ne_nil {m : Shared} (hreleased : m.released ≠ 0) {fields : List Field}
    (hfields : fields ≠ []) : (m.touch fields).late ≠ [] := by
  simp [touch, hreleased, hfields]

end Shared

/-- The launched thread touches a field in its next step, unless it is about to
return from the scheduler function. -/
theorem Launched.next_late {m : Shared} (hreleased : m.released ≠ 0) {pc : Launched}
    (hpc : pc.quiet = false) (hrunning : pc ≠ .running) :
    ∃ pc' m', pc.next m = some (pc', m') ∧ m'.late ≠ [] := by
  cases pc <;> simp only [Launched.quiet, reduceCtorEq, ne_eq, not_true_eq_false] at hpc hrunning
  case checking =>
    cases hstate : m.record.detachstate <;>
      simp only [Launched.next, hstate]
    all_goals exact ⟨_, _, rfl, Shared.touch_late_ne_nil hreleased (by simp)⟩
  all_goals exact ⟨_, _, rfl, Shared.touch_late_ne_nil hreleased (by simp)⟩

/-- A client touches a field in its next step, unless it is inside
`pthread_join`. -/
theorem Client.next_late {m : Shared} (hreleased : m.released ≠ 0) {pc : Client}
    (hpc : pc.quiet = false) (hjoining : pc ≠ .waitJoining) :
    ∃ pc' m', pc.next m = some (pc', m') ∧ m'.late ≠ [] := by
  cases pc <;> simp only [Client.quiet, reduceCtorEq, ne_eq, not_true_eq_false] at hpc hjoining
  case waitTest =>
    cases hstate : m.record.detachstate <;> simp only [Client.next, hstate]
    all_goals exact ⟨_, _, rfl, Shared.touch_late_ne_nil hreleased (by simp)⟩
  all_goals exact ⟨_, _, rfl, Shared.touch_late_ne_nil hreleased (by simp)⟩

theorem step_launched {s : State Thread} {pc : Launched} {m : Shared}
    (hnext : s.launched.next s.shared = some (pc, m)) :
    step s .launched = some (s.moveLaunched pc m) := by
  simp [step, hnext]

theorem step_client {s : State Thread} {c : Thread} {pc : Client} {m : Shared}
    (hnext : (s.client c).next s.shared = some (pc, m)) :
    step s (.client c) = some (s.moveClient c pc m) := by
  simp [step, hnext]

/-- Some continuation of the state touches the record late. -/
def CanTouchLate (s : State Thread) : Prop :=
  ∃ (more : List (Action Thread)) (u : State Thread),
    run step s more = some u ∧ u.shared.late ≠ []

theorem CanTouchLate.of_step {s t : State Thread} {a : Action Thread}
    (hstep : step s a = some t) (hlate : CanTouchLate t) : CanTouchLate s :=
  exists_run_of_step hstep hlate

theorem CanTouchLate.of_late {s : State Thread} (hlate : s.shared.late ≠ []) : CanTouchLate s :=
  ⟨[], s, rfl, hlate⟩

theorem canTouchLate_of_creator {s : State Thread} (hreleased : s.shared.released ≠ 0)
    (hcreator : s.creator = .created) : CanTouchLate s := by
  refine .of_step (a := .creator) (t := s.moveCreator .returned (s.shared.touch [.handle])) ?_
    (.of_late (Shared.touch_late_ne_nil hreleased (by simp)))
  simp [step, hcreator, Creator.next]

theorem canTouchLate_of_launched {s : State Thread} (hreleased : s.shared.released ≠ 0)
    (hlaunched : s.launched.quiet = false) : CanTouchLate s := by
  by_cases hrunning : s.launched = .running
  · have hnext : s.launched.next s.shared = some (.finished, s.shared) := by
      rw [hrunning]
      rfl
    obtain ⟨pc, m, hnext', hm⟩ :=
      @Launched.next_late s.shared hreleased .finished rfl nofun
    exact .of_step (step_launched hnext)
      (.of_step (step_launched (s := s.moveLaunched .finished s.shared) hnext') (.of_late hm))
  · obtain ⟨pc, m, hnext, hm⟩ := Launched.next_late hreleased hlaunched hrunning
    exact .of_step (step_launched hnext) (.of_late hm)

theorem canTouchLate_of_client {s : State Thread} (hreleased : s.shared.released ≠ 0)
    (hjoin : s.shared.Joinable) {c : Thread}
    (hclient : (s.client c).quiet = false) : CanTouchLate s := by
  by_cases hjoining : s.client c = .waitJoining
  · have hnext : (s.client c).next s.shared = some (.waitDestroy, s.shared) := by
      rw [hjoining, Client.next]
      exact if_pos hjoin
    obtain ⟨pc, m, hnext', hm⟩ :=
      @Client.next_late s.shared hreleased .waitDestroy rfl nofun
    have hmoved : ((s.moveClient c .waitDestroy s.shared).client c).next
        (s.moveClient c .waitDestroy s.shared).shared = some (pc, m) := by
      rw [moveClient_client_self]
      exact hnext'
    exact .of_step (step_client hnext) (.of_step (step_client hmoved) (.of_late hm))
  · obtain ⟨pc, m, hnext, hm⟩ := Client.next_late hreleased hclient hjoining
    exact .of_step (step_client hnext) (.of_late hm)

/-- Before the thread exists nobody but the creator acts, and a client that has
come past `pthread_join` has seen the thread end or be detached. -/
structure Placed (s : State Thread) : Prop where
  absent : s.creator ≠ .created → s.creator ≠ .returned →
    s.launched = .absent ∧ ∀ c, s.client c = .idle
  joined : ∀ c, s.client c = .waitDestroy ∨ s.client c = .waitFree → s.shared.Joinable

omit [DecidableEq Thread] in
theorem initial_placed (record : DarwinThread) : Placed (initial Thread record) :=
  ⟨fun _ _ => ⟨rfl, fun _ => rfl⟩, fun _ h => by simp [initial] at h⟩

/-- A client comes past `pthread_join` only when it returns. -/
theorem Client.next_joinable {m m' : Shared} {pc pc' : Client}
    (hnext : pc.next m = some (pc', m'))
    (hjoined : pc = .waitDestroy ∨ pc = .waitFree → m.Joinable)
    (hpc' : pc' = .waitDestroy ∨ pc' = .waitFree) : m'.Joinable := by
  apply (Client.next_effect hnext).joinable
  cases pc <;> simp only [Client.next, Option.some.injEq, Prod.mk.injEq, reduceCtorEq,
    Option.ite_none_right_eq_some] at hnext
  case waitTest =>
    cases hstate : m.record.detachstate <;>
      simp only [hstate, Option.some.injEq, Prod.mk.injEq] at hnext
    all_goals
      obtain ⟨rfl, -⟩ := hnext
      simp at hpc'
  case waitJoining => exact hnext.1
  case waitDestroy => exact hjoined (.inl rfl)
  case waitFree => exact hjoined (.inr rfl)
  all_goals
    obtain ⟨rfl, -⟩ := hnext
    first
      | simp at hpc'
      | split at hpc' <;> simp at hpc'

theorem step_placed {s t : State Thread} {a : Action Thread} (hplaced : Placed s)
    (hstep : step s a = some t) : Placed t := by
  cases a with
  | create succeeds =>
      obtain ⟨hpc, rfl⟩ := create_inv hstep
      cases succeeds with
      | true => exact ⟨fun h => absurd rfl h, hplaced.joined⟩
      | false => exact ⟨fun _ _ => hplaced.absent (by simp [hpc]) (by simp [hpc]), hplaced.joined⟩
  | creator =>
      obtain ⟨pc, m, hnext, rfl⟩ := creator_inv hstep
      refine ⟨fun hcreated hreturned => ?_,
        fun c hc => (Creator.next_effect hnext).joinable (hplaced.joined c hc)⟩
      refine hplaced.absent ?_ ?_ <;> intro hpc
      · rw [hpc, Creator.next, Option.some.injEq, Prod.mk.injEq] at hnext
        exact hreturned hnext.1.symm
      · rw [hpc, Creator.next] at hnext
        cases hnext
  | launched =>
      obtain ⟨pc, m, hnext, rfl⟩ := launched_inv hstep
      refine ⟨fun hcreated hreturned => ?_,
        fun c hc => (Launched.next_effect hnext).joinable (hplaced.joined c hc)⟩
      rw [(hplaced.absent hcreated hreturned).1, Launched.next] at hnext
      cases hnext
  | call c op =>
      obtain ⟨hidle, hpresent, rfl⟩ := call_inv hstep
      refine ⟨fun hcreated hreturned => absurd (hplaced.absent hcreated hreturned).1 hpresent,
        fun d hd => ?_⟩
      by_cases hdc : d = c
      · subst hdc
        by_cases hlive : s.shared.destroyed = 0
        · rw [afterCall_client_self hlive] at hd
          cases op <;> simp [Op.start] at hd
        · rw [afterCall_client_of_destroyed hlive] at hd
          exact hplaced.joined d hd
      · rw [afterCall_client_of_ne s hdc] at hd
        exact hplaced.joined d hd
  | client c =>
      obtain ⟨pc, m, hnext, rfl⟩ := client_inv hstep
      refine ⟨fun hcreated hreturned => ?_, fun d hd => ?_⟩
      · rw [(hplaced.absent hcreated hreturned).2 c, Client.next] at hnext
        cases hnext
      · by_cases hdc : d = c
        · subst hdc
          rw [moveClient_client_self] at hd
          exact Client.next_joinable hnext (hplaced.joined d) hd
        · rw [moveClient_client_of_ne s hdc] at hd
          exact (Client.next_effect hnext).joinable (hplaced.joined d hd)

theorem run_placed {record : DarwinThread} {actions : List (Action Thread)} {s : State Thread}
    (hrun : run step (initial Thread record) actions = some s) : Placed s :=
  run_induction (I := Placed) (fun _ _ _ => step_placed) (initial_placed record) hrun

omit [DecidableEq Thread] in
/-- Once the thread exists, a state that is not quiet has a party that will still
touch the record. -/
theorem Placed.exists_not_quiet {s : State Thread} (hplaced : Placed s)
    (hpresent : s.launched ≠ .absent ∨ ∃ c, s.client c ≠ .idle) (hnot : ¬ Quiet s) :
    s.creator = .created ∨ s.launched.quiet = false ∨ ∃ c, (s.client c).quiet = false := by
  have hcreator : s.creator = .created ∨ s.creator = .returned := by
    by_contra hneither
    obtain ⟨habsent, hidle⟩ := hplaced.absent (fun h => hneither (.inl h))
      (fun h => hneither (.inr h))
    rcases hpresent with hpresent | ⟨c, hc⟩
    · exact hpresent habsent
    · exact hc (hidle c)
  rcases hcreator with hcreated | hreturned
  · exact .inl hcreated
  · by_contra hnone
    simp only [not_or, not_exists, Bool.not_eq_false] at hnone
    exact hnot ⟨by rw [hreturned]; rfl, hnone.2.1, hnone.2.2⟩

/-- A release that comes while some party is not quiet can be followed by a late
access. -/
theorem exists_late_of_not_quiet {record : DarwinThread} {actions : List (Action Thread)}
    {s t : State Thread} {a : Action Thread}
    (hrun : run step (initial Thread record) actions = some s) (hreleases : Releases s a)
    (hnot : ¬ Quiet s) (hstep : step s a = some t) : CanTouchLate t := by
  have hplaced := run_placed hrun
  cases a with
  | create _ => exact hreleases.elim
  | call _ _ => exact hreleases.elim
  | creator =>
      -- a creation that failed has no other party
      obtain ⟨habsent, hidle⟩ := hplaced.absent (by simp [show s.creator = .freeing from hreleases])
        (by simp [show s.creator = .freeing from hreleases])
      refine absurd ⟨by rw [show s.creator = .freeing from hreleases]; rfl, by rw [habsent]; rfl,
        fun c => ?_⟩ hnot
      rw [hidle c]
      rfl
  | launched =>
      have hpc : s.launched = .freeing := hreleases
      rw [step, hpc, Launched.next, Option.map_some, Option.some.injEq] at hstep
      subst hstep
      have hreleased : s.shared.free.terminate.released ≠ 0 := Nat.succ_ne_zero _
      rcases hplaced.exists_not_quiet (.inl (by simp [hpc])) hnot with
        hcreator | hlaunched | ⟨c, hclient⟩
      · exact canTouchLate_of_creator hreleased hcreator
      · rw [hpc] at hlaunched
        cases hlaunched
      · exact canTouchLate_of_client hreleased (.inl rfl) hclient
  | client c =>
      have hpc : s.client c = .waitFree := hreleases
      rw [step, hpc, Client.next, Option.map_some, Option.some.injEq] at hstep
      subst hstep
      have hreleased : s.shared.free.released ≠ 0 := Nat.succ_ne_zero _
      rcases hplaced.exists_not_quiet (.inr ⟨c, by simp [hpc]⟩) hnot with
        hcreator | hlaunched | ⟨d, hclient⟩
      · exact canTouchLate_of_creator hreleased hcreator
      · exact canTouchLate_of_launched hreleased hlaunched
      · have hdc : d ≠ c := by
          rintro rfl
          rw [hpc] at hclient
          cases hclient
        refine canTouchLate_of_client hreleased (hplaced.joined c (.inr hpc)) (c := d) ?_
        rw [moveClient_client_of_ne s hdc]
        exact hclient

end OfcDarwin.Thread
