import Mathlib.Data.Fintype.Basic
import OfcDarwin.Waitset.Destroy

/-!
# Who may still use a wait set that is destroyed

`ofc_waitset_signal_impl` and `ofc_waitset_wait_impl` unlock the handle of the set and
use the pipe after that.  A destroy that comes in between closes the pipe under them:
a signal is then written to whatever has got the number since.

Nothing is used late where a destroy is `Undisturbed`: it starts to close when no
thread is between its lock and its last use of the pipe, and until it has cleared
`pWaitSet->impl` no thread locks a handle that still resolves.  Nothing less is enough
either: from every state in which a step disturbs a destroy, the threads can go on to
a late use (`exists_late_of_disturbed`).
-/

namespace OfcDarwin.Waitset.Destroy

open Descriptors Transition

variable {Thread : Type}

/-! ## The condition -/

/-- The signaller does not hold the set. -/
def Signaller.quiet : Signaller → Bool
  | .idle | .setting _ | .locking _ => true
  | .locked _ | .loaded .. | .writing .. => false

/-- The waiter does not hold the set. -/
def Waiter.quiet : Waiter → Bool
  | .away => true
  | _ => false

/-- No thread is between its lock and its last use of the pipe. -/
structure Quiet (s : State Thread) : Prop where
  signaller : ∀ t, (s.signaller t).quiet
  waiter : s.waiter.quiet

/-- The pipe is being closed and `pWaitSet->impl` not yet cleared. -/
def Destroyer.closing : Destroyer → Bool
  | .closingWrite | .freeing | .clearing => true
  | .closingRead | .done => false

/-- The signaller is at the `ofc_handle_lock` of the set. -/
def Signaller.locks : Signaller → Bool
  | .locking _ => true
  | _ => false

/-- The action is an `ofc_handle_lock` that resolves. -/
def Locks (s : State Thread) : Action Thread → Prop
  | .signaller t => s.shared.resolves ∧ (s.signaller t).locks
  | .wait => s.shared.resolves
  | .call .. | .waiter _ | .destroyer | .handleDestroy | .otherOpen _ | .otherClose _ => False

/-- The action is the first `close` of the destroy. -/
def Starts (s : State Thread) : Action Thread → Prop
  | .destroyer => s.destroyer = .closingRead
  | .call .. | .signaller _ | .wait | .waiter _ | .handleDestroy | .otherOpen _
  | .otherClose _ => False

/-- The action does not come between a destroy and the threads that hold the set. -/
structure Undisturbed (s : State Thread) (a : Action Thread) : Prop where
  starts : Starts s a → Quiet s
  locks : Locks s a → s.destroyer.closing = false

instance [Fintype Thread] (s : State Thread) : Decidable (Quiet s) :=
  decidable_of_iff ((∀ t, (s.signaller t).quiet) ∧ s.waiter.quiet)
    ⟨fun h => ⟨h.1, h.2⟩, fun h => ⟨h.signaller, h.waiter⟩⟩

instance (s : State Thread) : ∀ a : Action Thread, Decidable (Locks s a)
  | .signaller _ => inferInstanceAs (Decidable (_ ∧ _))
  | .wait => inferInstanceAs (Decidable (_ = true))
  | .call .. | .waiter _ | .destroyer | .handleDestroy | .otherOpen _ | .otherClose _ =>
      isFalse nofun

instance (s : State Thread) : ∀ a : Action Thread, Decidable (Starts s a)
  | .destroyer => inferInstanceAs (Decidable (_ = Destroyer.closingRead))
  | .call .. | .signaller _ | .wait | .waiter _ | .handleDestroy | .otherOpen _ | .otherClose _ =>
      isFalse nofun

instance [Fintype Thread] (s : State Thread) (a : Action Thread) : Decidable (Undisturbed s a) :=
  decidable_of_iff ((Starts s a → Quiet s) ∧ (Locks s a → s.destroyer.closing = false))
    ⟨fun h => ⟨h.1, h.2⟩, fun h => ⟨h.starts, h.locks⟩⟩

/-! ## Nothing late -/

/-- The signaller does not come to use a set whose `impl` is cleared. -/
def Signaller.unarmed : Signaller → Bool
  | .loaded _ impl | .writing _ impl => !impl
  | _ => true

/-- The waiter does not come to use a set whose `impl` is cleared. -/
def Waiter.unarmed : Waiter → Bool
  | .away | .locked => true
  | .purging impl => !impl
  | _ => false

/-- The argument of `PollEvent` was found in a released set. -/
def Waiter.stale : Waiter → Bool
  | .reading _ stale => stale
  | _ => false

/-- The invariant, by how far the destroy has come. -/
structure Unused (s : State Thread) : Prop where
  late : s.shared.late = []
  before : s.destroyer = .closingRead →
    s.shared.released = false ∧ (∀ fd, s.shared.closed fd = false) ∧ s.waiter.stale = false
  closing : s.destroyer.closing → Quiet s
  done : s.destroyer = .done →
    s.shared.impl = false ∧ (∀ t, (s.signaller t).unarmed) ∧ s.waiter.unarmed

theorem initial_unused (pipeFiles : ℤ × ℤ) (associated : Handle → Bool) :
    Unused (initial Thread pipeFiles associated) :=
  { late := rfl
    before := fun _ => ⟨rfl, fun _ => rfl, rfl⟩
    closing := nofun
    done := nofun }

/-- A destroy has not started, is closing, or has ended. -/
theorem Destroyer.phases (d : Destroyer) : d = .closingRead ∨ d.closing ∨ d = .done := by
  cases d <;> simp [Destroyer.closing]

namespace Shared

variable (m : Shared)

/-- A use of a live set on a number that is not closed is not late. -/
theorem use_late {stale : Bool} {fd : ℤ} (u : Use) (hstale : stale = false)
    (hclosed : m.closed fd = false) : (m.use u stale fd).late = m.late := by
  rw [use]
  exact if_neg (by simp [hstale, hclosed])

end Shared

/-- What a step of a signaller does to what the threads share. -/
theorem Signaller.next_shared {m m' : Shared} {pc pc' : Signaller}
    (hnext : pc.next m = some (pc', m')) :
    (∃ late, m' = { m with late := late }) ∧
      (m' = m ∨ ∃ hEvent, pc = .writing hEvent true ∧
        m' = m.use (.write hEvent) m.released m.pipeFiles.2) := by
  cases pc with
  | idle => cases hnext
  | writing hEvent impl =>
      cases impl with
      | false => cases hnext
      | true =>
          cases hnext
          exact ⟨⟨_, rfl⟩, Or.inr ⟨hEvent, rfl, rfl⟩⟩
  | _ =>
      cases hnext
      exact ⟨⟨_, rfl⟩, Or.inl rfl⟩

/-- What a step of the waiter does to what the threads share. -/
theorem Waiter.next_shared {m m' : Shared} {goOn : Bool} {pc pc' : Waiter}
    (hnext : pc.next m goOn = some (pc', m')) :
    (∃ late, m' = { m with late := late }) ∧
      (m' = m ∨ ∃ fd stale, pc = .reading fd stale ∧ m' = m.use .read stale fd) := by
  cases pc with
  | away => cases hnext
  | reading fd stale =>
      cases hnext
      exact ⟨⟨_, rfl⟩, Or.inr ⟨fd, stale, rfl, rfl⟩⟩
  | purging impl =>
      cases impl with
      | false => cases hnext
      | true =>
          cases hnext
          exact ⟨⟨_, rfl⟩, Or.inl rfl⟩
  | _ =>
      cases hnext
      exact ⟨⟨_, rfl⟩, Or.inl rfl⟩

/-! ## The threads under the condition -/

theorem Signaller.unarmed_of_quiet {pc : Signaller} (hquiet : pc.quiet) : pc.unarmed := by
  cases pc <;> first | rfl | cases hquiet

theorem Waiter.unarmed_of_quiet {pc : Waiter} (hquiet : pc.quiet) : pc.unarmed := by
  cases pc <;> first | rfl | cases hquiet

/-- A signaller that does not hold the set comes to hold it by its lock only. -/
theorem Signaller.next_quiet {m m' : Shared} {pc pc' : Signaller} (hquiet : pc.quiet)
    (hlocks : ¬(m.resolves ∧ pc.locks))
    (hnext : pc.next m = some (pc', m')) : pc'.quiet := by
  cases pc with
  | idle => cases hnext
  | setting hEvent =>
      obtain ⟨hpc, -⟩ := Prod.mk.inj (Option.some.inj hnext)
      rw [← hpc]
      split <;> rfl
  | locking hEvent =>
      obtain ⟨hpc, -⟩ := Prod.mk.inj (Option.some.inj hnext)
      rw [← hpc, if_neg fun hresolves => hlocks ⟨hresolves, rfl⟩]
      rfl
  | locked | loaded | writing => cases hquiet

/-- Once `impl` is cleared, a signaller finds that out. -/
theorem Signaller.next_unarmed {m m' : Shared} {pc pc' : Signaller} (hunarmed : pc.unarmed)
    (himpl : m.impl = false) (hnext : pc.next m = some (pc', m')) : pc'.unarmed := by
  cases pc with
  | idle => cases hnext
  | setting hEvent | locking hEvent =>
      obtain ⟨hpc, -⟩ := Prod.mk.inj (Option.some.inj hnext)
      rw [← hpc]
      split <;> rfl
  | locked hEvent =>
      obtain ⟨hpc, -⟩ := Prod.mk.inj (Option.some.inj hnext)
      rw [← hpc, himpl]
      rfl
  | loaded hEvent impl =>
      cases hnext
      exact hunarmed
  | writing hEvent impl =>
      cases impl with
      | false => cases hnext
      | true => cases hunarmed

/-- So does the waiter. -/
theorem Waiter.next_unarmed {m m' : Shared} {goOn : Bool} {pc pc' : Waiter}
    (hunarmed : pc.unarmed) (himpl : m.impl = false) (hnext : pc.next m goOn = some (pc', m')) :
    pc'.unarmed := by
  cases pc with
  | away => cases hnext
  | locked =>
      cases hnext
      simpa only [Waiter.unarmed, Bool.not_eq_true'] using himpl
  | purging impl =>
      cases impl with
      | false => cases hnext
      | true => cases hunarmed
  | _ => cases hunarmed

/-- The waiter takes no argument from a live set that is stale. -/
theorem Waiter.next_stale {m m' : Shared} {goOn : Bool} {pc pc' : Waiter}
    (hstale : pc.stale = false) (hreleased : m.released = false)
    (hnext : pc.next m goOn = some (pc', m')) : pc'.stale = false := by
  cases pc with
  | away => cases hnext
  | locked | filling =>
      cases hnext
      rfl
  | purging impl =>
      cases impl with
      | false => cases hnext
      | true => cases goOn <;> cases hnext <;> rfl
  | scanning | polling => cases goOn <;> cases hnext <;> rfl
  | entering =>
      cases hnext
      exact hreleased
  | reading fd stale =>
      cases goOn <;> cases hnext
      · rfl
      · exact hstale

/-! ## One step -/

section Step

variable {s u : State Thread}

/-- The invariant looks at these four things of what the threads share. -/
theorem Unused.congr (hs : Unused s) {m : Shared} (hlate : m.late = [])
    (hreleased : m.released = s.shared.released) (hclosed : m.closed = s.shared.closed)
    (himpl : m.impl = s.shared.impl) : Unused { s with shared := m } := by
  refine ⟨hlate, fun hbefore => ?_, fun hclosing => ?_, fun hdone => ?_⟩
  · rw [hreleased, hclosed]
    exact hs.before hbefore
  · obtain ⟨hsignaller, hwaiter⟩ := hs.closing hclosing
    exact ⟨hsignaller, hwaiter⟩
  · rw [himpl]
    exact hs.done hdone

/-- A signaller moves. -/
theorem Unused.setSignaller [DecidableEq Thread] (hs : Unused s) {t : Thread} {pc : Signaller}
    (hquiet : s.destroyer.closing → pc.quiet) (hunarmed : s.destroyer = .done → pc.unarmed) :
    Unused { s with signaller := Function.update s.signaller t pc } := by
  refine ⟨hs.late, hs.before, fun hclosing => ⟨fun other => ?_, ?_⟩, fun hdone => ?_⟩
  · show (Function.update s.signaller t pc other).quiet
    rw [Function.update_apply]
    split
    · exact hquiet hclosing
    · exact (hs.closing hclosing).signaller other
  · exact (hs.closing hclosing).waiter
  · obtain ⟨himpl, hsignaller, hwaiter⟩ := hs.done hdone
    refine ⟨himpl, fun other => ?_, hwaiter⟩
    show (Function.update s.signaller t pc other).unarmed
    rw [Function.update_apply]
    split
    · exact hunarmed hdone
    · exact hsignaller other

/-- The waiter moves. -/
theorem Unused.setWaiter (hs : Unused s) {pc : Waiter}
    (hstale : s.destroyer = .closingRead → pc.stale = false)
    (hquiet : s.destroyer.closing → pc.quiet) (hunarmed : s.destroyer = .done → pc.unarmed) :
    Unused { s with waiter := pc } := by
  refine ⟨hs.late, fun hbefore => ?_, fun hclosing => ⟨?_, hquiet hclosing⟩, fun hdone => ?_⟩
  · obtain ⟨hreleased, hclosed, -⟩ := hs.before hbefore
    exact ⟨hreleased, hclosed, hstale hbefore⟩
  · exact (hs.closing hclosing).signaller
  · obtain ⟨himpl, hsignaller, -⟩ := hs.done hdone
    exact ⟨himpl, hsignaller, hunarmed hdone⟩

/-- A step of a signaller is not late. -/
theorem Unused.signaller_late (hs : Unused s) {t : Thread} {m' : Shared} {pc' : Signaller}
    (hnext : (s.signaller t).next s.shared = some (pc', m')) : m'.late = [] := by
  obtain ⟨-, rfl | ⟨hEvent, hwriting, rfl⟩⟩ := Signaller.next_shared hnext
  · exact hs.late
  · rcases s.destroyer.phases with hbefore | hclosing | hdone
    · obtain ⟨hreleased, hclosed, -⟩ := hs.before hbefore
      rw [Shared.use_late _ _ hreleased (hclosed _)]
      exact hs.late
    · have hquiet := (hs.closing hclosing).signaller t
      rw [hwriting] at hquiet
      cases hquiet
    · have hunarmed := (hs.done hdone).2.1 t
      rw [hwriting] at hunarmed
      cases hunarmed

/-- Nor is one of the waiter. -/
theorem Unused.waiter_late (hs : Unused s) {goOn : Bool} {m' : Shared} {pc' : Waiter}
    (hnext : s.waiter.next s.shared goOn = some (pc', m')) : m'.late = [] := by
  obtain ⟨-, rfl | ⟨fd, stale, hreading, rfl⟩⟩ := Waiter.next_shared hnext
  · exact hs.late
  · rcases s.destroyer.phases with hbefore | hclosing | hdone
    · obtain ⟨-, hclosed, hstale⟩ := hs.before hbefore
      rw [hreading] at hstale
      have hlive : stale = false := hstale
      rw [Shared.use_late _ _ hlive (hclosed _)]
      exact hs.late
    · have hquiet := (hs.closing hclosing).waiter
      rw [hreading] at hquiet
      cases hquiet
    · have hunarmed := (hs.done hdone).2.2
      rw [hreading] at hunarmed
      cases hunarmed

theorem Unused.destroyer_step (hs : Unused s) (hstarts : s.destroyer = .closingRead → Quiet s)
    {m' : Shared} {pc' : Destroyer} (hnext : s.destroyer.next s.shared = some (pc', m')) :
    Unused { s with shared := m', destroyer := pc' } := by
  cases hdestroyer : s.destroyer with
  | done =>
      rw [hdestroyer] at hnext
      cases hnext
  | closingRead =>
      obtain ⟨hsignaller, hwaiter⟩ := hstarts hdestroyer
      rw [hdestroyer] at hnext
      cases hnext
      exact ⟨hs.late, nofun, fun _ => ⟨hsignaller, hwaiter⟩, nofun⟩
  | closingWrite | freeing =>
      obtain ⟨hsignaller, hwaiter⟩ := hs.closing (by rw [hdestroyer]; rfl)
      rw [hdestroyer] at hnext
      cases hnext
      exact ⟨hs.late, nofun, fun _ => ⟨hsignaller, hwaiter⟩, nofun⟩
  | clearing =>
      obtain ⟨hsignaller, hwaiter⟩ := hs.closing (by rw [hdestroyer]; rfl)
      rw [hdestroyer] at hnext
      cases hnext
      exact ⟨hs.late, nofun, nofun, fun _ => ⟨rfl,
        fun t => Signaller.unarmed_of_quiet (hsignaller t), Waiter.unarmed_of_quiet hwaiter⟩⟩

theorem step_unused [DecidableEq Thread] {a : Action Thread} (hs : Unused s)
    (hundisturbed : Undisturbed s a) (hstep : step s a = some u) : Unused u := by
  cases a with
  | call t op =>
      rw [step] at hstep
      split at hstep
      · cases hstep
        exact hs.setSignaller (fun _ => by cases op <;> rfl) (fun _ => by cases op <;> rfl)
      · cases hstep
  | signaller t =>
      obtain ⟨⟨pc', m'⟩, hnext, rfl⟩ := Option.map_eq_some_iff.mp hstep
      have hlate := hs.signaller_late hnext
      have hmoved : Unused { s with signaller := Function.update s.signaller t pc' } := by
        refine hs.setSignaller (fun hclosing => ?_) (fun hdone => ?_)
        · refine Signaller.next_quiet ((hs.closing hclosing).signaller t) ?_ hnext
          intro hlocks
          rw [hundisturbed.locks hlocks] at hclosing
          cases hclosing
        · obtain ⟨himpl, hsignaller, -⟩ := hs.done hdone
          exact Signaller.next_unarmed (hsignaller t) himpl hnext
      obtain ⟨⟨late, rfl⟩, -⟩ := Signaller.next_shared hnext
      exact hmoved.congr hlate rfl rfl rfl
  | wait =>
      rw [step] at hstep
      split at hstep
      · cases hstep
        split
        · rename_i hresolves
          refine hs.setWaiter (fun _ => rfl) (fun hclosing => ?_) (fun _ => rfl)
          rw [hundisturbed.locks hresolves] at hclosing
          cases hclosing
        · exact hs
      · cases hstep
  | waiter goOn =>
      obtain ⟨⟨pc', m'⟩, hnext, rfl⟩ := Option.map_eq_some_iff.mp hstep
      have hlate := hs.waiter_late hnext
      have hmoved : Unused { s with waiter := pc' } := by
        refine hs.setWaiter (fun hbefore => ?_) (fun hclosing => ?_) (fun hdone => ?_)
        · obtain ⟨hreleased, -, hstale⟩ := hs.before hbefore
          exact Waiter.next_stale hstale hreleased hnext
        · have hquiet := (hs.closing hclosing).waiter
          cases hwaiter : s.waiter with
          | away =>
              rw [hwaiter] at hnext
              cases hnext
          | _ =>
              rw [hwaiter] at hquiet
              cases hquiet
        · obtain ⟨himpl, -, hwaiter⟩ := hs.done hdone
          exact Waiter.next_unarmed hwaiter himpl hnext
      obtain ⟨⟨late, rfl⟩, -⟩ := Waiter.next_shared hnext
      exact hmoved.congr hlate rfl rfl rfl
  | destroyer =>
      obtain ⟨⟨pc', m'⟩, hnext, rfl⟩ := Option.map_eq_some_iff.mp hstep
      exact hs.destroyer_step hundisturbed.starts hnext
  | handleDestroy =>
      cases hstep
      exact hs.congr hs.late rfl rfl rfl
  | otherOpen fd | otherClose fd =>
      rw [step] at hstep
      split at hstep
      · cases hstep
        exact hs.congr hs.late rfl rfl rfl
      · cases hstep

end Step

/-! ## Every run -/

/-- No use of the pipe is late in a run. -/
def NoLateUse [DecidableEq Thread] (pipeFiles : ℤ × ℤ) (associated : Handle → Bool)
    (actions : List (Action Thread)) : Prop :=
  ∀ s, run step (initial Thread pipeFiles associated) actions = some s → s.shared.late = []

theorem noLateUse_of_undisturbed [DecidableEq Thread] (pipeFiles : ℤ × ℤ)
    (associated : Handle → Bool) (actions : List (Action Thread))
    (hundisturbed : Along step Undisturbed (initial Thread pipeFiles associated) actions) :
    NoLateUse pipeFiles associated actions := by
  intro s hrun
  have hs : Unused s := run_induction_along
    (fun _ _ _ hv hundisturbed hstep => step_unused hv hundisturbed hstep)
    (initial_unused pipeFiles associated) hundisturbed hrun
  exact hs.late

/-- A signal and a wait that are over when the set is destroyed, and a signal that
finds its handle gone. -/
theorem noLateUse_in_order : NoLateUse (3, 4) (fun _ => true)
    ([.call 0 (.set 7), .signaller 0, .signaller 0, .signaller 0, .signaller 0, .signaller 0,
      .wait, .waiter true, .waiter false, .waiter true, .waiter false, .handleDestroy,
      .destroyer, .destroyer, .call 1 .wake, .signaller 1, .destroyer, .destroyer,
      .otherOpen 4] : List (Action (Fin 2))) :=
  noLateUse_of_undisturbed _ _ _ (by decide)

/-- A signal that has unlocked the handle when the set is destroyed, and the same in a
wait that is in `poll`. -/
def strayActions : List (Action (Fin 2)) :=
  [.call 0 (.set 7), .signaller 0, .signaller 0, .signaller 0, .signaller 0, .wait, .waiter true,
    .waiter false, .waiter true, .waiter true, .destroyer, .destroyer, .otherOpen 4, .destroyer,
    .signaller 0, .waiter true, .waiter true, .waiter false]

/-- The handle of the event is written to another file, and `PollEvent` reads from a
number that is closed. -/
theorem not_noLateUse : ¬NoLateUse (3, 4) (fun _ => true) strayActions ∧
    ∃ s, run step (initial (Fin 2) (3, 4) fun _ => true) strayActions = some s ∧
      s.shared.late = [{ use := .write 7, fd := 4, file := some .other },
        { use := .read, fd := 3, file := none }] := by
  refine ⟨fun hnone => ?_, _, rfl, rfl⟩
  exact absurd (hnone _ rfl) (List.cons_ne_nil _ _)

end OfcDarwin.Waitset.Destroy
