import OfcDarwin.Waitset.LateUse

/-!
# Going on to a late use

The condition of `Waitset/LateUse.lean` leaves nothing out.  Until the destroy has
cleared `pWaitSet->impl` every thread that holds the set has a pointer to it
(`Wired`), and nothing keeps it from using the pipe, whose numbers are closed by then.
So a step that disturbs a destroy can always be followed by a late use.
-/

namespace OfcDarwin.Waitset.Destroy

open Descriptors Transition

variable {Thread : Type} [DecidableEq Thread] {s u : State Thread}

/-! ## Until the destroy has ended -/

/-- The local `impl` of a signaller is not `OFC_NULL`. -/
def Signaller.armed : Signaller → Bool
  | .loaded _ impl | .writing _ impl => impl
  | _ => true

/-- The local `impl` of the waiter is not `OFC_NULL`, and `PollEvent` reads the pipe. -/
def Waiter.armed (pipeFile : ℤ) : Waiter → Bool
  | .purging impl => impl
  | .reading fd _ => fd = pipeFile
  | _ => true

/-- Until the destroy has ended the set is wired up, and its pipe is closed as far as
the destroy has come. -/
structure Wired (s : State Thread) : Prop where
  impl : s.destroyer ≠ .done → s.shared.impl = true
  signaller : s.destroyer ≠ .done → ∀ t, (s.signaller t).armed
  waiter : s.destroyer ≠ .done → s.waiter.armed s.shared.pipeFiles.1
  closedRead : s.destroyer ≠ .closingRead → s.shared.closed s.shared.pipeFiles.1 = true
  closedWrite : s.destroyer ≠ .closingRead → s.destroyer ≠ .closingWrite →
    s.shared.closed s.shared.pipeFiles.2 = true

omit [DecidableEq Thread] in
theorem initial_wired (pipeFiles : ℤ × ℤ) (associated : Handle → Bool) :
    Wired (initial Thread pipeFiles associated) :=
  { impl := fun _ => rfl
    signaller := fun _ _ => rfl
    waiter := fun _ => rfl
    closedRead := fun h => absurd rfl h
    closedWrite := fun h => absurd rfl h }

/-- A signaller takes the pointer that is in the set. -/
theorem Signaller.next_armed {m m' : Shared} {pc pc' : Signaller} (harmed : pc.armed)
    (himpl : m.impl = true) (hnext : pc.next m = some (pc', m')) : pc'.armed := by
  cases pc with
  | idle => cases hnext
  | setting hEvent | locking hEvent =>
      obtain ⟨hpc, -⟩ := Prod.mk.inj (Option.some.inj hnext)
      rw [← hpc]
      split <;> rfl
  | locked hEvent =>
      cases hnext
      exact himpl
  | loaded hEvent impl =>
      cases hnext
      exact harmed
  | writing hEvent impl =>
      cases impl with
      | false => cases hnext
      | true =>
          cases hnext
          rfl

/-- So does the waiter. -/
theorem Waiter.next_armed {m m' : Shared} {goOn : Bool} {pc pc' : Waiter}
    (harmed : pc.armed m.pipeFiles.1) (himpl : m.impl = true)
    (hnext : pc.next m goOn = some (pc', m')) : pc'.armed m.pipeFiles.1 := by
  cases pc with
  | away => cases hnext
  | locked =>
      cases hnext
      exact himpl
  | purging impl =>
      cases impl with
      | false => cases hnext
      | true => cases goOn <;> cases hnext <;> rfl
  | filling =>
      cases hnext
      rfl
  | scanning | polling => cases goOn <;> cases hnext <;> rfl
  | entering =>
      cases hnext
      exact decide_eq_true rfl
  | reading fd stale =>
      cases goOn <;> cases hnext
      · rfl
      · exact harmed

omit [DecidableEq Thread] in
theorem Wired.congr (hs : Wired s) {m : Shared} (himpl : m.impl = s.shared.impl)
    (hpipe : m.pipeFiles = s.shared.pipeFiles) (hclosed : m.closed = s.shared.closed) :
    Wired { s with shared := m } := by
  refine ⟨?_, hs.signaller, ?_, ?_, ?_⟩
  · rw [himpl]
    exact hs.impl
  · rw [hpipe]
    exact hs.waiter
  · rw [hpipe, hclosed]
    exact hs.closedRead
  · rw [hpipe, hclosed]
    exact hs.closedWrite

theorem Wired.setSignaller (hs : Wired s) {t : Thread} {pc : Signaller}
    (harmed : s.destroyer ≠ .done → pc.armed) :
    Wired { s with signaller := Function.update s.signaller t pc } := by
  refine ⟨hs.impl, fun hdone other => ?_, hs.waiter, hs.closedRead, hs.closedWrite⟩
  show (Function.update s.signaller t pc other).armed
  rw [Function.update_apply]
  split
  · exact harmed hdone
  · exact hs.signaller hdone other

omit [DecidableEq Thread] in
theorem Wired.destroyer_step (hs : Wired s) {m' : Shared} {pc' : Destroyer}
    (hnext : s.destroyer.next s.shared = some (pc', m')) :
    Wired { s with shared := m', destroyer := pc' } := by
  cases hdestroyer : s.destroyer with
  | done =>
      rw [hdestroyer] at hnext
      cases hnext
  | closingRead =>
      have hlive : s.destroyer ≠ .done := by rw [hdestroyer]; nofun
      rw [hdestroyer] at hnext
      cases hnext
      exact ⟨fun _ => hs.impl hlive, fun _ => hs.signaller hlive, fun _ => hs.waiter hlive,
        fun _ => Function.update_self .., fun _ h => absurd rfl h⟩
  | closingWrite =>
      have hlive : s.destroyer ≠ .done := by rw [hdestroyer]; nofun
      have hread := hs.closedRead (by rw [hdestroyer]; nofun)
      rw [hdestroyer] at hnext
      cases hnext
      refine ⟨fun _ => hs.impl hlive, fun _ => hs.signaller hlive, fun _ => hs.waiter hlive,
        fun _ => ?_, fun _ _ => Function.update_self ..⟩
      show Function.update s.shared.closed s.shared.pipeFiles.2 true s.shared.pipeFiles.1 = true
      rw [Function.update_apply]
      split
      · rfl
      · exact hread
  | freeing =>
      have hlive : s.destroyer ≠ .done := by rw [hdestroyer]; nofun
      have hread := hs.closedRead (by rw [hdestroyer]; nofun)
      have hwrite := hs.closedWrite (by rw [hdestroyer]; nofun) (by rw [hdestroyer]; nofun)
      rw [hdestroyer] at hnext
      cases hnext
      exact ⟨fun _ => hs.impl hlive, fun _ => hs.signaller hlive, fun _ => hs.waiter hlive,
        fun _ => hread, fun _ _ => hwrite⟩
  | clearing =>
      have hread := hs.closedRead (by rw [hdestroyer]; nofun)
      have hwrite := hs.closedWrite (by rw [hdestroyer]; nofun) (by rw [hdestroyer]; nofun)
      rw [hdestroyer] at hnext
      cases hnext
      exact ⟨fun h => absurd rfl h, fun h => absurd rfl h, fun h => absurd rfl h,
        fun _ => hread, fun _ _ => hwrite⟩

theorem step_wired {a : Action Thread} (hs : Wired s) (hstep : step s a = some u) : Wired u := by
  cases a with
  | call t op =>
      rw [step] at hstep
      split at hstep
      · cases hstep
        exact hs.setSignaller fun _ => by cases op <;> rfl
      · cases hstep
  | signaller t =>
      obtain ⟨⟨pc', m'⟩, hnext, rfl⟩ := Option.map_eq_some_iff.mp hstep
      have hmoved : Wired { s with signaller := Function.update s.signaller t pc' } :=
        hs.setSignaller fun hlive =>
          Signaller.next_armed (hs.signaller hlive t) (hs.impl hlive) hnext
      obtain ⟨⟨late, rfl⟩, -⟩ := Signaller.next_shared hnext
      exact hmoved.congr rfl rfl rfl
  | wait =>
      rw [step] at hstep
      split at hstep
      · cases hstep
        split
        · exact ⟨hs.impl, hs.signaller, fun _ => rfl, hs.closedRead, hs.closedWrite⟩
        · exact hs
      · cases hstep
  | waiter goOn =>
      obtain ⟨⟨pc', m'⟩, hnext, rfl⟩ := Option.map_eq_some_iff.mp hstep
      have hmoved : Wired { s with waiter := pc' } :=
        ⟨hs.impl, hs.signaller,
          fun hlive => Waiter.next_armed (hs.waiter hlive) (hs.impl hlive) hnext,
          hs.closedRead, hs.closedWrite⟩
      obtain ⟨⟨late, rfl⟩, -⟩ := Waiter.next_shared hnext
      exact hmoved.congr rfl rfl rfl
  | destroyer =>
      obtain ⟨⟨pc', m'⟩, hnext, rfl⟩ := Option.map_eq_some_iff.mp hstep
      exact hs.destroyer_step hnext
  | handleDestroy =>
      cases hstep
      exact hs.congr rfl rfl rfl
  | otherOpen fd | otherClose fd =>
      rw [step] at hstep
      split at hstep
      · cases hstep
        exact hs.congr rfl rfl rfl
      · cases hstep

/-! ## Going on -/

/-- The threads can go on to a late use. -/
def CanUseLate (s : State Thread) : Prop :=
  ∃ rest v, run step s rest = some v ∧ v.shared.late ≠ []

theorem CanUseLate.of_step {a : Action Thread} (hstep : step s a = some u)
    (hcan : CanUseLate u) : CanUseLate s :=
  exists_run_of_step hstep hcan

/-- A use of a number that the destroy has closed is late. -/
theorem Shared.use_ne_nil {m : Shared} {fd : ℤ} (hclosed : m.closed fd = true) (use : Use)
    (stale : Bool) : (m.use use stale fd).late ≠ [] := by
  have hlate : (m.use use stale fd).late = m.late ++ [_] := if_pos (Or.inr hclosed)
  rw [hlate]
  exact List.append_ne_nil_of_right_ne_nil _ (List.cons_ne_nil _ _)

/-- A signaller that holds the set can go on to a write, which is late. -/
theorem canUseLate_of_signaller (hs : Wired s) {t : Thread} (hheld : (s.signaller t).quiet = false)
    (hlive : s.destroyer ≠ .done) (hclosed : s.shared.closed s.shared.pipeFiles.2 = true) :
    CanUseLate s := by
  have hmove : ∀ {v : State Thread} {pc : Signaller}, v.signaller t = pc → ∀ {pc' : Signaller}
      {m' : Shared}, pc.next v.shared = some (pc', m') → step v (.signaller t) = some
        { v with shared := m', signaller := Function.update v.signaller t pc' } := by
    intro v pc hpc pc' m' hnext
    rw [step, hpc, hnext]
    rfl
  have hwriting : ∀ {v : State Thread} {hEvent : Handle}, v.signaller t = .writing hEvent true →
      v.shared.closed v.shared.pipeFiles.2 = true → CanUseLate v := by
    intro v hEvent hpc hclosed
    exact ⟨[.signaller t], _, run_cons_eq_some.mpr ⟨_, hmove hpc rfl, rfl⟩,
      Shared.use_ne_nil hclosed _ _⟩
  have hloaded : ∀ {v : State Thread} {hEvent : Handle}, v.signaller t = .loaded hEvent true →
      v.shared.closed v.shared.pipeFiles.2 = true → CanUseLate v := by
    intro v hEvent hpc hclosed
    exact .of_step (hmove hpc rfl) (hwriting (Function.update_self ..) hclosed)
  have harmed := hs.signaller hlive t
  cases hpc : s.signaller t with
  | idle | setting | locking =>
      rw [hpc] at hheld
      cases hheld
  | locked hEvent =>
      have hloads : Function.update s.signaller t (.loaded hEvent s.shared.impl) t =
          .loaded hEvent true := by
        rw [Function.update_self, hs.impl hlive]
      exact .of_step (hmove hpc rfl) (hloaded hloads hclosed)
  | loaded hEvent impl =>
      rw [hpc] at harmed
      obtain rfl : impl = true := harmed
      exact hloaded hpc hclosed
  | writing hEvent impl =>
      rw [hpc] at harmed
      obtain rfl : impl = true := harmed
      exact hwriting hpc hclosed

/-- The waiter that holds the set can go on to a read in `PollEvent`, which is late. -/
theorem canUseLate_of_waiter (hs : Wired s) (hheld : s.waiter.quiet = false)
    (hlive : s.destroyer ≠ .done) (hclosed : s.shared.closed s.shared.pipeFiles.1 = true) :
    CanUseLate s := by
  have hon : ∀ {pc pc' : Waiter} (goOn : Bool), pc.next s.shared goOn = some (pc', s.shared) →
      CanUseLate { s with waiter := pc' } → CanUseLate { s with waiter := pc } := by
    intro pc pc' goOn hnext hcan
    refine .of_step (a := .waiter goOn) ?_ hcan
    rw [step, hnext]
    rfl
  have hreading : ∀ stale,
      CanUseLate { s with waiter := .reading s.shared.pipeFiles.1 stale } := fun stale =>
    ⟨[.waiter false], _, rfl, Shared.use_ne_nil hclosed _ _⟩
  have hentering : CanUseLate { s with waiter := .entering } := hon true rfl (hreading _)
  have hpolling : CanUseLate { s with waiter := .polling } := hon true rfl hentering
  have hscanning : CanUseLate { s with waiter := .scanning } := hon true rfl hpolling
  have hfilling : CanUseLate { s with waiter := .filling } := hon true rfl hscanning
  have hpurging : CanUseLate { s with waiter := .purging true } := hon false rfl hfilling
  have hlocked : CanUseLate { s with waiter := .locked } := by
    refine hon true ?_ hpurging
    rw [Waiter.next, hs.impl hlive]
  have harmed := hs.waiter hlive
  suffices hall : ∀ pc, s.waiter = pc → CanUseLate { s with waiter := pc } from hall s.waiter rfl
  intro pc hpc
  cases pc with
  | away =>
      rw [hpc] at hheld
      cases hheld
  | locked => exact hlocked
  | purging impl =>
      rw [hpc] at harmed
      obtain rfl : impl = true := harmed
      exact hpurging
  | filling => exact hfilling
  | scanning => exact hscanning
  | polling => exact hpolling
  | entering => exact hentering
  | reading fd stale =>
      rw [hpc] at harmed
      obtain rfl : fd = s.shared.pipeFiles.1 := of_decide_eq_true harmed
      exact hreading stale

/-- While the pipe is being closed, a thread that holds the set can go on to a late
use. -/
theorem canUseLate_of_closing (hs : Wired s) (hclosing : s.destroyer.closing = true)
    (hheld : ¬Quiet s) : CanUseLate s := by
  have hlive : s.destroyer ≠ .done := by
    intro hdone
    rw [hdone] at hclosing
    cases hclosing
  have hstarted : s.destroyer ≠ .closingRead := by
    intro hbefore
    rw [hbefore] at hclosing
    cases hclosing
  by_cases hwaiter : s.waiter.quiet = true
  · obtain ⟨t, hsignaller⟩ : ∃ t, (s.signaller t).quiet = false := by
      by_contra hnone
      exact hheld ⟨fun t => eq_true_of_ne_false fun hne => hnone ⟨t, hne⟩, hwaiter⟩
    by_cases hwrite : s.destroyer = .closingWrite
    · -- the destroy closes the write end first
      have hstep : step s .destroyer = some
          { s with shared := s.shared.close s.shared.pipeFiles.2, destroyer := .freeing } := by
        rw [step, hwrite]
        rfl
      refine .of_step hstep (canUseLate_of_signaller (step_wired hs hstep) hsignaller (by simp) ?_)
      exact Function.update_self ..
    · exact canUseLate_of_signaller hs hsignaller hlive (hs.closedWrite hstarted hwrite)
  · exact canUseLate_of_waiter hs (eq_false_of_ne_true hwaiter) hlive (hs.closedRead hstarted)

/-- After a step that disturbs a destroy, the threads can go on to a late use. -/
theorem exists_late_of_disturbed {pipeFiles : ℤ × ℤ} {associated : Handle → Bool}
    {actions : List (Action Thread)} {a : Action Thread}
    (hrun : run step (initial Thread pipeFiles associated) actions = some s)
    (hstep : step s a = some u) (hdisturbed : ¬Undisturbed s a) : CanUseLate u := by
  have hs : Wired s := run_induction (fun _ _ _ hv hstep => step_wired hv hstep)
    (initial_wired pipeFiles associated) hrun
  have hu : Wired u := step_wired hs hstep
  by_cases hlocks : Locks s a ∧ s.destroyer.closing = true
  · obtain ⟨hlocks, hclosing⟩ := hlocks
    cases a with
    | signaller t =>
        obtain ⟨hresolves, hlocking⟩ := hlocks
        cases hpc : s.signaller t with
        | locking hEvent =>
            rw [step, hpc, Signaller.next, if_pos hresolves] at hstep
            cases hstep
            refine canUseLate_of_closing hu hclosing fun hquiet => ?_
            have hlocked := hquiet.signaller t
            simp [Signaller.quiet] at hlocked
        | _ =>
            rw [hpc] at hlocking
            cases hlocking
    | wait =>
        rw [step, if_pos (show s.shared.resolves = true from hlocks)] at hstep
        split at hstep
        · cases hstep
          refine canUseLate_of_closing hu hclosing fun hquiet => ?_
          have haway := hquiet.waiter
          simp [Waiter.quiet] at haway
        · cases hstep
    | _ => cases hlocks
  · obtain ⟨hstarts, hheld⟩ : Starts s a ∧ ¬Quiet s := by
      by_contra hnone
      refine hdisturbed ⟨fun hstarts => ?_, fun hlocking => ?_⟩
      · by_contra hheld
        exact hnone ⟨hstarts, hheld⟩
      · exact eq_false_of_ne_true fun hclosing => hlocks ⟨hlocking, hclosing⟩
    cases a with
    | destroyer =>
        rw [step, show s.destroyer = .closingRead from hstarts] at hstep
        cases hstep
        exact canUseLate_of_closing hu rfl fun hquiet => hheld ⟨hquiet.signaller, hquiet.waiter⟩
    | _ => cases hstarts

end OfcDarwin.Waitset.Destroy
