import OfcDarwin.Waitset.Accounting

/-!
# Every signal is answered

`Waitset/NoLostEvent.lean` says where the scheduler is not left: asleep, over a handle of
the set that is ready.  Here is where it gets to.  As long as a handle of the set is
ready, the scheduler is a bounded number of its own steps away from the return of a wait
with a handle, whatever the other threads do, unless one of them takes the readiness back
(`answered`).  The handle that is returned may be another one, that stands before it.

`due` is that number.  It is what is left of the wait (`Scheduler.work`), and the way
round that the scheduler still has to make before the scan which finds the handle: a wait
that is past it goes to `poll` and reads the messages first.  Each step of the scheduler
pays one of it.  A message that is written costs four, as it may be read in `PollEvent`
and be in the way of the next purge, and a handle that is linked in costs two.
-/

namespace OfcDarwin.Waitset

open Transition

variable {Thread : Type} {core : Core} {pipeFile : ℤ} {capacity : ℕ} {h : Handle}

/-- The step is the return of a wait with a handle that the scan or `PollEvent` has
found. -/
def answers (core : Core) (s : State Thread) : Action Thread → Bool
  | .scheduler _ => (s.scheduler.returns core s.shared).isSome
  | _ => false

/-- The step takes a signal of the event back, or an element of the wait queue out. -/
def withdraws (h : Handle) : Action Thread → Bool
  | .call _ (.reset hEvent) => hEvent = h
  | .call _ (.dequeue hWaitQ) => hWaitQ = h
  | _ => false

/-! ## What is due -/

/-- The steps of a whole wait, from the look at `deleteMe` to a handle of the scan. -/
def wholeWait (m : Shared Thread) : ℕ := m.world.pipe.length + m.hHandleQueue.length + 3

/-- The steps before the scan that finds the handle, with those of that scan, as far as
they are not `Scheduler.work`. -/
def Scheduler.detour (h : Handle) (m : Shared Thread) : Scheduler → ℕ
  | .starting => wholeWait m + 1
  | .checking => wholeWait m
  | .scanning index _ =>
      -- the handle is still ahead, or the scan has passed it
      if h ∈ m.hHandleQueue.drop index then 0 else 3 * m.world.pipe.length + 2 + wholeWait m
  | .polling _ => 3 * m.world.pipe.length + 2 + wholeWait m
  | .reading _ | .testing _ _ | .consuming _ _ => wholeWait m
  | .exited | .purging | .resetting _ => 0

/-- The steps of the scheduler in which a wait returns with a handle. -/
def due (h : Handle) (s : State Thread) : ℕ :=
  s.scheduler.work s.shared + s.scheduler.detour h s.shared

theorem due_le (h : Handle) (s : State Thread) :
    due h s ≤ 4 * s.shared.world.pipe.length + 2 * s.shared.hHandleQueue.length + 6 := by
  unfold due
  cases s.scheduler with
  | scanning index scan =>
      simp only [Scheduler.work, Scheduler.detour, wholeWait]
      split <;> omega
  | _ =>
      simp only [Scheduler.work, Scheduler.detour, wholeWait]
      omega

/-- What another thread adds to what is due. -/
theorem due_le_of_grown {s u : State Thread} {written linked : Bool}
    (hscheduler : u.scheduler = s.scheduler)
    (hpipe : u.shared.world.pipe.length ≤ s.shared.world.pipe.length + charge written)
    (hqueue : u.shared.hHandleQueue.length ≤ s.shared.hHandleQueue.length + charge linked)
    (hgrown : s.shared.hHandleQueue <+: u.shared.hHandleQueue) :
    due h u ≤ due h s + (4 * charge written + 2 * charge linked) := by
  unfold due
  rw [hscheduler]
  cases s.scheduler with
  | scanning index scan =>
      -- what is ahead of the scan stays ahead
      have hahead : h ∈ s.shared.hHandleQueue.drop index → h ∈ u.shared.hHandleQueue.drop index :=
        fun hmem => (hgrown.drop index).subset hmem
      simp only [Scheduler.work, Scheduler.detour, wholeWait]
      split_ifs with hafter hbefore hbefore
      · omega
      · omega
      · exact absurd (hahead hbefore) hafter
      · omega
  | _ =>
      simp only [Scheduler.work, Scheduler.detour, wholeWait]
      omega

/-! ## The invariant -/

/-- The handle waits for an answer: it is in the queue and ready, and the scheduler has
no element without an owner. -/
structure Waiting (core : Core) (h : Handle) (s : State Thread) : Prop where
  present : ∀ g ∈ s.shared.hHandleQueue, g ≠ handleNull
  owned : ∀ element ∈ s.scheduler.elements, element.hAssoc ≠ handleNull
  queued : h ∈ s.shared.hHandleQueue
  pending : Pending core s.shared.world h

/-- A step of another thread. -/
theorem Waiting.other {s u : State Thread} (hwaiting : Waiting core h s)
    (hscheduler : u.scheduler = s.scheduler)
    (hqueue : u.shared.hHandleQueue = s.shared.hHandleQueue ∨
      ∃ g, g ≠ handleNull ∧ u.shared.hHandleQueue = s.shared.hHandleQueue ++ [g])
    (hpending : Pending core u.shared.world h) : Waiting core h u := by
  obtain ⟨hpresent, howned, hqueued, -⟩ := hwaiting
  rw [← hscheduler] at howned
  rcases hqueue with heq | ⟨g, hg, heq⟩
  · rw [← heq] at hpresent hqueued
    exact ⟨hpresent, howned, hqueued, hpending⟩
  · refine ⟨fun f hf => ?_, howned, ?_, hpending⟩
    · rw [heq, List.mem_append, List.mem_singleton] at hf
      rcases hf with hf | rfl
      · exact hpresent f hf
      · exact hg
    · rw [heq]
      exact List.mem_append_left [g] hqueued

/-- A handle that is ready stays so if its event and its queue stay as they are. -/
theorem Pending.keep {w w' : World} (hpending : Pending core w h)
    (hevent : w'.event h = w.event h) (hwaitq : w'.waitq h = w.waitq h) : Pending core w' h :=
  hpending.of_eq (fun _ => hevent.symm) fun _ => hwaitq.symm

/-! ## The scheduler -/

section Scheduler

variable {m m' : Shared Thread} {pc pc' : Scheduler}

/-- The scheduler leaves the queue alone. -/
theorem Scheduler.Stepped.queue (hstepped : pc.Stepped core pipeFile m pc' m') :
    m'.hHandleQueue = m.hHandleQueue := by
  cases hstepped <;> rfl

/-- It has elements only of handles it has scanned. -/
theorem Scheduler.Stepped.owned (hstepped : pc.Stepped core pipeFile m pc' m')
    (howned : ∀ element ∈ pc.elements, element.hAssoc ≠ handleNull) :
    ∀ element ∈ pc'.elements, element.hAssoc ≠ handleNull := by
  intro element hmem
  rcases hstepped.elements hmem with hbefore | ⟨hpresent, -⟩
  · exact howned element hbefore
  · exact hpresent

/-- It takes an event only to return a handle. -/
theorem Scheduler.Stepped.pending (hstepped : pc.Stepped core pipeFile m pc' m')
    (howned : ∀ element ∈ pc.elements, element.hAssoc ≠ handleNull)
    (hsilent : pc.returns core m = none) (hpending : Pending core m.world h) :
    Pending core m'.world h := by
  cases hstepped with
  | reset hEvent => exact absurd hsilent (by simp [Scheduler.returns])
  | consumed scan element =>
      rw [Scheduler.returns, if_neg (howned element List.mem_cons_self)] at hsilent
      exact absurd hsilent (by simp)
  | _ => exact hpending.keep rfl rfl

/-- A round of the scan that is not a return is the reset of an event, or goes on past a
handle that is not ready. -/
theorem round_of_silent {index : ℕ} {scan : Scan} {g : Handle}
    (hget : m.hHandleQueue[index]? = some g) (hpresent : g ≠ handleNull)
    (hsilent : (Scheduler.scanning index scan).returns core m = none) :
    Scheduler.round core m index scan g = .resetting g ∨ ¬ Pending core m.world g ∧
      ∃ scan', Scheduler.round core m index scan g = .scanning (index + 1) scan' := by
  have hround : Scheduler.round core m index scan g ≠ .checking := by
    intro hchecking
    rw [Scheduler.returns, hget, Option.filter_some, if_pos (by simp [hpresent, hchecking])]
      at hsilent
    cases hsilent
  unfold Scheduler.round at hround ⊢
  cases hfinding : inspect core m.world g with
  | triggered consumed =>
      rw [hfinding] at hround
      cases consumed with
      | false => exact absurd rfl hround
      | true =>
          by_cases hauto : m.world.eventGetType g = .auto
          · exact Or.inl (if_pos hauto)
          · exact absurd (if_neg hauto) hround
  | _ =>
      refine Or.inr ⟨fun hpending => ?_, _, rfl⟩
      obtain ⟨consumed, htriggered⟩ := hpending.inspect_eq
      rw [hfinding] at htriggered
      cases htriggered

/-- Each step of the scheduler pays one of what is due, unless it is a return. -/
theorem Scheduler.Stepped.due (hstepped : pc.Stepped core pipeFile m pc' m')
    (hpresent : ∀ g ∈ m.hHandleQueue, g ≠ handleNull) (hqueued : h ∈ m.hHandleQueue)
    (hpending : Pending core m.world h) (hsilent : pc.returns core m = none) :
    1 + (pc'.work m' + pc'.detour h m') ≤ pc.work m + pc.detour h m := by
  cases hstepped with
  | registered =>
      show 1 + (0 + wholeWait m) ≤ 0 + (wholeWait m + 1)
      omega
  | checked =>
      split
      · show 1 + (0 + 0) ≤ 0 + wholeWait m
        simp only [wholeWait]
        omega
      · simp only [Scheduler.work, Scheduler.detour, wholeWait]
        omega
  | discarded hpipe =>
      simp only [Scheduler.work, Scheduler.detour, hpipe, Shared.setPipe, List.length_cons]
      omega
  | purged hpipe =>
      simp only [Scheduler.work, Scheduler.detour, hpipe, List.drop_zero, if_pos hqueued,
        List.length_nil]
      omega
  | @scanned index scan hend =>
      -- the scan has come to the end of the queue
      have hnone : m.hHandleQueue[index]? = none := by
        cases hget : m.hHandleQueue[index]? with
        | none => rfl
        | some g => exact absurd (hend g hget) (hpresent g (List.mem_of_getElem? hget))
      have hdrop : m.hHandleQueue.drop index = [] :=
        List.drop_eq_nil_iff.mpr (List.getElem?_eq_none_iff.mp hnone)
      simp only [Scheduler.work, Scheduler.detour, hdrop, if_neg List.not_mem_nil]
      omega
  | @inspected index scan g hget hg =>
      obtain ⟨hindex, -⟩ := List.getElem?_eq_some_iff.mp hget
      rcases round_of_silent hget hg hsilent with hreset | ⟨hnot, scan', hnext⟩
      · rw [hreset]
        simp only [Scheduler.work, Scheduler.detour]
        omega
      · -- the handle is still ahead, as it is not the one that the scan has gone past
        have hahead : h ∈ m.hHandleQueue.drop index → h ∈ m.hHandleQueue.drop (index + 1) := by
          intro hmem
          rw [List.drop_eq_getElem_cons hindex, List.mem_cons] at hmem
          refine hmem.resolve_left fun heq => ?_
          rw [List.getElem?_eq_getElem hindex, Option.some.injEq, ← heq] at hget
          exact hnot (hget ▸ hpending)
        rw [hnext]
        simp only [Scheduler.work, Scheduler.detour]
        split_ifs with hafter hbefore hbefore
        · omega
        · omega
        · exact absurd (hahead hbefore) hafter
        · omega
  | reset hEvent => exact absurd hsilent (by simp [Scheduler.returns])
  | readable =>
      simp only [Scheduler.work, Scheduler.detour]
      omega
  | returned =>
      simp only [Scheduler.work, Scheduler.detour]
      omega
  | drained hpipe =>
      simp only [Scheduler.work, Scheduler.detour]
      omega
  | woken hpipe =>
      simp only [Scheduler.work, Scheduler.detour, wholeWait, hpipe, Shared.setPipe,
        List.length_cons]
      omega
  | skipped hpipe =>
      simp only [Scheduler.work, Scheduler.detour, wholeWait, hpipe, Shared.setPipe,
        List.length_cons]
      omega
  | named hpipe hfind =>
      simp only [Scheduler.work, Scheduler.detour, wholeWait, hpipe, Shared.setPipe,
        List.length_cons]
      omega
  | unsignalled htest =>
      simp only [Scheduler.work, Scheduler.detour]
      omega
  | signalled htest =>
      split
      · simp only [Scheduler.work, Scheduler.detour]
        omega
      · split <;> simp only [Scheduler.work, Scheduler.detour] <;> omega
  | consumed scan element =>
      split
      · simp only [Scheduler.work, Scheduler.detour, wholeWait, Shared.eventReset, World.eventReset]
        omega
      · simp only [Scheduler.work, Scheduler.detour, wholeWait, Shared.eventReset, World.eventReset]
        omega

end Scheduler

/-! ## The other threads -/

section Others

variable {m m' : Shared Thread}

theorem signal_pending (hEvent : Handle) (hpending : Pending core m.world h) :
    Pending core (m.signal capacity hEvent).world h := by
  obtain ⟨pipe, heq⟩ := m.signal_eq_setPipe capacity hEvent
  rw [heq]
  exact hpending.keep rfl rfl

theorem start_pending {t : Thread} {op : Op} {pc' : Client}
    (hstart : op.start m core = some (pc', m')) (hkeeps : withdraws h (.call t op) = false)
    (hpending : Pending core m.world h) : Pending core m'.world h := by
  cases op <;> rw [Op.start] at hstart
  case set hEvent =>
    obtain ⟨-, rfl⟩ := Prod.mk.inj (Option.some.inj hstart)
    exact hpending
  case reset hEvent =>
    rw [Option.ite_none_right_eq_some] at hstart
    obtain ⟨-, rfl⟩ := Prod.mk.inj (Option.some.inj hstart.2)
    have hother : h ≠ hEvent := fun heq => of_decide_eq_false hkeeps heq.symm
    refine hpending.keep ?_ rfl
    show (m.world.eventReset hEvent).event h = _
    rw [event_eventReset, if_neg hother]
  case enqueue hWaitQ =>
    obtain ⟨-, rfl⟩ := Prod.mk.inj (Option.some.inj hstart)
    by_cases hsame : h = hWaitQ
    · rcases pending_iff.mp hpending with hsignalled | ⟨htype, -⟩
      · exact pending_iff.mpr (Or.inl hsignalled)
      · refine pending_iff.mpr (Or.inr ⟨htype, ?_⟩)
        rw [Shared.setWaitq_waitq, hsame, Function.update_self]
        exact Nat.succ_ne_zero _
    · exact hpending.keep rfl (Function.update_of_ne hsame ..)
  case dequeue hWaitQ =>
    obtain ⟨-, rfl⟩ := Prod.mk.inj (Option.some.inj hstart)
    have hother : h ≠ hWaitQ := fun heq => of_decide_eq_false hkeeps heq.symm
    exact hpending.keep rfl (Function.update_of_ne hother ..)
  case add hEvent =>
    rw [Option.ite_none_left_eq_some] at hstart
    obtain ⟨-, rfl⟩ := Prod.mk.inj (Option.some.inj hstart.2)
    exact hpending.keep rfl rfl

theorem next_pending [DecidableEq Thread] {t : Thread} {pc pc' : Client}
    (hnext : pc.next core capacity t m = some (pc', m')) (hpending : Pending core m.world h) :
    Pending core m'.world h := by
  cases pc <;> rw [Client.next] at hnext
  case idle => exact absurd hnext (by simp)
  case setting hEvent =>
    split at hnext
    · obtain ⟨-, rfl⟩ := Prod.mk.inj (Option.some.inj hnext)
      exact hpending
    · rename_i event hevent
      rw [Option.ite_none_right_eq_some] at hnext
      obtain ⟨-, rfl⟩ := Prod.mk.inj (Option.some.inj hnext.2)
      by_cases hsame : h = hEvent
      · rcases pending_iff.mp hpending with ⟨htype, -⟩ | hfull
        · refine pending_iff.mpr (Or.inl ⟨htype, event.set, ?_, rfl⟩)
          rw [Shared.store_event, hsame, Function.update_self]
        · exact pending_iff.mpr (Or.inr hfull)
      · exact hpending.keep (Function.update_of_ne hsame ..) rfl
  case signalling hEvent =>
    obtain ⟨-, rfl⟩ := Prod.mk.inj (Option.some.inj hnext)
    exact signal_pending hEvent hpending
  case associating hEvent =>
    split at hnext
    all_goals
      obtain ⟨-, rfl⟩ := Prod.mk.inj (Option.some.inj hnext)
      exact hpending
  case looking hEvent hAssoc =>
    rw [Option.ite_none_right_eq_some] at hnext
    obtain ⟨-, rfl⟩ := Prod.mk.inj (Option.some.inj hnext.2)
    exact hpending
  case notifying hAssoc =>
    obtain ⟨-, rfl⟩ := Prod.mk.inj (Option.some.inj hnext)
    exact signal_pending hAssoc hpending
  all_goals
    obtain ⟨-, rfl⟩ := Prod.mk.inj (Option.some.inj hnext)
    exact hpending

theorem deleter_pending {pc pc' : Deleter} (hnext : pc.next capacity m = some (pc', m'))
    (hpending : Pending core m.world h) : Pending core m'.world h := by
  cases pc <;> rw [Deleter.next] at hnext
  case waking =>
    obtain ⟨-, rfl⟩ := Prod.mk.inj (Option.some.inj hnext)
    exact signal_pending handleNull hpending
  case done => exact absurd hnext (by simp)
  all_goals
    obtain ⟨-, rfl⟩ := Prod.mk.inj (Option.some.inj hnext)
    exact hpending

theorem start_queue {op : Op} {pc' : Client} (hstart : op.start m core = some (pc', m')) :
    m'.hHandleQueue = m.hHandleQueue ∨
      ∃ g, g ≠ handleNull ∧ m'.hHandleQueue = m.hHandleQueue ++ [g] := by
  rcases (start_progress hstart).queue with heq | ⟨g, hg, -, heq⟩
  · exact Or.inl heq
  · exact Or.inr ⟨g, hg, heq⟩

end Others

/-! ## The result -/

section Answer

variable [DecidableEq Thread]

/-- What a run has to do for the handle to be answered: nobody takes its readiness back, and
no wait has returned with a handle so far. -/
def Unanswered (core : Core) (h : Handle) (s : State Thread) (a : Action Thread) : Prop :=
  withdraws h a = false ∧ answers core s a = false

omit [DecidableEq Thread] in
theorem returns_of_silent {s : State Thread} {reason : PollReturn}
    (hsilent : answers core s (.scheduler reason) = false) :
    s.scheduler.returns core s.shared = none :=
  Option.isNone_iff_eq_none.mp (Option.isSome_eq_false_iff.mp hsilent)

theorem step_waiting (s : State Thread) (a : Action Thread) (u : State Thread)
    (hwaiting : Waiting core h s) (hunanswered : Unanswered core h s a)
    (hstep : step core pipeFile capacity s a = some u) : Waiting core h u := by
  obtain ⟨hkeeps, hsilent⟩ := hunanswered
  cases a with
  | scheduler reason =>
      obtain ⟨pc, m, hnext, rfl⟩ := scheduler_inv hstep
      have hstepped := Scheduler.stepped hnext
      have hqueue : (s.moveScheduler pc m).shared.hHandleQueue = s.shared.hHandleQueue :=
        hstepped.queue
      obtain ⟨hpresent, howned, hqueued, hpending⟩ := hwaiting
      rw [← hqueue] at hpresent hqueued
      exact ⟨hpresent, hstepped.owned howned, hqueued,
        hstepped.pending howned (returns_of_silent hsilent) hpending⟩
  | call t op =>
      obtain ⟨-, pc, m, hstart, rfl⟩ := call_inv hstep
      exact hwaiting.other rfl (start_queue hstart) (start_pending hstart hkeeps hwaiting.pending)
  | client t =>
      obtain ⟨pc, m, hnext, rfl⟩ := client_inv hstep
      exact hwaiting.other rfl (Or.inl (next_grown hnext).2) (next_pending hnext hwaiting.pending)
  | deleter =>
      obtain ⟨pc, m, hnext, rfl⟩ := deleter_inv hstep
      exact hwaiting.other rfl (Or.inl (deleter_grown hnext).2)
        (deleter_pending hnext hwaiting.pending)
  | environment waitTime socket =>
      rw [environment_inv hstep]
      exact hwaiting.other rfl (Or.inl rfl) (hwaiting.pending.keep rfl rfl)

/-- A step of the scheduler is one that was due, and the others add to what is due. -/
theorem step_due (s : State Thread) (a : Action Thread) (u : State Thread)
    (hwaiting : Waiting core h s) (hunanswered : Unanswered core h s a)
    (hstep : step core pipeFile capacity s a = some u) :
    charge (schedules a) + due h u ≤ due h s + (4 * charge (writes s a) + 2 * charge (links a)) := by
  cases a with
  | scheduler reason =>
      obtain ⟨pc, m, hnext, rfl⟩ := scheduler_inv hstep
      obtain ⟨hpresent, -, hqueued, hpending⟩ := hwaiting
      exact ((Scheduler.stepped hnext).due hpresent hqueued hpending
        (returns_of_silent hunanswered.2)).trans (Nat.le_add_right ..)
  | call t op =>
      obtain ⟨-, pc, m, hstart, rfl⟩ := call_inv hstep
      obtain ⟨hpipe, hqueue⟩ := start_grown hstart t
      have hgrown : s.shared.hHandleQueue <+: m.hHandleQueue := by
        rcases start_queue hstart with heq | ⟨g, -, heq⟩
        · exact heq ▸ List.prefix_refl _
        · exact heq ▸ List.prefix_append ..
      exact (Nat.zero_add _).le.trans
        (due_le_of_grown rfl (hpipe.trans (Nat.le_add_right ..)) hqueue hgrown)
  | client t =>
      obtain ⟨pc, m, hnext, rfl⟩ := client_inv hstep
      obtain ⟨hpipe, hqueue⟩ := next_grown hnext
      exact (Nat.zero_add _).le.trans (due_le_of_grown rfl hpipe
        ((congrArg List.length hqueue).le.trans (Nat.le_add_right ..)) (hqueue ▸ List.prefix_refl _))
  | deleter =>
      obtain ⟨pc, m, hnext, rfl⟩ := deleter_inv hstep
      obtain ⟨hpipe, hqueue⟩ := deleter_grown hnext
      exact (Nat.zero_add _).le.trans (due_le_of_grown rfl hpipe
        ((congrArg List.length hqueue).le.trans (Nat.le_add_right ..)) (hqueue ▸ List.prefix_refl _))
  | environment waitTime socket =>
      rw [environment_inv hstep]
      exact (Nat.zero_add _).le.trans (due_le_of_grown rfl (Nat.le_add_right ..)
        (Nat.le_add_right ..) (List.prefix_refl _))

/-- The elements of the scheduler have owners in every reachable state. -/
theorem step_owned (s : State Thread) (a : Action Thread) (u : State Thread)
    (howned : ∀ element ∈ s.scheduler.elements, element.hAssoc ≠ handleNull)
    (hstep : step core pipeFile capacity s a = some u) :
    ∀ element ∈ u.scheduler.elements, element.hAssoc ≠ handleNull := by
  cases a with
  | scheduler reason =>
      obtain ⟨pc, m, hnext, rfl⟩ := scheduler_inv hstep
      exact (Scheduler.stepped hnext).owned howned
  | call t op =>
      obtain ⟨-, pc, m, -, rfl⟩ := call_inv hstep
      exact howned
  | client t =>
      obtain ⟨pc, m, -, rfl⟩ := client_inv hstep
      exact howned
  | deleter =>
      obtain ⟨pc, m, -, rfl⟩ := deleter_inv hstep
      exact howned
  | environment waitTime socket =>
      rw [environment_inv hstep]
      exact howned

/-- With no operation half way through, the scheduler goes on, and out of `poll` because
of the pipe. -/
theorem exists_pipe_step {s : State Thread} (hwatched : Watched core s)
    (hexclusive : Exclusive s) (hidle : ∀ t, s.client t = .idle) (hexited : s.scheduler ≠ .exited)
    (hqueued : h ∈ s.shared.hHandleQueue) (hpending : Pending core s.shared.world h) :
    ∃ u, step core pipeFile capacity s (.scheduler .pipe) = some u := by
  suffices hnext : ∃ next, s.scheduler.next core pipeFile .pipe s.shared = some next by
    obtain ⟨⟨pc, m⟩, hnext⟩ := hnext
    refine ⟨s.moveScheduler pc m, ?_⟩
    rw [step, hnext]
    rfl
  have hfree : ∀ hEvent, s.shared.free hEvent = true := by
    intro hEvent
    cases hmutex : s.shared.mutex hEvent with
    | none => rw [Shared.free, hmutex, Option.isNone_none]
    | some t =>
        have hholding := (hexclusive t hEvent).mp hmutex
        rw [hidle t] at hholding
        exact absurd hholding (by simp [Client.holding])
  have hother : ∃ next, s.scheduler.next core pipeFile .other s.shared = some next :=
    exists_scheduler_next hexited fun hEvent _ => hfree hEvent
  cases hpc : s.scheduler with
  | polling scan =>
      have hpassed : h ∈ s.scheduler.passed s.shared.hHandleQueue := by
        rw [hpc]
        exact hqueued
      have hpipe : s.shared.world.pipe ≠ [] := by
        rcases hwatched.announced h hpassed hpending with hne | ⟨t, hannounces⟩
        · exact hne
        · rw [hidle t] at hannounces
          exact absurd hannounces id
      exact ⟨_, if_pos hpipe⟩
  | _ =>
      rw [hpc] at hother
      exact hother

end Answer

end OfcDarwin.Waitset
