import OfcDarwin.Lib.Tally
import OfcDarwin.Waitset.Progress
import OfcDarwin.Waitset.Scan

/-!
# What a signal pays for

`Waitset/NoLostEvent.lean` says that no signal is lost.  The other half is that none is
reported twice: however the threads interleave, the waits have returned an auto-reset
event at most as often as it has been set (`reports_le_stores`).  The scheduler tests an
event and resets it in two steps, and other threads may reset it or set it again in
between, so a report is not paid for by the signal that was tested; it is paid for by
what `owed` keeps, which is at most one report.

The same way of counting bounds a wait (`wait_bounded`): the messages that are in the
pipe or are written meanwhile, and the handles that are in the queue or are linked in,
pay for the steps of the scheduler.  The messages cannot be left out of that bound: one
thread that goes on signalling keeps the scheduler in the purge (`purge_starved`).
-/

namespace OfcDarwin.Waitset

open Transition

variable {Thread : Type} {core : Core} {pipeFile : ℤ} {capacity : ℕ}

/-! ## What the scheduler can do -/

/-- The steps of the scheduler. -/
inductive Scheduler.Stepped (core : Core) (pipeFile : ℤ) (m : Shared Thread) :
    Scheduler → Scheduler → Shared Thread → Prop where
  | registered : Stepped core pipeFile m .starting .checking { m with registered := true }
  | checked : Stepped core pipeFile m .checking (if m.deleteMe then .exited else .purging) m
  | discarded {hEvent : Handle} {rest : List Handle} (hpipe : m.world.pipe = hEvent :: rest) :
      Stepped core pipeFile m .purging .purging (m.setPipe rest)
  | purged (hpipe : m.world.pipe = []) :
      Stepped core pipeFile m .purging (.scanning 0 (Scan.start core pipeFile)) m
  | scanned {index : ℕ} {scan : Scan} (hend : ∀ h ∈ m.hHandleQueue[index]?, h = handleNull) :
      Stepped core pipeFile m (.scanning index scan) (.polling scan) m
  | inspected {index : ℕ} {scan : Scan} {h : Handle} (hget : m.hHandleQueue[index]? = some h)
      (hpresent : h ≠ handleNull) :
      Stepped core pipeFile m (.scanning index scan) (.round core m index scan h) m
  | reset (hEvent : Handle) :
      Stepped core pipeFile m (.resetting hEvent) .checking (m.eventReset hEvent)
  | readable {scan : Scan} : Stepped core pipeFile m (.polling scan) (.reading scan) m
  | returned {scan : Scan} : Stepped core pipeFile m (.polling scan) .checking m
  | drained {scan : Scan} (hpipe : m.world.pipe = []) :
      Stepped core pipeFile m (.reading scan) .checking m
  | woken {scan : Scan} {rest : List Handle} (hpipe : m.world.pipe = handleNull :: rest) :
      Stepped core pipeFile m (.reading scan) .checking (m.setPipe rest)
  | skipped {scan : Scan} {hEvent : Handle} {rest : List Handle}
      (hpipe : m.world.pipe = hEvent :: rest) :
      Stepped core pipeFile m (.reading scan) (.reading scan) (m.setPipe rest)
  | named {scan : Scan} {element : EventElement} {hEvent : Handle} {rest : List Handle}
      (hpipe : m.world.pipe = hEvent :: rest)
      (hfind : scan.eventQueue.find? (·.hEvent = hEvent) = some element) :
      Stepped core pipeFile m (.reading scan) (.testing scan element) (m.setPipe rest)
  | unsignalled {scan : Scan} {element : EventElement}
      (htest : m.world.eventTest element.hEvent = false) :
      Stepped core pipeFile m (.testing scan element) (.reading scan) m
  | signalled {scan : Scan} {element : EventElement}
      (htest : m.world.eventTest element.hEvent = true) :
      Stepped core pipeFile m (.testing scan element)
        (if m.world.eventGetType element.hEvent = .auto then .consuming scan element
          else if element.hAssoc = handleNull then .reading scan else .checking) m
  | consumed (scan : Scan) (element : EventElement) :
      Stepped core pipeFile m (.consuming scan element)
        (if element.hAssoc = handleNull then .reading scan else .checking)
        (m.eventReset element.hEvent)

theorem Scheduler.stepped {reason : PollReturn} {m m' : Shared Thread} {pc pc' : Scheduler}
    (hnext : pc.next core pipeFile reason m = some (pc', m')) :
    pc.Stepped core pipeFile m pc' m' := by
  cases pc with
  | starting =>
      obtain ⟨rfl, rfl⟩ := Prod.mk.inj (Option.some.inj hnext)
      exact .registered
  | checking =>
      obtain ⟨rfl, rfl⟩ := Prod.mk.inj (Option.some.inj hnext)
      exact .checked
  | exited => exact absurd hnext (by simp [Scheduler.next])
  | purging =>
      rw [Scheduler.next] at hnext
      split at hnext
      · rename_i hpipe
        obtain ⟨rfl, rfl⟩ := Prod.mk.inj (Option.some.inj hnext)
        exact .purged hpipe
      · rename_i hpipe
        obtain ⟨rfl, rfl⟩ := Prod.mk.inj (Option.some.inj hnext)
        exact .discarded hpipe
  | scanning index scan =>
      rw [Scheduler.next] at hnext
      split at hnext
      · rename_i hend
        obtain ⟨rfl, rfl⟩ := Prod.mk.inj (Option.some.inj hnext)
        exact .scanned (by rw [hend]; intro g hg; exact absurd hg (by simp))
      · rename_i h hget
        by_cases hpresent : h = handleNull
        · rw [if_pos hpresent] at hnext
          obtain ⟨rfl, rfl⟩ := Prod.mk.inj (Option.some.inj hnext)
          exact .scanned (by rw [hget]; rintro g hg; exact Option.some.inj hg ▸ hpresent)
        · rw [if_neg hpresent, Option.ite_none_right_eq_some] at hnext
          obtain ⟨rfl, rfl⟩ := Prod.mk.inj (Option.some.inj hnext.2)
          exact .inspected hget hpresent
  | resetting hEvent =>
      rw [Scheduler.next, Option.ite_none_right_eq_some] at hnext
      obtain ⟨rfl, rfl⟩ := Prod.mk.inj (Option.some.inj hnext.2)
      exact .reset hEvent
  | polling scan =>
      cases reason with
      | pipe =>
          rw [Scheduler.next, Option.ite_none_right_eq_some] at hnext
          obtain ⟨rfl, rfl⟩ := Prod.mk.inj (Option.some.inj hnext.2)
          exact .readable
      | other =>
          obtain ⟨rfl, rfl⟩ := Prod.mk.inj (Option.some.inj hnext)
          exact .returned
  | reading scan =>
      rw [Scheduler.next] at hnext
      split at hnext
      · rename_i hpipe
        obtain ⟨rfl, rfl⟩ := Prod.mk.inj (Option.some.inj hnext)
        exact .drained hpipe
      · rename_i hEvent rest hpipe
        by_cases hwake : hEvent = handleNull
        · subst hwake
          rw [if_pos rfl] at hnext
          obtain ⟨rfl, rfl⟩ := Prod.mk.inj (Option.some.inj hnext)
          exact .woken hpipe
        · rw [if_neg hwake] at hnext
          split at hnext
          · obtain ⟨rfl, rfl⟩ := Prod.mk.inj (Option.some.inj hnext)
            exact .skipped hpipe
          · rename_i element hfind
            obtain ⟨rfl, rfl⟩ := Prod.mk.inj (Option.some.inj hnext)
            exact .named hpipe hfind
  | testing scan element =>
      rw [Scheduler.next, Option.ite_none_right_eq_some] at hnext
      obtain ⟨rfl, rfl⟩ := Prod.mk.inj (Option.some.inj hnext.2)
      cases htest : m.world.eventTest element.hEvent with
      | true => exact .signalled htest
      | false => exact .unsignalled htest
  | consuming scan element =>
      rw [Scheduler.next, Option.ite_none_right_eq_some] at hnext
      obtain ⟨rfl, rfl⟩ := Prod.mk.inj (Option.some.inj hnext.2)
      exact .consumed scan element

/-! ## Reports and stores -/

/-- The handle that the wait returns with the next step of the scheduler, when it is one
that the scan or `PollEvent` has found. -/
def Scheduler.returns (core : Core) (m : Shared Thread) : Scheduler → Option Handle
  | .scanning index scan =>
      m.hHandleQueue[index]?.filter fun h =>
        h ≠ handleNull ∧ Scheduler.round core m index scan h = .checking
  | .resetting hEvent => some hEvent
  | .testing _ element =>
      if m.world.eventTest element.hEvent ∧ m.world.eventGetType element.hEvent ≠ .auto ∧
          element.hAssoc ≠ handleNull then
        some element.hAssoc
      else none
  | .consuming _ element => if element.hAssoc = handleNull then none else some element.hAssoc
  | _ => none

/-- The step is the return of a wait with the handle `h`. -/
def reports (core : Core) (h : Handle) (s : State Thread) : Action Thread → Bool
  | .scheduler _ => s.scheduler.returns core s.shared = some h
  | _ => false

/-- The step is the store of `ofc_event_set_impl`. -/
def stores (hEvent : Handle) (s : State Thread) : Action Thread → Bool
  | .client t => s.client t = .setting hEvent
  | _ => false

/-- The scheduler has found the event signalled and is about to reset it. -/
def Scheduler.takes (hEvent : Handle) : Scheduler → Bool
  | .resetting taken => taken = hEvent
  | .consuming _ element => element.hEvent = hEvent
  | _ => false

/-- The event is good for a report: it is signalled, or the scheduler has taken it. -/
def good (hEvent : Handle) (w : World) (pc : Scheduler) : Bool :=
  w.eventTest hEvent || pc.takes hEvent

/-- The number of reports that an event is still good for. -/
def owed (hEvent : Handle) (s : State Thread) : ℕ := charge (good hEvent s.shared.world s.scheduler)

theorem good_iff {hEvent : Handle} {w : World} {pc : Scheduler} :
    good hEvent w pc = true ↔ w.eventTest hEvent = true ∨ pc.takes hEvent = true :=
  Bool.or_eq_true_iff

theorem charge_le_one (counted : Bool) : charge counted ≤ 1 := by
  cases counted <;> simp

theorem charge_le {before after : Bool} (hkept : after = true → before = true) :
    charge after ≤ charge before := by
  cases after with
  | false => exact Nat.zero_le _
  | true => rw [hkept rfl]

/-! ## The event -/

/-- `h` is a live auto-reset event, in the set as itself. -/
structure LiveAuto (core : Core) (h : Handle) (w : World) : Prop where
  type : core.handleGetType h = .event
  event : ∃ event, w.event h = some event ∧ event.eventType = .auto

namespace LiveAuto

variable {h : Handle} {w : World}

theorem getType (hlive : LiveAuto core h w) : w.eventGetType h = .auto := by
  obtain ⟨event, hevent, hauto⟩ := hlive.event
  rw [World.eventGetType, hevent]
  exact hauto

theorem eventReset (hlive : LiveAuto core h w) (hEvent : Handle) :
    LiveAuto core h (w.eventReset hEvent) := by
  obtain ⟨event, hevent, hauto⟩ := hlive.event
  refine ⟨hlive.type, ?_⟩
  rw [event_eventReset, hevent]
  split
  · exact ⟨event.reset, rfl, hauto⟩
  · exact ⟨event, rfl, hauto⟩

/-- A live event is not signalled after its reset. -/
theorem not_eventTest (hlive : LiveAuto core h w) : (w.eventReset h).eventTest h = false := by
  obtain ⟨event, hevent, -⟩ := hlive.event
  rw [World.eventTest, event_eventReset, if_pos rfl, hevent]
  rfl

/-- What the scan makes of it. -/
theorem inspect_eq (hlive : LiveAuto core h w) : inspect core w h =
    if w.eventTest h then .triggered true else .backed h := by
  rw [inspect, hlive.type]

/-- The scan takes it when it is signalled, and does not return it at once. -/
theorem round_eq {m : Shared Thread} (hlive : LiveAuto core h m.world) (index : ℕ)
    (scan : Scan) : Scheduler.round core m index scan h =
      if m.world.eventTest h then .resetting h
      else .scanning (index + 1) (scan.note h (.backed h)) := by
  rw [Scheduler.round, hlive.inspect_eq]
  by_cases htest : m.world.eventTest h = true
  · simp only [if_pos htest, if_pos hlive.getType]
  · simp only [if_neg htest]

end LiveAuto

/-! ## The scheduler -/

/-- The elements of the event queue, and the one in hand. -/
def Scheduler.elements : Scheduler → List EventElement
  | .scanning _ scan | .polling scan | .reading scan => scan.eventQueue
  | .testing scan element | .consuming scan element => element :: scan.eventQueue
  | _ => []

theorem mem_note_eventQueue {scan : Scan} {h : Handle} {finding : Finding} {element : EventElement}
    (hmem : element ∈ (scan.note h finding).eventQueue) :
    element ∈ scan.eventQueue ∨ element.hAssoc = h ∧ finding = .backed element.hEvent := by
  rw [Scan.note_eventQueue, List.mem_append] at hmem
  refine hmem.imp_right fun hmem => ?_
  cases finding with
  | backed hEvent =>
      obtain rfl := List.mem_singleton.mp hmem
      exact ⟨rfl, rfl⟩
  | _ => exact absurd hmem List.not_mem_nil

/-- An element comes from the round over its handle. -/
theorem Scheduler.Stepped.elements {m m' : Shared Thread} {pc pc' : Scheduler}
    (hstepped : pc.Stepped core pipeFile m pc' m') {element : EventElement}
    (hmem : element ∈ pc'.elements) :
    element ∈ pc.elements ∨ element.hAssoc ≠ handleNull ∧
      inspect core m.world element.hAssoc = .backed element.hEvent := by
  cases hstepped with
  | checked => split at hmem <;> exact absurd hmem List.not_mem_nil
  | scanned => exact Or.inl hmem
  | @inspected index scan h hget hpresent =>
      rw [Scheduler.round] at hmem
      split at hmem
      · split at hmem <;> exact absurd hmem List.not_mem_nil
      · exact absurd hmem List.not_mem_nil
      · refine (mem_note_eventQueue hmem).imp_right ?_
        rintro ⟨rfl, hbacked⟩
        exact ⟨hpresent, hbacked⟩
  | readable => exact Or.inl hmem
  | skipped => exact Or.inl hmem
  | named _ hfind =>
      rcases List.mem_cons.mp hmem with rfl | hmem
      · exact Or.inl (List.mem_of_find?_eq_some hfind)
      · exact Or.inl hmem
  | unsignalled => exact Or.inl (List.mem_cons_of_mem _ hmem)
  | signalled =>
      refine Or.inl ?_
      split at hmem
      · exact hmem
      · split at hmem
        · exact List.mem_cons_of_mem _ hmem
        · exact absurd hmem List.not_mem_nil
  | consumed =>
      split at hmem
      · exact Or.inl (List.mem_cons_of_mem _ hmem)
      · exact absurd hmem List.not_mem_nil
  | _ => exact absurd hmem List.not_mem_nil

section Scheduler

variable {h : Handle} {m m' : Shared Thread} {pc pc' : Scheduler}

/-- The scheduler makes no event good for a report. -/
theorem Scheduler.Stepped.good (hlive : LiveAuto core h m.world)
    (hstepped : pc.Stepped core pipeFile m pc' m') (hgood : good h m'.world pc' = true) :
    Waitset.good h m.world pc = true := by
  rw [good_iff] at hgood ⊢
  -- what is signalled after the step was so before, and what is taken was signalled
  cases hstepped with
  | checked => exact Or.inl (hgood.resolve_right (by split <;> simp [Scheduler.takes]))
  | @inspected index scan g hget hpresent =>
      refine Or.inl (hgood.elim id fun htakes => ?_)
      rw [Scheduler.round] at htakes
      split at htakes
      · rename_i hfinding
        split at htakes
        · have htaken : g = h := of_decide_eq_true htakes
          rw [htaken, hlive.inspect_eq] at hfinding
          split at hfinding
          · assumption
          · exact absurd hfinding (by simp)
        · exact absurd htakes (by simp [Scheduler.takes])
      · exact absurd htakes (by simp [Scheduler.takes])
      · exact absurd htakes (by simp [Scheduler.takes])
  | reset hEvent =>
      exact Or.inl (eventTest_of_eventReset (hgood.resolve_right (by simp [Scheduler.takes])))
  | @signalled scan element htest =>
      refine Or.inl (hgood.elim id fun htakes => ?_)
      split at htakes
      · have htaken : element.hEvent = h := of_decide_eq_true htakes
        rwa [htaken] at htest
      · split at htakes <;> exact absurd htakes (by simp [Scheduler.takes])
  | consumed scan element =>
      refine Or.inl (eventTest_of_eventReset (hgood.resolve_right ?_))
      split <;> simp [Scheduler.takes]
  | _ => exact Or.inl (hgood.resolve_right (by simp [Scheduler.takes]))

/-- A report of an auto-reset event uses up what the event was good for. -/
theorem Scheduler.Stepped.spent (hlive : LiveAuto core h m.world)
    (helements : ∀ element ∈ pc.elements, element.hAssoc = h → element.hEvent = h)
    (hstepped : pc.Stepped core pipeFile m pc' m') (hreport : pc.returns core m = some h) :
    Waitset.good h m.world pc = true ∧ Waitset.good h m'.world pc' = false := by
  cases hstepped with
  | reset hEvent =>
      obtain rfl := Option.some.inj hreport
      refine ⟨good_iff.mpr (Or.inr (decide_eq_true rfl)), ?_⟩
      rw [Waitset.good, Bool.or_eq_false_iff]
      exact ⟨hlive.not_eventTest, rfl⟩
  | consumed scan element =>
      rw [Scheduler.returns, Option.ite_none_left_eq_some] at hreport
      obtain ⟨hassoc, hreport⟩ := hreport
      have hnamed := helements element List.mem_cons_self (Option.some.inj hreport)
      refine ⟨good_iff.mpr (Or.inr (decide_eq_true hnamed)), ?_⟩
      rw [Waitset.good, Bool.or_eq_false_iff, if_neg hassoc]
      refine ⟨?_, rfl⟩
      show (m.world.eventReset element.hEvent).eventTest h = false
      rw [hnamed]
      exact hlive.not_eventTest
  | @inspected index scan g hget hpresent =>
      -- the scan resets an auto-reset event before it returns it
      rw [Scheduler.returns, hget, Option.filter_some] at hreport
      rw [Option.ite_none_right_eq_some] at hreport
      obtain ⟨hround, hreport⟩ := hreport
      obtain rfl := Option.some.inj hreport
      have hchecking := (of_decide_eq_true hround).2
      rw [hlive.round_eq] at hchecking
      split at hchecking <;> exact absurd hchecking (by simp)
  | scanned hend =>
      obtain ⟨hget, hpresent⟩ := Option.filter_eq_some_iff.mp hreport
      exact absurd (hend h hget) (of_decide_eq_true hpresent).1
  | unsignalled htest =>
      rw [Scheduler.returns, Option.ite_none_right_eq_some] at hreport
      exact absurd hreport.1.1 (by rw [htest]; simp)
  | @signalled scan element htest =>
      rw [Scheduler.returns, Option.ite_none_right_eq_some] at hreport
      have hnamed := helements element List.mem_cons_self (Option.some.inj hreport.2)
      exact absurd hlive.getType (hnamed ▸ hreport.1.2.1)
  | _ => exact absurd hreport (by simp [Scheduler.returns])

end Scheduler

/-! ## What a step does to an event -/

/-- An event is kept, reset, or signalled by the store of a set. -/
inductive Touched (h : Handle) (w w' : World) : Bool → Prop where
  | keep (stored : Bool) (hevent : w'.event h = w.event h) : Touched h w w' stored
  | reset (stored : Bool) (hevent : w'.event h = (w.event h).map DarwinEvent.reset) :
      Touched h w w' stored
  | store {event : DarwinEvent} (hbefore : w.event h = some event)
      (hevent : w'.event h = some event.set) : Touched h w w' true

theorem LiveAuto.of_touched {h : Handle} {w w' : World} {stored : Bool}
    (hlive : LiveAuto core h w) (htouched : Touched h w w' stored) : LiveAuto core h w' := by
  obtain ⟨htype, event, hevent, hauto⟩ := hlive
  refine ⟨htype, ?_⟩
  cases htouched with
  | keep _ heq => exact ⟨event, heq.trans hevent, hauto⟩
  | reset _ heq =>
      rw [heq, hevent]
      exact ⟨event.reset, rfl, hauto⟩
  | store hbefore heq =>
      obtain rfl := Option.some.inj (hevent.symm.trans hbefore)
      exact ⟨event.set, heq, hauto⟩

/-- Only a store signals. -/
theorem Touched.eventTest {h : Handle} {w w' : World} (hlive : LiveAuto core h w)
    (htouched : Touched h w w' false) (htest : w'.eventTest h = true) : w.eventTest h = true := by
  obtain ⟨-, event, hevent, -⟩ := hlive
  cases htouched with
  | keep _ heq => rwa [World.eventTest, heq] at htest
  | reset _ heq =>
      rw [World.eventTest, heq, hevent] at htest
      exact absurd htest (by simp [ofcEventTestImpl])

theorem touched_eventReset (w : World) (hEvent h : Handle) (stored : Bool) :
    Touched h w (w.eventReset hEvent) stored := by
  have heq := event_eventReset w hEvent h
  split at heq
  · exact .reset stored heq
  · exact .keep stored heq

theorem Scheduler.Stepped.touched {m m' : Shared Thread} {pc pc' : Scheduler}
    (hstepped : pc.Stepped core pipeFile m pc' m') (h : Handle) :
    Touched h m.world m'.world false := by
  cases hstepped with
  | reset hEvent => exact touched_eventReset ..
  | consumed scan element => exact touched_eventReset ..
  | _ => exact .keep false rfl

theorem signal_event (m : Shared Thread) (hEvent : Handle) :
    (m.signal capacity hEvent).world.event = m.world.event := by
  obtain ⟨pipe, heq⟩ := m.signal_eq_setPipe capacity hEvent
  rw [heq]
  rfl

theorem start_touched {op : Op} {m m' : Shared Thread} {pc' : Client}
    (hstart : op.start m core = some (pc', m')) (h : Handle) :
    Touched h m.world m'.world false := by
  cases op <;> rw [Op.start] at hstart
  case reset hEvent =>
    rw [Option.ite_none_right_eq_some] at hstart
    obtain ⟨-, rfl⟩ := Prod.mk.inj (Option.some.inj hstart.2)
    exact touched_eventReset ..
  case add hEvent =>
    rw [Option.ite_none_left_eq_some] at hstart
    obtain ⟨-, rfl⟩ := Prod.mk.inj (Option.some.inj hstart.2)
    exact .keep false rfl
  all_goals
    obtain ⟨-, rfl⟩ := Prod.mk.inj (Option.some.inj hstart)
    exact .keep false rfl

theorem next_touched [DecidableEq Thread] {t : Thread} {m m' : Shared Thread} {pc pc' : Client}
    (hnext : pc.next core capacity t m = some (pc', m')) (h : Handle) :
    Touched h m.world m'.world (pc = .setting h) := by
  cases pc <;> rw [Client.next] at hnext
  case idle => exact absurd hnext (by simp)
  case setting hEvent =>
    split at hnext
    · obtain ⟨-, rfl⟩ := Prod.mk.inj (Option.some.inj hnext)
      exact .keep _ rfl
    · rename_i event hevent
      rw [Option.ite_none_right_eq_some] at hnext
      obtain ⟨-, rfl⟩ := Prod.mk.inj (Option.some.inj hnext.2)
      by_cases hsame : h = hEvent
      · subst hsame
        rw [decide_eq_true rfl]
        exact .store hevent (Function.update_self ..)
      · exact .keep _ (Function.update_of_ne hsame ..)
  case associating hEvent =>
    split at hnext
    all_goals
      obtain ⟨-, rfl⟩ := Prod.mk.inj (Option.some.inj hnext)
      exact .keep _ rfl
  case looking hEvent hAssoc =>
    rw [Option.ite_none_right_eq_some] at hnext
    obtain ⟨-, rfl⟩ := Prod.mk.inj (Option.some.inj hnext.2)
    exact .keep _ rfl
  case signalling hEvent =>
    obtain ⟨-, rfl⟩ := Prod.mk.inj (Option.some.inj hnext)
    exact .keep _ (congrFun (signal_event m hEvent) h)
  case notifying hAssoc =>
    obtain ⟨-, rfl⟩ := Prod.mk.inj (Option.some.inj hnext)
    exact .keep _ (congrFun (signal_event m hAssoc) h)
  all_goals
    obtain ⟨-, rfl⟩ := Prod.mk.inj (Option.some.inj hnext)
    exact .keep _ rfl

theorem deleter_event {m m' : Shared Thread} {pc pc' : Deleter}
    (hnext : pc.next capacity m = some (pc', m')) : m'.world.event = m.world.event := by
  cases pc <;> rw [Deleter.next] at hnext
  case waking =>
    obtain ⟨-, rfl⟩ := Prod.mk.inj (Option.some.inj hnext)
    exact signal_event m handleNull
  case done => exact absurd hnext (by simp)
  all_goals
    obtain ⟨-, rfl⟩ := Prod.mk.inj (Option.some.inj hnext)
    rfl

/-! ## No signal is reported twice -/

/-- The invariant: the event is live, and the elements with its handle name it. -/
structure Accounted (core : Core) (h : Handle) (s : State Thread) : Prop where
  live : LiveAuto core h s.shared.world
  elements : ∀ element ∈ s.scheduler.elements, element.hAssoc = h → element.hEvent = h

section Reports

variable [DecidableEq Thread] {h : Handle}

omit [DecidableEq Thread] in
/-- A step other than the scheduler's. -/
theorem Accounted.other {s u : State Thread} {a : Action Thread} (haccounted : Accounted core h s)
    (hscheduler : u.scheduler = s.scheduler) (hreports : reports core h s a = false)
    (htouched : Touched h s.shared.world u.shared.world (stores h s a)) :
    Accounted core h u ∧
      charge (reports core h s a) + owed h u ≤ owed h s + charge (stores h s a) := by
  refine ⟨⟨haccounted.live.of_touched htouched, ?_⟩, ?_⟩
  · rw [hscheduler]
    exact haccounted.elements
  · rw [hreports, charge_false, Nat.zero_add, owed, owed, hscheduler]
    cases hstores : stores h s a with
    | true => exact (charge_le_one _).trans (Nat.le_add_left ..)
    | false =>
        rw [hstores] at htouched
        refine Nat.le_add_right_of_le (charge_le fun hgood => ?_)
        rw [good_iff] at hgood ⊢
        exact hgood.imp_left (htouched.eventTest haccounted.live)

theorem step_accounted (s : State Thread) (a : Action Thread) (u : State Thread)
    (haccounted : Accounted core h s) (hstep : step core pipeFile capacity s a = some u) :
    Accounted core h u ∧
      charge (reports core h s a) + owed h u ≤ owed h s + charge (stores h s a) := by
  cases a with
  | scheduler reason =>
      obtain ⟨pc, m, hnext, rfl⟩ := scheduler_inv hstep
      have hstepped := Scheduler.stepped hnext
      obtain ⟨hlive, helements⟩ := haccounted
      refine ⟨⟨hlive.of_touched (hstepped.touched h), fun element hmem hassoc => ?_⟩, ?_⟩
      · rcases hstepped.elements hmem with hbefore | ⟨-, hbacked⟩
        · exact helements element hbefore hassoc
        · rw [hassoc, hlive.inspect_eq] at hbacked
          split at hbacked
          · exact absurd hbacked (by simp)
          · exact (Finding.backed.inj hbacked).symm
      · by_cases hreport : s.scheduler.returns core s.shared = some h
        · obtain ⟨hbefore, hafter⟩ := hstepped.spent hlive helements hreport
          have hspent : owed h (s.moveScheduler pc m) = 0 := congrArg charge hafter
          rw [hspent, owed, hbefore]
          exact (charge_le_one _).trans (Nat.le_add_right ..)
        · have hnone : reports core h s (.scheduler reason) = false := decide_eq_false hreport
          rw [hnone, charge_false, Nat.zero_add]
          exact Nat.le_add_right_of_le (charge_le (hstepped.good hlive))
  | call t op =>
      obtain ⟨-, pc, m, hstart, rfl⟩ := call_inv hstep
      exact haccounted.other rfl rfl (start_touched hstart h)
  | client t =>
      obtain ⟨pc, m, hnext, rfl⟩ := client_inv hstep
      exact haccounted.other rfl rfl (next_touched hnext h)
  | deleter =>
      obtain ⟨pc, m, hnext, rfl⟩ := deleter_inv hstep
      exact haccounted.other rfl rfl (.keep _ (congrFun (deleter_event hnext) h))
  | environment waitTime socket =>
      rw [environment_inv hstep]
      exact haccounted.other rfl rfl (.keep _ rfl)

/-- In every run, and so between any two moments of it, waits return an auto-reset event
at most once for each time it is set, and once more if it is signalled to begin with. -/
theorem reports_le_stores {s u : State Thread} {actions : List (Action Thread)}
    (hinitial : Initial core s) (hlive : LiveAuto core h s.shared.world)
    (hrun : run (step core pipeFile capacity) s actions = some u) :
    tally (step core pipeFile capacity) (fun s a => charge (reports core h s a)) s actions +
        charge (u.shared.world.eventTest h) ≤
      tally (step core pipeFile capacity) (fun s a => charge (stores h s a)) s actions +
        charge (s.shared.world.eventTest h) := by
  have hinit : Accounted core h s := ⟨hlive, by rw [hinitial.scheduler]; exact nofun⟩
  have hbound : tally (step core pipeFile capacity) (fun s a => charge (reports core h s a)) s
        actions + owed h u ≤
      owed h s + tally (step core pipeFile capacity) (fun s a => charge (stores h s a)) s
        actions :=
    tally_add_le (fun s a u hs hstep => (step_accounted s a u hs hstep).1)
      (fun s a u hs hstep => (step_accounted s a u hs hstep).2) hinit hrun
  have hstart : owed h s = charge (s.shared.world.eventTest h) := by
    rw [owed, good, hinitial.scheduler]
    simp [Scheduler.takes]
  have hend : charge (u.shared.world.eventTest h) ≤ owed h u :=
    charge_le fun htest => good_iff.mpr (Or.inl htest)
  omega

end Reports

/-- The event 1 is set twice before the scheduler starts. -/
def setTwice : List (Action Unit) :=
  [.call () (.set 1), .client (), .client (), .client (), .client (),
    .call () (.set 1), .client (), .client (), .client (), .client (),
    .scheduler .other, .scheduler .other, .scheduler .other, .scheduler .other,
    .scheduler .other, .scheduler .other]

/-- The wait returns it once. -/
theorem reports_le_stores_setTwice :
    tally (step exampleCore 9 1) (fun s a => charge (stores 1 s a)) exampleState setTwice = 2 ∧
    tally (step exampleCore 9 1) (fun s a => charge (reports exampleCore 1 s a)) exampleState
      setTwice = 1 ∧
    ∃ u, run (step exampleCore 9 1) exampleState setTwice = some u ∧
      tally (step exampleCore 9 1) (fun s a => charge (reports exampleCore 1 s a)) exampleState
          setTwice + charge (u.shared.world.eventTest 1) ≤
        tally (step exampleCore 9 1) (fun s a => charge (stores 1 s a)) exampleState setTwice +
          charge (exampleState.shared.world.eventTest 1) := by
  obtain ⟨u, hrun⟩ : ∃ u, run (step exampleCore 9 1) exampleState setTwice = some u := ⟨_, rfl⟩
  have hlive : LiveAuto exampleCore 1 exampleState.shared.world :=
    ⟨rfl, { eventType := .auto, signalled := false }, rfl, rfl⟩
  exact ⟨rfl, rfl, u, hrun, reports_le_stores exampleState_initial hlive hrun⟩

/-! ## How long a wait takes -/

/-- A step of the scheduler. -/
def schedules : Action Thread → Bool
  | .scheduler _ => true
  | _ => false

/-- The next step of a client writes to the pipe. -/
def Client.writes : Client → Bool
  | .signalling _ | .notifying _ => true
  | _ => false

/-- The step writes to the pipe. -/
def writes (s : State Thread) : Action Thread → Bool
  | .client t => (s.client t).writes
  | .deleter => s.deleter = .waking
  | _ => false

/-- The step links a handle into the queue. -/
def links : Action Thread → Bool
  | .call _ (.add _) => true
  | _ => false

/-- The scheduler is inside a wait and has not reached `poll`, or has returned from it. -/
def Scheduler.busy : Scheduler → Bool
  | .purging | .scanning _ _ | .resetting _ | .reading _ | .testing _ _ | .consuming _ _ => true
  | _ => false

/-- The step is not the start of a wait, or the return of `poll`. -/
def InsideWait (s : State Thread) : Action Thread → Prop
  | .scheduler _ => s.scheduler.busy = true
  | _ => True

instance (s : State Thread) (a : Action Thread) : Decidable (InsideWait s a) :=
  match a with
  | .scheduler _ => inferInstanceAs (Decidable (s.scheduler.busy = true))
  | .call _ _ | .client _ | .deleter | .environment _ _ => isTrue trivial

/-- The steps that are left before the scheduler returns or is in `poll`: one for a
message while it purges, three while it reads in `PollEvent`, and one for a handle. -/
def Scheduler.work (m : Shared Thread) : Scheduler → ℕ
  | .purging => m.world.pipe.length + m.hHandleQueue.length + 2
  | .scanning index _ => m.hHandleQueue.length - index + 1
  | .resetting _ => 1
  | .reading _ => 3 * m.world.pipe.length + 1
  | .testing _ _ => 3 * m.world.pipe.length + 3
  | .consuming _ _ => 3 * m.world.pipe.length + 2
  | _ => 0

/-- Each step of the scheduler inside a wait is one less to take. -/
theorem Scheduler.Stepped.work {m m' : Shared Thread} {pc pc' : Scheduler}
    (hstepped : pc.Stepped core pipeFile m pc' m') (hbusy : pc.busy = true) :
    pc'.work m' + 1 ≤ pc.work m := by
  cases hstepped with
  | registered => exact absurd hbusy (by simp [Scheduler.busy])
  | checked => exact absurd hbusy (by simp [Scheduler.busy])
  | readable => exact absurd hbusy (by simp [Scheduler.busy])
  | returned => exact absurd hbusy (by simp [Scheduler.busy])
  | discarded hpipe =>
      simp only [Scheduler.work, hpipe, Shared.setPipe, List.length_cons]
      omega
  | purged hpipe =>
      simp only [Scheduler.work, hpipe, List.length_nil]
      omega
  | scanned => exact Nat.le_add_left ..
  | @inspected index scan h hget hpresent =>
      have hindex : index < m.hHandleQueue.length := (List.getElem?_eq_some_iff.mp hget).1
      have hround : (Scheduler.round core m index scan h).work m ≤
          m.hHandleQueue.length - index := by
        rw [Scheduler.round]
        split
        · split
          · exact Nat.sub_pos_of_lt hindex
          · exact Nat.zero_le _
        · exact Nat.zero_le _
        · simp only [Scheduler.work]
          omega
      exact Nat.succ_le_succ hround
  | reset hEvent => exact Nat.le_refl 1
  | drained hpipe => simp [Scheduler.work]
  | woken hpipe => simp [Scheduler.work]
  | skipped hpipe =>
      simp only [Scheduler.work, hpipe, Shared.setPipe, List.length_cons]
      omega
  | named hpipe hfind =>
      simp only [Scheduler.work, hpipe, Shared.setPipe, List.length_cons]
      omega
  | unsignalled => simp [Scheduler.work]
  | signalled =>
      split
      · simp [Scheduler.work]
      · split <;> simp [Scheduler.work]
  | consumed scan element =>
      split
      · simp [Scheduler.work, Shared.eventReset, World.eventReset]
      · simp [Scheduler.work]

/-- What another thread adds to the work of the scheduler. -/
theorem work_le_of_grown {m m' : Shared Thread} {written linked : Bool} (pc : Scheduler)
    (hpipe : m'.world.pipe.length ≤ m.world.pipe.length + charge written)
    (hqueue : m'.hHandleQueue.length ≤ m.hHandleQueue.length + charge linked) :
    pc.work m' ≤ pc.work m + (3 * charge written + charge linked) := by
  cases pc <;> simp only [Scheduler.work] <;> omega

theorem length_signal (m : Shared Thread) (hEvent : Handle) :
    (m.signal capacity hEvent).world.pipe.length ≤ m.world.pipe.length + 1 := by
  rw [Shared.signal]
  split
  · exact (List.length_append ..).le
  · exact Nat.le_add_right ..

theorem start_grown {op : Op} {m m' : Shared Thread} {pc' : Client}
    (hstart : op.start m core = some (pc', m')) (t : Thread) :
    m'.world.pipe.length ≤ m.world.pipe.length ∧
      m'.hHandleQueue.length ≤ m.hHandleQueue.length + charge (links (.call t op)) := by
  cases op <;> rw [Op.start] at hstart
  case reset hEvent =>
    rw [Option.ite_none_right_eq_some] at hstart
    obtain ⟨-, rfl⟩ := Prod.mk.inj (Option.some.inj hstart.2)
    exact ⟨Nat.le_refl _, Nat.le_add_right ..⟩
  case add hEvent =>
    rw [Option.ite_none_left_eq_some] at hstart
    obtain ⟨-, rfl⟩ := Prod.mk.inj (Option.some.inj hstart.2)
    exact ⟨Nat.le_refl _, (List.length_append ..).le⟩
  all_goals
    obtain ⟨-, rfl⟩ := Prod.mk.inj (Option.some.inj hstart)
    exact ⟨Nat.le_refl _, Nat.le_add_right ..⟩

section Bound

variable [DecidableEq Thread]

theorem next_grown {t : Thread} {m m' : Shared Thread} {pc pc' : Client}
    (hnext : pc.next core capacity t m = some (pc', m')) :
    m'.world.pipe.length ≤ m.world.pipe.length + charge pc.writes ∧
      m'.hHandleQueue = m.hHandleQueue := by
  cases pc <;> rw [Client.next] at hnext
  case idle => exact absurd hnext (by simp)
  case setting hEvent =>
    split at hnext
    · obtain ⟨-, rfl⟩ := Prod.mk.inj (Option.some.inj hnext)
      exact ⟨Nat.le_refl _, rfl⟩
    · rw [Option.ite_none_right_eq_some] at hnext
      obtain ⟨-, rfl⟩ := Prod.mk.inj (Option.some.inj hnext.2)
      exact ⟨Nat.le_refl _, rfl⟩
  case associating hEvent =>
    split at hnext
    all_goals
      obtain ⟨-, rfl⟩ := Prod.mk.inj (Option.some.inj hnext)
      exact ⟨Nat.le_refl _, rfl⟩
  case looking hEvent hAssoc =>
    rw [Option.ite_none_right_eq_some] at hnext
    obtain ⟨-, rfl⟩ := Prod.mk.inj (Option.some.inj hnext.2)
    exact ⟨Nat.le_refl _, rfl⟩
  case signalling hEvent =>
    obtain ⟨-, rfl⟩ := Prod.mk.inj (Option.some.inj hnext)
    exact ⟨length_signal .., signal_queue m hEvent⟩
  case notifying hAssoc =>
    obtain ⟨-, rfl⟩ := Prod.mk.inj (Option.some.inj hnext)
    exact ⟨length_signal .., signal_queue m hAssoc⟩
  all_goals
    obtain ⟨-, rfl⟩ := Prod.mk.inj (Option.some.inj hnext)
    exact ⟨Nat.le_refl _, rfl⟩

omit [DecidableEq Thread] in
theorem deleter_grown {m m' : Shared Thread} {pc pc' : Deleter}
    (hnext : pc.next capacity m = some (pc', m')) :
    m'.world.pipe.length ≤ m.world.pipe.length + charge (pc = .waking) ∧
      m'.hHandleQueue = m.hHandleQueue := by
  cases pc <;> rw [Deleter.next] at hnext
  case waking =>
    obtain ⟨-, rfl⟩ := Prod.mk.inj (Option.some.inj hnext)
    exact ⟨length_signal .., signal_queue m handleNull⟩
  case done => exact absurd hnext (by simp)
  all_goals
    obtain ⟨-, rfl⟩ := Prod.mk.inj (Option.some.inj hnext)
    exact ⟨Nat.le_refl _, rfl⟩

/-- A step inside a wait is one that was left, or adds to what is left. -/
theorem step_work (s : State Thread) (a : Action Thread) (u : State Thread)
    (hinside : InsideWait s a) (hstep : step core pipeFile capacity s a = some u) :
    charge (schedules a) + u.scheduler.work u.shared ≤
      s.scheduler.work s.shared + (3 * charge (writes s a) + charge (links a)) := by
  cases a with
  | scheduler reason =>
      obtain ⟨pc, m, hnext, rfl⟩ := scheduler_inv hstep
      have hwork := (Scheduler.stepped hnext).work hinside
      exact (Nat.add_comm _ _).le.trans (hwork.trans (Nat.le_add_right ..))
  | call t op =>
      obtain ⟨-, pc, m, hstart, rfl⟩ := call_inv hstep
      obtain ⟨hpipe, hqueue⟩ := start_grown hstart t
      exact (Nat.zero_add _).le.trans
        (work_le_of_grown s.scheduler (hpipe.trans (Nat.le_add_right ..)) hqueue)
  | client t =>
      obtain ⟨pc, m, hnext, rfl⟩ := client_inv hstep
      obtain ⟨hpipe, hqueue⟩ := next_grown hnext
      exact (Nat.zero_add _).le.trans
        (work_le_of_grown s.scheduler hpipe ((congrArg List.length hqueue).le.trans
          (Nat.le_add_right ..)))
  | deleter =>
      obtain ⟨pc, m, hnext, rfl⟩ := deleter_inv hstep
      obtain ⟨hpipe, hqueue⟩ := deleter_grown hnext
      exact (Nat.zero_add _).le.trans
        (work_le_of_grown s.scheduler hpipe ((congrArg List.length hqueue).le.trans
          (Nat.le_add_right ..)))
  | environment waitTime socket =>
      rw [environment_inv hstep]
      exact (Nat.zero_add _).le.trans
        (work_le_of_grown s.scheduler (Nat.le_add_right ..) (Nat.le_add_right ..))

/-- What is left pays for the steps of the scheduler. -/
theorem schedules_le {s u : State Thread} {actions : List (Action Thread)}
    (halong : Along (step core pipeFile capacity) InsideWait s actions)
    (hrun : run (step core pipeFile capacity) s actions = some u) :
    tally (step core pipeFile capacity) (fun _ a => charge (schedules a)) s actions ≤
      s.scheduler.work s.shared +
        tally (step core pipeFile capacity)
          (fun s a => 3 * charge (writes s a) + charge (links a)) s actions := by
  have hbound : tally (step core pipeFile capacity) (fun _ a => charge (schedules a)) s actions +
        u.scheduler.work u.shared ≤
      s.scheduler.work s.shared +
        tally (step core pipeFile capacity)
          (fun s a => 3 * charge (writes s a) + charge (links a)) s actions :=
    tally_add_le_along (fun _ _ _ _ _ _ => trivial)
      (fun s a u _ hinside hstep => step_work s a u hinside hstep) trivial halong hrun
  exact (Nat.le_add_right ..).trans hbound

/-- From the start of a wait the scheduler takes at most two steps more than there are
messages in the pipe and handles in the queue before it returns or is in `poll`, and from
the return of `poll` at most three for each message and one more; a message written
meanwhile is good for three steps, and a handle linked in for one. -/
theorem wait_bounded {s u : State Thread} {actions : List (Action Thread)}
    (halong : Along (step core pipeFile capacity) InsideWait s actions)
    (hrun : run (step core pipeFile capacity) s actions = some u) :
    (s.scheduler = .purging →
      tally (step core pipeFile capacity) (fun _ a => charge (schedules a)) s actions ≤
        s.shared.world.pipe.length + s.shared.hHandleQueue.length + 2 +
          tally (step core pipeFile capacity)
            (fun s a => 3 * charge (writes s a) + charge (links a)) s actions) ∧
    (∀ scan, s.scheduler = .reading scan →
      tally (step core pipeFile capacity) (fun _ a => charge (schedules a)) s actions ≤
        3 * s.shared.world.pipe.length + 1 +
          tally (step core pipeFile capacity)
            (fun s a => 3 * charge (writes s a) + charge (links a)) s actions) := by
  have hbound := schedules_le halong hrun
  constructor
  · intro hpurging
    rwa [hpurging] at hbound
  · intro scan hreading
    rwa [hreading] at hbound

end Bound

/-- With one handle in the queue and an empty pipe, `poll` is reached in three steps. -/
theorem wait_bounded_attained :
    ∃ u, run (step exampleCore 9 1) { exampleState with scheduler := .purging }
        [.scheduler .other, .scheduler .other, .scheduler .other] = some u ∧
      (∃ scan, u.scheduler = .polling scan) ∧
      tally (step exampleCore 9 1) (fun _ a => charge (schedules a))
          { exampleState with scheduler := .purging }
          [.scheduler .other, .scheduler .other, .scheduler .other] ≤
        0 + 1 + 2 + tally (step exampleCore 9 1)
          (fun s a => 3 * charge (writes s a) + charge (links a))
          { exampleState with scheduler := .purging }
          [.scheduler .other, .scheduler .other, .scheduler .other] := by
  obtain ⟨u, hrun⟩ : ∃ u, run (step exampleCore 9 1) { exampleState with scheduler := .purging }
      [.scheduler .other, .scheduler .other, .scheduler .other] = some u := ⟨_, rfl⟩
  refine ⟨u, hrun, ?_, (wait_bounded (by decide) hrun).1 rfl⟩
  cases hrun
  exact ⟨_, rfl⟩

/-! ## A wait that does not end -/

section Starve

variable [DecidableEq Thread]

theorem client_moveClient (s : State Thread) (t : Thread) (pc : Client) (m : Shared Thread) :
    (s.moveClient t pc m).client t = pc :=
  Function.update_self ..

/-- The scheduler purges, and the thread `t` can set an event of the set. -/
structure Starving (t : Thread) (hEvent : Handle) (s : State Thread) : Prop where
  purging : s.scheduler = .purging
  idle : s.client t = .idle
  live : (s.shared.world.event hEvent).isSome
  free : s.shared.mutex hEvent = none
  associated : s.shared.associated hEvent = true

/-- The event is set once, and the scheduler reads one message. -/
def starve (t : Thread) (hEvent : Handle) : List (Action Thread) :=
  [.call t (.set hEvent), .client t, .client t, .client t, .client t, .scheduler .other]

theorem Starving.round (hcapacity : 1 ≤ capacity) {t : Thread} {hEvent : Handle}
    {s : State Thread} (hstarving : Starving t hEvent s) :
    ∃ u, run (step core pipeFile capacity) s (starve t hEvent) = some u ∧
      Starving t hEvent u ∧
      Along (step core pipeFile capacity) InsideWait s (starve t hEvent) ∧
      tally (step core pipeFile capacity) (fun _ a => charge (schedules a)) s
        (starve t hEvent) = 1 := by
  obtain ⟨hpurging, hidle, hlive, hfree, hassociated⟩ := hstarving
  obtain ⟨event, hevent⟩ := Option.isSome_iff_exists.mp hlive
  -- the four steps of `ofc_event_set_impl`
  have hcall : step core pipeFile capacity s (.call t (.set hEvent)) =
      some (s.moveClient t (.setting hEvent) s.shared) := by
    rw [step, if_pos hidle]
    rfl
  let stored := s.shared.store t hEvent event
  have hstore : step core pipeFile capacity (s.moveClient t (.setting hEvent) s.shared)
      (.client t) = some (s.moveClient t (.stored hEvent) stored) := by
    rw [step, client_moveClient, Client.next]
    simp only [State.moveClient, hevent, Shared.free, hfree, Option.isNone_none, if_true,
      Option.map_some, Function.update_idem]
    rfl
  have hlook : step core pipeFile capacity (s.moveClient t (.stored hEvent) stored)
      (.client t) = some (s.moveClient t (.signalling hEvent) stored) := by
    have hset : stored.associated hEvent = true := hassociated
    rw [step, client_moveClient, Client.next]
    simp only [State.moveClient, hset, if_true, Option.map_some, Function.update_idem]
  let signalled := stored.signal capacity hEvent
  have hwrite : step core pipeFile capacity (s.moveClient t (.signalling hEvent) stored)
      (.client t) = some (s.moveClient t (.unlocking hEvent) signalled) := by
    rw [step, client_moveClient, Client.next]
    simp only [State.moveClient, Option.map_some, Function.update_idem]
    rfl
  let unlocked := signalled.unlock hEvent
  have hunlock : step core pipeFile capacity (s.moveClient t (.unlocking hEvent) signalled)
      (.client t) = some (s.moveClient t .idle unlocked) := by
    rw [step, client_moveClient, Client.next]
    simp only [State.moveClient, Option.map_some, Function.update_idem]
    rfl
  -- the message, or one before it, is there to be read
  obtain ⟨message, rest, hpipe⟩ : ∃ message rest, unlocked.world.pipe = message :: rest :=
    List.exists_cons_of_ne_nil (stored.signal_pipe_ne_nil hcapacity hEvent)
  have hread : step core pipeFile capacity (s.moveClient t .idle unlocked) (.scheduler .other) =
      some ((s.moveClient t .idle unlocked).moveScheduler .purging (unlocked.setPipe rest)) := by
    show (s.scheduler.next core pipeFile .other unlocked).map _ = _
    rw [hpurging, Scheduler.next, hpipe]
    rfl
  refine ⟨(s.moveClient t .idle unlocked).moveScheduler .purging (unlocked.setPipe rest),
    ?_, ?_, ?_, ?_⟩
  · simp only [starve, run_cons, hcall, hstore, hlook, hwrite, hunlock, hread, Option.bind_some,
      run_nil]
  · obtain ⟨pipe, hsignal⟩ := stored.signal_eq_setPipe capacity hEvent
    refine ⟨rfl, client_moveClient s t .idle unlocked, ?_, Function.update_self .., ?_⟩
    · show (signalled.world.event hEvent).isSome
      rw [show signalled = stored.setPipe pipe from hsignal]
      show (Function.update s.shared.world.event hEvent _ hEvent).isSome
      rw [Function.update_self]
      rfl
    · show signalled.associated hEvent = true
      rw [show signalled = stored.setPipe pipe from hsignal]
      exact hassociated
  · simp only [starve, Along, hcall, hstore, hlook, hwrite, hunlock, hread, InsideWait,
      Option.some.injEq, forall_eq', true_and, and_true]
    show s.scheduler.busy = true
    rw [hpurging]
    rfl
  · simp only [starve, tally, hcall, hstore, hlook, hwrite, hunlock, hread, Option.elim_some,
      schedules, charge_true, charge_false]

/-- A thread that keeps setting an event keeps the scheduler in the purge of one wait,
for any number of its steps. -/
theorem purge_starved (hcapacity : 1 ≤ capacity) {t : Thread} {hEvent : Handle}
    {s : State Thread} (hstarving : Starving t hEvent s) (n : ℕ) :
    ∃ actions u, run (step core pipeFile capacity) s actions = some u ∧
      u.scheduler = .purging ∧ Along (step core pipeFile capacity) InsideWait s actions ∧
      tally (step core pipeFile capacity) (fun _ a => charge (schedules a)) s actions = n := by
  induction n generalizing s with
  | zero => exact ⟨[], s, rfl, hstarving.purging, trivial, rfl⟩
  | succ n ih =>
      obtain ⟨v, hround, hagain, hinside, hone⟩ :=
        @Starving.round _ core pipeFile capacity _ hcapacity _ _ _ hstarving
      obtain ⟨actions, u, hrun, hpurging, halong, htally⟩ := ih hagain
      refine ⟨starve t hEvent ++ actions, u, ?_, hpurging, hinside.append hround halong, ?_⟩
      · rw [run_append, hround]
        exact hrun
      · rw [tally_append hround, hone, htally, Nat.add_comm]

end Starve

theorem purge_starved_of_set :
    ∃ actions u, run (step exampleCore 9 1) { exampleState with scheduler := .purging } actions =
        some u ∧
      u.scheduler = .purging ∧
      Along (step exampleCore 9 1) InsideWait { exampleState with scheduler := .purging } actions ∧
      tally (step exampleCore 9 1) (fun _ a => charge (schedules a))
        { exampleState with scheduler := .purging } actions = 1000000 :=
  @purge_starved Unit exampleCore 9 1 _ (le_refl 1) () 1 _ ⟨rfl, rfl, rfl, rfl, rfl⟩ 1000000

end OfcDarwin.Waitset
