import OfcDarwin.Waitset.Soundness

/-!
# What a wait consumes

A wait changes the events in two places: the scan consumes a signalled
auto-reset event which it returns, and `PollEvent` consumes one whose handle it
returns.  `wait_consumes` compares the events a wait leaves with those it found,
which after a poll are the ones at the return of `poll`.  The scan of a wait that
polls changes no event, so that nothing is consumed before `poll` either.
-/

namespace OfcDarwin.Waitset

variable {core : Core} {w : World}

/-- The events as the wait found them: at its start, or when `poll` returned. -/
def Wait.found (wait : Wait) (w : World) (answer : PollAnswer) : Handle → Option DarwinEvent :=
  if wait.polled.isSome then answer.world.event else w.event

/-- The events after a wait that returned `h`: unchanged, or without the signal
of the one auto-reset event that stands for `h` (an event stands for itself). -/
inductive Consumed (core : Core) (h : Handle) (found left : Handle → Option DarwinEvent) :
    Prop where
  | nothing (hleft : left = found)
  | signal (hEvent : Handle) (event : DarwinEvent) (hpresent : h ≠ handleNull)
      (hbacking : backingEvent core h = some hEvent)
      (hfound : found hEvent = some event) (hauto : event.eventType = .auto)
      (hsignalled : event.signalled = true)
      (hleft : left = Function.update found hEvent (some event.reset))

/-- What a successful test consumes. -/
theorem consume_consumed {hEvent h : Handle} (hpresent : h ≠ handleNull)
    (hbacking : backingEvent core h = some hEvent) (htest : w.eventTest hEvent = true) :
    Consumed core h w.event (w.consume hEvent).event := by
  unfold World.consume
  unfold World.eventTest at htest
  split
  · rename_i hauto
    unfold World.eventGetType at hauto
    cases hevent : w.event hEvent with
    | none =>
        -- a handle that does not resolve tests as signalled, and its reset does nothing
        refine .nothing ?_
        simp only [World.eventReset, hevent, ofcEventResetImpl, Option.map_none]
        exact Function.update_eq_self_iff.mpr hevent.symm
    | some event =>
        rw [hevent] at htest hauto
        refine .signal hEvent event hpresent hbacking hevent hauto htest ?_
        simp only [World.eventReset, hevent, ofcEventResetImpl, Option.map_some]
  · exact .nothing rfl

/-- The scan consumes only events. -/
theorem event_of_consumed {h : Handle} (hfinding : inspect core w h = .triggered true) :
    backingEvent core h = some h ∧ w.eventTest h = true := by
  unfold inspect at hfinding
  unfold backingEvent
  cases htype : core.handleGetType h <;> simp only [htype] at hfinding ⊢
  all_goals repeat' split at hfinding
  all_goals simp_all

theorem consumed_of_outcome {waitSet : WaitSet} {answer : PollAnswer} {wait : Wait}
    (houtcome : Outcome core waitSet w answer wait) :
    Consumed core wait.triggeredEvent (wait.found w answer) wait.world.event := by
  cases houtcome with
  | @ready before h after consumed hmembers hbefore hpresent hfinding =>
      cases consumed with
      | false => exact .nothing rfl
      | true =>
          obtain ⟨hbacking, htest⟩ := event_of_consumed hfinding
          exact @consume_consumed core w.purge h h hpresent hbacking htest
  | @message scan read rest hEvent h hscanned hcount hmessages hmember hfinding htest =>
      exact consume_consumed (hscanned.present h hmember) (backingEvent_of_backed hfinding) htest
  | @descriptor scan before h after entry world hscanned hcount hmembers hfinding hentry hrevents
      hfirst hworld =>
      refine .nothing ?_
      rw [hworld]
      rfl
  | expired hscanned => exact .nothing rfl
  | idle hscanned => exact .nothing rfl

/-- The scan of a wait that polls has consumed nothing. -/
theorem scan_event_of_polled {waitSet : WaitSet} {answer : PollAnswer}
    (hpolled : (ofcWaitsetWaitImpl core (some waitSet) w answer).polled.isSome = true) :
    (scanQueue core waitSet.hHandleQueue (Scan.start core waitSet.pipeFile) w.purge).2.event =
      w.event := by
  rcases wait_scan core waitSet w answer with ⟨hquiet, -⟩ | ⟨_, _, _, _, _, _, _, _, hwait⟩
  · rcases @scanQueue_cases core w.purge waitSet.hHandleQueue (Scan.start core waitSet.pipeFile) rfl
      with ⟨-, hrun⟩ | ⟨before, h, after, consumed, scan, hmembers, -, -, hfinding, -⟩
    · rw [hrun]
      rfl
    · -- the handle at which the loop stopped would have been ready
      have htriggered := hquiet h (by rw [hmembers]; simp)
      rw [show inspect core w h = _ from hfinding] at htriggered
      cases htriggered
  · rw [hwait] at hpolled
    cases hpolled

/-! ## What is left alone -/

section Consumed

variable {h : Handle} {found left : Handle → Option DarwinEvent}

/-- Only an event, a queue or an overlapped operation has an event to consume. -/
theorem Consumed.of_no_event (hconsumed : Consumed core h found left)
    (hnone : h = handleNull ∨ backingEvent core h = none) : left = found := by
  cases hconsumed with
  | nothing hleft => exact hleft
  | signal hEvent event hpresent hbacking =>
      rcases hnone with hnull | hnone
      · exact absurd hnull hpresent
      · rw [hnone] at hbacking
        exact absurd hbacking (by simp)

theorem Consumed.of_other (hconsumed : Consumed core h found left) {hEvent : Handle}
    (hother : backingEvent core h ≠ some hEvent) : left hEvent = found hEvent := by
  cases hconsumed with
  | nothing hleft => rw [hleft]
  | signal hEvent' event hpresent hbacking hfound hauto hsignalled hleft =>
      rw [hleft, Function.update_of_ne]
      rintro rfl
      exact hother hbacking

theorem Consumed.of_manual (hconsumed : Consumed core h found left) {hEvent : Handle}
    {event : DarwinEvent} (hfound : found hEvent = some event)
    (hmanual : event.eventType = .manual) : left hEvent = found hEvent := by
  cases hconsumed with
  | nothing hleft => rw [hleft]
  | signal hEvent' event' hpresent hbacking hfound' hauto hsignalled hleft =>
      rw [hleft, Function.update_of_ne]
      rintro rfl
      rw [hfound, Option.some.injEq] at hfound'
      rw [hfound', hauto] at hmanual
      exact absurd hmanual (by decide)

end Consumed

/-- A wait clears the signal of at most one event, an auto-reset event that was
signalled and stands for the handle it returns.  It changes no event when it
returns `OFC_HANDLE_NULL`, a timer or a socket, and never a manual one or one
that has nothing to do with the handle it returns.  Before a `poll` it changes
none at all. -/
theorem wait_consumes (core : Core) (waitSet : Option WaitSet) (w : World) (answer : PollAnswer) :
    let wait := ofcWaitsetWaitImpl core waitSet w answer
    let found := wait.found w answer
    Consumed core wait.triggeredEvent found wait.world.event ∧
      (wait.triggeredEvent = handleNull ∨
          core.handleGetType wait.triggeredEvent = .timer ∨
          core.handleGetType wait.triggeredEvent = .socket → wait.world.event = found) ∧
      (∀ hEvent event, found hEvent = some event → event.eventType = .manual →
        wait.world.event hEvent = found hEvent) ∧
      (∀ hEvent, wait.triggeredEvent ≠ hEvent →
        backingEvent core wait.triggeredEvent ≠ some hEvent →
        wait.world.event hEvent = found hEvent) ∧
      ∀ known ∈ waitSet, wait.polled.isSome = true →
        (scanQueue core known.hHandleQueue (Scan.start core known.pipeFile) w.purge).2.event =
          w.event := by
  intro wait found
  have hconsumed : Consumed core wait.triggeredEvent found wait.world.event := by
    cases waitSet with
    | none => exact .nothing rfl
    | some waitSet => exact consumed_of_outcome (wait_cases core waitSet w answer)
  refine ⟨hconsumed, ?_, ?_, ?_, ?_⟩
  · intro htype
    refine hconsumed.of_no_event (htype.imp_right fun htype => ?_)
    unfold backingEvent
    rcases htype with htype | htype <;> rw [htype]
  · intro hEvent event hfound hmanual
    exact hconsumed.of_manual hfound hmanual
  · intro hEvent _ hother
    exact hconsumed.of_other hother
  · intro known hknown hpolled
    obtain rfl : waitSet = some known := hknown
    exact scan_event_of_polled hpolled

end OfcDarwin.Waitset
