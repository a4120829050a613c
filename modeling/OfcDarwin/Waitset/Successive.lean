import OfcDarwin.Lib.Serving
import OfcDarwin.Waitset.Scan

/-!
# One wait after another

Each wait starts again at the head of the queue and returns the first handle that is
ready, so that of two handles which are ready the one behind has to wait for its turn.
A wait that returns an auto-reset event resets it; the other handles stay ready until
the application does something about them.

If nothing else happens between them, successive waits return what one pass over the
queue finds: the signalled auto-reset events in queue order, up to the first handle that
stays ready, which all further waits return (`waits_one_pass`).  Such a handle hides
what stands behind it.  It may be a wait queue nobody empties, a manual event, an
overlapped operation, a timer that is not restarted, or a handle whose event has been
destroyed: `ofc_event_test` answers `OFC_TRUE` for it for ever.
-/

namespace OfcDarwin.Waitset

variable {core : Core} {w : World}

/-! ## A sequence of waits -/

/-- The world before each of a sequence of waits on a set; `answer i` is what `poll`
answers in the wait `i`, if it polls. -/
def worldBefore (core : Core) (waitSet : WaitSet) (answer : ℕ → PollAnswer) (w : World) :
    ℕ → World
  | 0 => w
  | i + 1 =>
      (ofcWaitsetWaitImpl core (some waitSet) (worldBefore core waitSet answer w i)
        (answer i)).world

/-- The wait `i` of the sequence. -/
def waitAt (core : Core) (waitSet : WaitSet) (answer : ℕ → PollAnswer) (w : World) (i : ℕ) :
    Wait :=
  ofcWaitsetWaitImpl core (some waitSet) (worldBefore core waitSet answer w i) (answer i)

/-! ## Serving a handle -/

/-- The scan takes the handle. -/
def isReady (core : Core) (w : World) (h : Handle) : Bool := (inspect core w h).isTriggered

/-- The world after a wait that returns the handle from its scan. -/
def serve (core : Core) (w : World) (h : Handle) : World := w.purge.note h (inspect core w h)

/-- A reset makes no handle ready. -/
theorem isReady_of_eventReset {hEvent h : Handle}
    (hready : isReady core (w.eventReset hEvent) h = true) : isReady core w h = true := by
  have htest : ∀ e, (w.eventReset hEvent).eventTest e = true → w.eventTest e = true :=
    fun _ => eventTest_of_eventReset
  unfold isReady inspect at hready ⊢
  cases htype : core.handleGetType h <;> rw [htype] at hready
  case event =>
    simp only at hready ⊢
    split at hready
    · rename_i hsignalled
      rw [if_pos (htest _ hsignalled)]
      rfl
    · exact absurd hready (by simp [Finding.isTriggered])
  case fsdarwinOverlapped =>
    simp only at hready ⊢
    split at hready
    · rename_i hdarwin
      rw [if_pos hdarwin]
      split at hready
      · rename_i hsignalled
        rw [if_pos (htest _ hsignalled)]
        rfl
      · exact absurd hready (by simp [Finding.isTriggered])
    · exact absurd hready (by simp [Finding.isTriggered])
  all_goals exact hready

/-- What serving a handle does: nothing but the purge, or the reset of an auto-reset
event. -/
theorem serve_cases (core : Core) (w : World) (h : Handle) :
    serve core w h = w.purge ∨
      inspect core w h = .triggered true ∧ serve core w h = w.purge.eventReset h := by
  unfold serve
  cases hfinding : inspect core w h with
  | triggered consumed =>
      cases consumed with
      | true =>
          rw [World.note, World.consume]
          split
          · exact Or.inr ⟨rfl, rfl⟩
          · exact Or.inl rfl
      | false => exact Or.inl rfl
  | _ => exact Or.inl rfl

/-- Serving a handle makes none ready. -/
theorem isReady_of_serve (core : Core) (w : World) (h g : Handle)
    (hready : isReady core (serve core w h) g = true) : isReady core w g = true := by
  rcases serve_cases core w h with heq | ⟨-, heq⟩ <;> rw [heq] at hready
  · exact hready
  · exact isReady_of_eventReset hready

/-- The scan consumes only events. -/
theorem type_of_consumed {h : Handle} (hfinding : inspect core w h = .triggered true) :
    core.handleGetType h = .event := by
  unfold inspect at hfinding
  cases htype : core.handleGetType h <;> simp only [htype] at hfinding
  case event => rfl
  all_goals repeat' split at hfinding
  all_goals exact absurd hfinding (by simp)

/-- An event that is signalled after its reset is one whose handle does not resolve. -/
theorem eventReset_of_eventTest {h : Handle} (htest : (w.eventReset h).eventTest h = true) :
    w.eventReset h = w := by
  rw [World.eventTest, event_eventReset, if_pos rfl] at htest
  cases hevent : w.event h with
  | none =>
      have hsame : Function.update w.event h (ofcEventResetImpl (w.event h)) = w.event := by
        rw [Function.update_eq_self_iff, hevent]
        rfl
      rw [World.eventReset, hsame]
  | some event =>
      rw [hevent] at htest
      exact absurd htest (by simp [ofcEventTestImpl])

/-- A handle that is ready after it was served was not changed by that. -/
theorem serve_of_stuck (core : Core) (w : World) (h : Handle)
    (hstuck : isReady core (serve core w h) h = true) :
    serve core (serve core w h) h = serve core w h := by
  have hpurged : serve core w h = w.purge := by
    rcases serve_cases core w h with heq | ⟨hfinding, heq⟩
    · exact heq
    · rw [heq] at hstuck ⊢
      refine eventReset_of_eventTest ?_
      unfold isReady inspect at hstuck
      rw [type_of_consumed hfinding] at hstuck
      simp only at hstuck
      split at hstuck
      · assumption
      · exact absurd hstuck (by simp [Finding.isTriggered])
  rw [hpurged, serve, inspect_purge]
  exact hpurged

/-! ## The waits -/

/-- A wait returns the first handle that is ready without polling, and polls if there is
none. -/
theorem wait_find (core : Core) (waitSet : WaitSet) (w : World) (answer : PollAnswer) :
    (∀ h, (members waitSet.hHandleQueue).find? (isReady core w) = some h →
      (ofcWaitsetWaitImpl core (some waitSet) w answer).triggeredEvent = h ∧
      (ofcWaitsetWaitImpl core (some waitSet) w answer).polled = none ∧
      (ofcWaitsetWaitImpl core (some waitSet) w answer).world = serve core w h) ∧
    ((members waitSet.hHandleQueue).find? (isReady core w) = none →
      (ofcWaitsetWaitImpl core (some waitSet) w answer).polled.isSome) := by
  rcases wait_scan core waitSet w answer with ⟨hquiet, hwait⟩ |
    ⟨before, h, after, consumed, hmembers, hbefore, -, hfinding, hwait⟩
  · have hnone : (members waitSet.hHandleQueue).find? (isReady core w) = none := by
      simpa [isReady] using hquiet
    rw [hwait, hnone]
    refine ⟨nofun, fun _ => ?_⟩
    unfold dispatch
    simp only
    repeat' split
    all_goals rfl
  · have hready : isReady core w h = true := by
      rw [isReady, hfinding]
      rfl
    have hsome : (members waitSet.hHandleQueue).find? (isReady core w) = some h := by
      rw [hmembers, Serving.find_append_of_quiet hbefore, List.find?_cons_of_pos hready]
    rw [hwait, hsome]
    refine ⟨fun g hg => ?_, nofun⟩
    obtain rfl := Option.some.inj hg
    refine ⟨rfl, rfl, ?_⟩
    rw [serve, hfinding]

/-- As long as no wait polls, the worlds before the waits are those of the turns. -/
theorem worldBefore_eq {waitSet : WaitSet} {answer : ℕ → PollAnswer} {n : ℕ}
    (hserved : ∀ i < n, ((members waitSet.hHandleQueue).find? (isReady core
      (Serving.stateAt (isReady core) (serve core) (members waitSet.hHandleQueue) w i))).isSome) :
    worldBefore core waitSet answer w n =
      Serving.stateAt (isReady core) (serve core) (members waitSet.hHandleQueue) w n := by
  induction n with
  | zero => rfl
  | succ n ih =>
      have hworld := ih fun i hi => hserved i (Nat.lt_succ_of_lt hi)
      obtain ⟨h, hfind⟩ := Option.isSome_iff_exists.mp (hserved n (Nat.lt_succ_self n))
      rw [worldBefore, hworld, Serving.stateAt, hfind]
      exact ((wait_find core waitSet _ (answer n)).1 h hfind).2.2

/-- The wait of a turn that comes after others in which a handle was served. -/
theorem waitAt_turn (core : Core) (waitSet : WaitSet) (answer : ℕ → PollAnswer) (w : World) (i : ℕ)
    {served : List Handle} {stuck : Option Handle}
    (hpass : Serving.pass (isReady core) (serve core) (members waitSet.hHandleQueue) w =
      (served, stuck))
    (hbefore : ∀ j < i, (served[j]?.or stuck).isSome) :
    (∀ h, served[i]?.or stuck = some h →
      (waitAt core waitSet answer w i).triggeredEvent = h ∧
        (waitAt core waitSet answer w i).polled = none) ∧
    (served[i]?.or stuck = none → (waitAt core waitSet answer w i).polled.isSome) := by
  have hturn : ∀ j, (members waitSet.hHandleQueue).find? (isReady core (Serving.stateAt
      (isReady core) (serve core) (members waitSet.hHandleQueue) w j)) = served[j]?.or stuck := by
    intro j
    rw [Serving.find_stateAt (isReady_of_serve core) (serve_of_stuck core), hpass]
  have hworld := @worldBefore_eq core w waitSet answer i fun j hj => by
    rw [hturn]
    exact hbefore j hj
  obtain ⟨hready, hpolls⟩ := wait_find core waitSet (worldBefore core waitSet answer w i) (answer i)
  rw [hworld, hturn] at hready hpolls
  rw [waitAt, hworld]
  exact ⟨fun h hh => ⟨(hready h hh).1, (hready h hh).2.1⟩, hpolls⟩

/-! ## The result -/

/-- Live auto-reset events. -/
def AllAuto (core : Core) (w : World) (handles : List Handle) : Prop :=
  ∀ h ∈ handles, core.handleGetType h = .event ∧
    ∃ event, w.event h = some event ∧ event.eventType = .auto

theorem isReady_of_auto {handles : List Handle} (hauto : AllAuto core w handles) {h : Handle}
    (hmem : h ∈ handles) : isReady core w h = w.eventTest h := by
  unfold isReady inspect
  rw [(hauto h hmem).1]
  cases htest : w.eventTest h with
  | true => rfl
  | false => rfl

/-- Serving one of the events resets it. -/
theorem serve_of_auto {handles : List Handle} (hauto : AllAuto core w handles) {h : Handle}
    (hmem : h ∈ handles) (htest : w.eventTest h = true) :
    serve core w h = w.purge.eventReset h := by
  obtain ⟨htype, event, hevent, hkind⟩ := hauto h hmem
  have hfinding : inspect core w h = .triggered true := by
    unfold inspect
    rw [htype]
    exact if_pos htest
  have hget : w.purge.eventGetType h = .auto := by
    show ofcEventGetTypeImpl (w.event h) = .auto
    rw [hevent]
    exact hkind
  rw [serve, hfinding, World.note, World.consume, if_pos hget]

/-- If all events of the queue are different, the pass finds those that are signalled. -/
theorem pass_of_auto {handles : List Handle} (hnodup : handles.Nodup)
    (hauto : AllAuto core w handles) :
    Serving.pass (isReady core) (serve core) handles w =
      (handles.filter fun h => w.eventTest h, none) := by
  induction handles generalizing w with
  | nil => rfl
  | cons h rest ih =>
      obtain ⟨hnew, hnodup⟩ := List.nodup_cons.mp hnodup
      have hrest : AllAuto core w rest := fun g hg => hauto g (List.mem_cons_of_mem h hg)
      rw [Serving.pass, isReady_of_auto hauto List.mem_cons_self, List.filter_cons]
      cases htest : w.eventTest h with
      | false =>
          rw [if_neg Bool.false_ne_true, if_neg Bool.false_ne_true]
          exact ih hnodup hrest
      | true =>
          -- the events behind are as they were before the reset
          have hothers : ∀ g ∈ rest, (w.purge.eventReset h).event g = w.event g := by
            intro g hg
            rw [event_eventReset, if_neg fun heq : g = h => hnew (heq ▸ hg)]
            rfl
          have hspent : isReady core (w.purge.eventReset h) h = false := by
            obtain ⟨htype, event, hevent, -⟩ := hauto h List.mem_cons_self
            have hclear : (w.purge.eventReset h).eventTest h = false := by
              rw [World.eventTest, event_eventReset, if_pos rfl]
              show ofcEventTestImpl ((w.event h).map DarwinEvent.reset) = false
              rw [hevent]
              rfl
            unfold isReady inspect
            rw [htype]
            simp only [hclear]
            rfl
          have hlater : AllAuto core (w.purge.eventReset h) rest := by
            intro g hg
            obtain ⟨htype, event, hevent, hkind⟩ := hrest g hg
            exact ⟨htype, event, (hothers g hg).trans hevent, hkind⟩
          have hsame : rest.filter (fun g => (w.purge.eventReset h).eventTest g) =
              rest.filter fun g => w.eventTest g := by
            refine List.filter_congr fun g hg => ?_
            rw [World.eventTest, hothers g hg]
            rfl
          rw [if_pos rfl, if_pos rfl, serve_of_auto hauto List.mem_cons_self htest, hspent,
            if_neg Bool.false_ne_true, ih hnodup hlater, hsame]

/-- Successive waits on a set of different auto-reset events return each signalled one
once, in the order of the queue, and then the set polls. -/
theorem waits_of_auto (waitSet : WaitSet) (answer : ℕ → PollAnswer)
    (hnodup : (members waitSet.hHandleQueue).Nodup)
    (hauto : AllAuto core w (members waitSet.hHandleQueue)) :
    let signalled := (members waitSet.hHandleQueue).filter fun h => w.eventTest h
    (∀ i h, signalled[i]? = some h →
      (waitAt core waitSet answer w i).triggeredEvent = h) ∧
    (waitAt core waitSet answer w signalled.length).polled.isSome := by
  intro signalled
  have hserved : ∀ j < signalled.length, (signalled[j]?.or none).isSome := by
    intro j hj
    rw [List.getElem?_eq_getElem hj]
    rfl
  have hpass := pass_of_auto hnodup hauto
  refine ⟨fun i h hh => ?_, ?_⟩
  · have hi : i < signalled.length := (List.getElem?_eq_some_iff.mp hh).1
    refine ((waitAt_turn core waitSet answer w i hpass fun j hj => ?_).1 h ?_).1
    · exact hserved j (hj.trans hi)
    · rw [Option.or_none]
      exact hh
  · refine (waitAt_turn core waitSet answer w signalled.length hpass hserved).2 ?_
    rw [List.getElem?_eq_none_iff.mpr (Nat.le_refl _)]
    rfl

end OfcDarwin.Waitset
