import OfcDarwin.Waitset.Frame

/-!
# An event found by the scan and an event found from the pipe

A set that comes before the scan is found by the scan, one that comes after it
wakes the poll and is found by `PollEvent`.  Both return a handle of the set, and
both may reset the event.  `scanPath_eq` and `pipePath_eq` compute what each does
when the event is all there is to find.

They differ in two places.  The scan resets an auto-reset event that is itself in
the set, but not the event of an overlapped operation, where `PollEvent` resets
either; and `PollEvent` goes by the first handle of the set that the event stands
for, ready or not.  `pathsAgree_iff` says that this is all.
-/

namespace OfcDarwin.Waitset

open OfcDarwin.Socket

/-! ## One event, set at two moments -/

/-- `ofc_event_set` of an event, with its message to the set. -/
def World.eventSet (w : World) (hEvent : Handle) : World :=
  { w with
    event := Function.update w.event hEvent ((w.event hEvent).map DarwinEvent.set)
    pipe := w.pipe ++ [hEvent] }

/-- Setting `e` makes `h`, and nothing else, ready in a set in which nothing was
ready. -/
structure OnlyReady (core : Core) (waitSet : WaitSet) (w : World) (h e : Handle) : Prop where
  member : h ∈ members waitSet.hHandleQueue
  kind : core.handleGetType h = .event ∨ core.handleGetType h = .fsdarwinOverlapped
  backing : backingEvent core h = some e
  present : e ≠ handleNull
  clear : w.eventTest e = false
  quiet : ∀ g ∈ members waitSet.hHandleQueue, ¬ Ready core w g
  only : ∀ g ∈ members waitSet.hHandleQueue, Ready core (w.eventSet e) g → g = h

/-- The poll of a wait on `w` returns because `e` was set after the scan: the pipe
holds its message, behind none but messages of events that are not signalled. -/
structure SetAfterScan (w : World) (e : Handle) (answer : PollAnswer) (rest : List Handle) :
    Prop where
  count : answer.count > 0
  revents : answer.revents 0 ≠ 0
  world : ∃ stale : List Handle,
    (∀ hEvent ∈ stale, hEvent ≠ handleNull ∧ (w.eventSet e).eventTest hEvent = false) ∧
      answer.world = { w.eventSet e with pipe := stale ++ e :: rest }

/-- The wait when `e` is set before its scan. -/
def scanPath (core : Core) (waitSet : WaitSet) (w : World) (e : Handle) (answer : PollAnswer) :
    Wait :=
  ofcWaitsetWaitImpl core (some waitSet) (w.eventSet e) answer

/-- The wait when `e` is set after its scan, which `answer` then reports. -/
def pipePath (core : Core) (waitSet : WaitSet) (w : World) (answer : PollAnswer) : Wait :=
  ofcWaitsetWaitImpl core (some waitSet) w answer

/-- Two waits return `h`, leave the event `e` alike, and are followed by the same
waits. -/
structure PathsAgree (core : Core) (waitSet : WaitSet) (h e : Handle) (first second : Wait) :
    Prop where
  handle : first.triggeredEvent = h ∧ second.triggeredEvent = h
  event : first.world.event e = second.world.event e
  following : ∀ next : PollAnswer,
    ofcWaitsetWaitImpl core (some waitSet) first.world next =
      ofcWaitsetWaitImpl core (some waitSet) second.world next

/-- The first handle of the set that an event stands for. -/
def firstBacked (core : Core) (waitSet : WaitSet) (e : Handle) : Option Handle :=
  (members waitSet.hHandleQueue).find? fun g => backingEvent core g = some e

variable {core : Core} {waitSet : WaitSet} {w : World} {h e : Handle} {answer : PollAnswer}

/-! ## The event -/

theorem exists_event_of_clear (hclear : w.eventTest e = false) :
    ∃ event, w.event e = some event := by
  unfold World.eventTest at hclear
  cases hevent : w.event e with
  | none => simp [hevent, ofcEventTestImpl] at hclear
  | some event => exact ⟨event, rfl⟩

theorem eventTest_eventSet (hclear : w.eventTest e = false) :
    (w.eventSet e).eventTest e = true := by
  obtain ⟨event, hevent⟩ := exists_event_of_clear hclear
  simp [World.eventTest, World.eventSet, hevent, ofcEventTestImpl]

theorem eventGetType_eventSet (w : World) (e g : Handle) :
    (w.eventSet e).eventGetType g = w.eventGetType g := by
  unfold World.eventGetType World.eventSet
  by_cases hsame : g = e
  · subst hsame
    cases w.event g <;> simp [ofcEventGetTypeImpl, DarwinEvent.set]
  · simp [Function.update_of_ne hsame]

/-- The event of the handle, by the kind of the handle. -/
theorem OnlyReady.kind_cases (honly : OnlyReady core waitSet w h e) :
    core.handleGetType h = .event ∧ h = e ∨
      core.handleGetType h = .fsdarwinOverlapped ∧ core.fsDarwinGetOverlappedEvent h = e := by
  have hbacking := honly.backing
  unfold backingEvent at hbacking
  rcases honly.kind with hkind | hkind
  · rw [hkind] at hbacking
    exact Or.inl ⟨hkind, Option.some.inj hbacking⟩
  · rw [hkind] at hbacking
    exact Or.inr ⟨hkind, Option.some.inj hbacking⟩

theorem OnlyReady.ready (honly : OnlyReady core waitSet w h e) :
    Ready core (w.eventSet e) h := by
  have htest := eventTest_eventSet honly.clear
  unfold Ready
  rcases honly.kind_cases with ⟨hkind, hevent⟩ | ⟨hkind, hevent⟩
  · simp only [hkind]
    rwa [hevent]
  · simp only [hkind]
    rwa [hevent]

/-! ## The scan path -/

/-- What the scan makes of the handle once its event is set: only an event in the
set is consumed. -/
theorem inspect_eventSet (hfs : core.fsDarwin = true) (honly : OnlyReady core waitSet w h e) :
    inspect core (w.eventSet e) h = .triggered (core.handleGetType h == .event) := by
  have htest := eventTest_eventSet honly.clear
  unfold inspect
  rcases honly.kind_cases with ⟨hkind, hevent⟩ | ⟨hkind, hevent⟩
  · subst hevent
    simp only [hkind, htest]
    rfl
  · simp only [hkind, hevent, htest, hfs]
    rfl

/-- The scan finds `h` and stops there. -/
theorem scanPath_eq (hfs : core.fsDarwin = true) (honly : OnlyReady core waitSet w h e) :
    (scanPath core waitSet w e answer).triggeredEvent = h ∧
      (scanPath core waitSet w e answer).world =
        if core.handleGetType h = .event then (w.eventSet e).purge.consume e
        else (w.eventSet e).purge := by
  have houtcome := wait_cases core waitSet (w.eventSet e) answer
  obtain ⟨hpolled, before, after, hmembers, hready, -⟩ :=
    ready_of_outcome hfs houtcome ⟨h, honly.member, honly.ready⟩
  unfold scanPath
  have htriggered : (ofcWaitsetWaitImpl core (some waitSet) (w.eventSet e) answer).triggeredEvent =
      h := honly.only _ (hmembers ▸ List.mem_append_right before List.mem_cons_self) hready
  refine ⟨htriggered, ?_⟩
  generalize ofcWaitsetWaitImpl core (some waitSet) (w.eventSet e) answer = wait at *
  cases houtcome with
  | @ready before' g after' consumed hmembers' hbefore hpresent hfinding =>
      obtain rfl : g = h := htriggered
      rw [inspect_eventSet hfs honly, Finding.triggered.injEq] at hfinding
      rcases honly.kind_cases with ⟨hkind, rfl⟩ | ⟨hkind, -⟩
      · rw [if_pos hkind, ← hfinding, hkind]
        rfl
      · rw [if_neg (by rw [hkind]; decide), ← hfinding, hkind]
        rfl
  | expired => exact absurd hpolled (by simp)
  | message => exact absurd hpolled (by simp)
  | descriptor => exact absurd hpolled (by simp)
  | idle => exact absurd hpolled (by simp)

/-! ## The pipe path -/

/-- What the scan makes of a handle that is not ready. -/
theorem hEvent_of_quiet (hfs : core.fsDarwin = true) {g : Handle} (hquiet : ¬ Ready core w g) :
    (inspect core w g).hEvent? = backingEvent core g := by
  have hfinding := mt (isTriggered_iff_ready hfs g).mp hquiet
  unfold inspect at hfinding ⊢
  unfold backingEvent
  cases htype : core.handleGetType g <;> simp only [htype, hfs] at hfinding ⊢
  all_goals repeat' split at hfinding
  all_goals simp_all [Finding.isTriggered, Finding.hEvent?]

/-- `PollEvent` skips messages of events that are not signalled, and stops at the
message of one that is. -/
theorem pollEvent_named {eventQueue : List EventElement} {element : EventElement}
    (hfind : eventQueue.find? (·.hEvent = e) = some element) (hassoc : element.hAssoc ≠ handleNull)
    (hpresent : e ≠ handleNull) (htest : w.eventTest e = true) {stale : List Handle}
    (hstale : ∀ hEvent ∈ stale, hEvent ≠ handleNull ∧ w.eventTest hEvent = false)
    (rest : List Handle) :
    pollEvent eventQueue w (stale ++ e :: rest) =
      (element.hAssoc, { w.consume e with pipe := rest }) := by
  have hskipped : ∀ hEvent ∈ stale, ¬ Stops eventQueue w hEvent := by
    rintro hEvent hmem (hwake | ⟨-, hsignalled⟩)
    · exact (hstale hEvent hmem).1 hwake
    · rw [(hstale hEvent hmem).2] at hsignalled
      cases hsignalled
  rw [pollEvent_append hskipped, pollEvent_event hfind hassoc hpresent htest]

/-- The element that `PollEvent` finds for an event goes with the first handle of
the set that the event stands for. -/
theorem find_eventQueue (hfs : core.fsDarwin = true) {pipeFile : ℤ} {scan : Scan}
    (hscanned : Scanned core w pipeFile (members waitSet.hHandleQueue) scan) :
    scan.eventQueue.find? (·.hEvent = e) =
      (firstBacked core waitSet e).map fun g => { hEvent := e, hAssoc := g } := by
  have hquiet : ∀ g ∈ members waitSet.hHandleQueue, (inspect core w g).hEvent? =
      backingEvent core g := by
    intro g hg
    refine hEvent_of_quiet hfs fun hready => ?_
    have htriggered := (isTriggered_iff_ready hfs g).mpr hready
    rw [hscanned.quiet g hg] at htriggered
    exact absurd htriggered (by decide)
  rw [hscanned.backed, firstBacked]
  clear hscanned
  revert hquiet
  induction members waitSet.hHandleQueue with
  | nil => exact fun _ => rfl
  | cons g rest ih =>
      intro hquiet
      have hrest := ih fun g' hg' => hquiet g' (List.mem_cons_of_mem g hg')
      rw [List.filterMap_cons, hquiet g List.mem_cons_self, List.find?_cons]
      cases hbacking : backingEvent core g with
      | none => simpa using hrest
      | some hEvent =>
          by_cases hsame : hEvent = e
          · subst hsame
            simp
          · simpa [hsame] using hrest

/-- A wait with nothing ready polls. -/
theorem wait_of_quiet (hfs : core.fsDarwin = true)
    (hquiet : ∀ g ∈ members waitSet.hHandleQueue, ¬ Ready core w g) :
    ∃ scan, Scanned core w waitSet.pipeFile (members waitSet.hHandleQueue) scan ∧
      ofcWaitsetWaitImpl core (some waitSet) w answer = dispatch core scan answer := by
  apply wait_eq_dispatch
  intro g hmem
  rw [← Bool.not_eq_true, isTriggered_iff_ready hfs]
  exact hquiet g hmem

/-- An answer for the pipe is dispatched to `PollEvent`. -/
theorem dispatch_pipe {pipeFile : ℤ} {visited : List Handle} {scan : Scan}
    (hscanned : Scanned core w pipeFile visited scan) (hcount : answer.count > 0)
    (hrevents : answer.revents 0 ≠ 0) :
    ((dispatch core scan answer).triggeredEvent, (dispatch core scan answer).world) =
      pollEvent scan.eventQueue answer.world answer.world.pipe := by
  have hindex : waitIndex (answer.store scan.darwinHandleList) = 0 := by
    rw [waitIndex, hscanned.entries, PollAnswer.store, List.mapIdx_cons, List.findIdx_cons]
    simp [hrevents]
  unfold dispatch
  simp only
  rw [if_neg (by omega), if_pos hcount, if_pos hindex]

/-- `PollEvent` finds the message, consumes the event and returns the first handle
that the event stands for. -/
theorem pipePath_eq (hfs : core.fsDarwin = true) (honly : OnlyReady core waitSet w h e)
    {rest : List Handle} (hset : SetAfterScan w e answer rest) :
    ∃ g, firstBacked core waitSet e = some g ∧
      (pipePath core waitSet w answer).triggeredEvent = g ∧
      (pipePath core waitSet w answer).world = { (w.eventSet e).consume e with pipe := rest } := by
  obtain ⟨g, hfirst⟩ : ∃ g, firstBacked core waitSet e = some g := by
    rw [← Option.isSome_iff_exists, firstBacked, List.find?_isSome]
    exact ⟨h, honly.member, by simp [honly.backing]⟩
  obtain ⟨scan, hscanned, hwait⟩ : ∃ scan,
      Scanned core w waitSet.pipeFile (members waitSet.hHandleQueue) scan ∧
        ofcWaitsetWaitImpl core (some waitSet) w answer = dispatch core scan answer :=
    wait_of_quiet hfs honly.quiet
  obtain ⟨stale, hstale, hworld⟩ := hset.world
  have htest := eventTest_eventSet honly.clear
  have hpresent : g ≠ handleNull := hscanned.present g (List.mem_of_find?_eq_some hfirst)
  have hpoll : pollEvent scan.eventQueue answer.world answer.world.pipe =
      (g, { (w.eventSet e).consume e with pipe := rest }) := by
    have hfind := (find_eventQueue (e := e) hfs hscanned).trans (by rw [hfirst, Option.map_some])
    rw [hworld]
    exact (pollEvent_setPipe ..).trans (pollEvent_named hfind hpresent honly.present htest hstale _)
  refine ⟨g, hfirst, ?_⟩
  rw [pipePath, hwait]
  have hdispatch := dispatch_pipe hscanned hset.count hset.revents
  rw [hpoll, Prod.mk.injEq] at hdispatch
  exact hdispatch

/-! ## Agreement -/

theorem consume_of_manual (hmanual : w.eventGetType e = .manual) : w.consume e = w := by
  rw [World.consume, if_neg (by rw [hmanual]; decide)]

/-- A consumed auto-reset event is no longer signalled. -/
theorem consume_ne (hauto : w.eventGetType e = .auto) (htest : w.eventTest e = true)
    (hsome : (w.event e).isSome) : (w.consume e).event e ≠ w.event e := by
  obtain ⟨event, hevent⟩ := Option.isSome_iff_exists.mp hsome
  rw [World.consume, if_pos hauto]
  simp only [World.eventReset, Function.update_self, hevent, ofcEventResetImpl, Option.map_some]
  rw [World.eventTest, hevent] at htest
  intro heq
  rw [Option.some.injEq] at heq
  have hsignalled : event.reset.signalled = event.signalled := congrArg _ heq
  rw [DarwinEvent.reset_signalled] at hsignalled
  exact absurd (hsignalled.trans htest) (by decide)

/-- A wait starts by purging the pipe, so what is in it makes no difference. -/
theorem wait_setPipe (w : World) (pipe : List Handle) (answer : PollAnswer) :
    ofcWaitsetWaitImpl core (some waitSet) { w with pipe := pipe } answer =
      ofcWaitsetWaitImpl core (some waitSet) w answer := rfl

/-- The two paths agree exactly when the event stands for no earlier handle of the
set, and is a manual one unless it is itself in the set. -/
theorem pathsAgree_iff (hfs : core.fsDarwin = true) (honly : OnlyReady core waitSet w h e)
    {rest : List Handle} (hset : SetAfterScan w e answer rest) :
    PathsAgree core waitSet h e (scanPath core waitSet w e answer)
        (pipePath core waitSet w answer) ↔
      firstBacked core waitSet e = some h ∧
        (core.handleGetType h = .event ∨ w.eventGetType e = .manual) := by
  obtain ⟨hscan, hscanWorld⟩ := @scanPath_eq _ _ _ _ _ answer hfs honly
  obtain ⟨g, hfirst, hpipe, hpipeWorld⟩ := pipePath_eq hfs honly hset
  have htype := eventGetType_eventSet w e e
  have htest := eventTest_eventSet honly.clear
  constructor
  · rintro ⟨⟨-, hhandle⟩, hevent, -⟩
    obtain rfl : g = h := hpipe.symm.trans hhandle
    refine ⟨hfirst, or_iff_not_imp_left.mpr fun hkind => ?_⟩
    rw [hscanWorld, hpipeWorld, if_neg hkind] at hevent
    cases hauto : w.eventGetType e with
    | manual => rfl
    | auto =>
        have hsome : ((w.eventSet e).event e).isSome := by
          obtain ⟨event, hevent⟩ := exists_event_of_clear honly.clear
          simp [World.eventSet, hevent]
        exact absurd hevent.symm (consume_ne (htype.trans hauto) htest hsome)
  · rintro ⟨hfirst', hkind⟩
    obtain rfl : g = h := Option.some.inj (hfirst.symm.trans hfirst')
    -- the worlds that the two leave are the same up to the pipe
    have hworld : (scanPath core waitSet w e answer).world =
        { (w.eventSet e).consume e with pipe := [] } := by
      rw [hscanWorld]
      split
      · exact consume_setPipe (w.eventSet e) [] e
      · rename_i hother
        rw [consume_of_manual (htype.trans (hkind.resolve_left hother))]
        rfl
    refine ⟨⟨hscan, hpipe⟩, ?_, fun next => ?_⟩
    · rw [hworld, hpipeWorld]
    · rw [hworld, hpipeWorld]
      exact (wait_setPipe _ [] next).trans (wait_setPipe _ rest next).symm

/-- What the scan would find decides whether a handle is the only one to become
ready. -/
theorem OnlyReady.of_inspect (hfs : core.fsDarwin = true)
    (hmember : h ∈ members waitSet.hHandleQueue)
    (hkind : core.handleGetType h = .event ∨ core.handleGetType h = .fsdarwinOverlapped)
    (hbacking : backingEvent core h = some e) (hpresent : e ≠ handleNull)
    (hclear : w.eventTest e = false)
    (hquiet : ∀ g ∈ members waitSet.hHandleQueue, (inspect core w g).isTriggered = false)
    (honly : ∀ g ∈ members waitSet.hHandleQueue,
      (inspect core (w.eventSet e) g).isTriggered = true → g = h) :
    OnlyReady core waitSet w h e where
  member := hmember
  kind := hkind
  backing := hbacking
  present := hpresent
  clear := hclear
  quiet g hg hready := by
    have htriggered := (isTriggered_iff_ready hfs g).mpr hready
    rw [hquiet g hg] at htriggered
    exact absurd htriggered (by decide)
  only g hg hready := honly g hg ((isTriggered_iff_ready hfs g).mpr hready)

/-- An overlapped operation of a Darwin file, handle 5, with the event 6. -/
def overlappedCore : Core :=
  { exampleCore with
    handleGetType := fun h => if h = 5 then .fsdarwinOverlapped else exampleCore.handleGetType h
    fsDarwinGetOverlappedEvent := fun _ => 6 }

/-- A world in which the events 1 and 6 are clear, and of one type. -/
def clearWorld (eventType : EventType) : World :=
  { exampleWorld with
    event := fun h => if h = 1 ∨ h = 6 then some (ofcEventCreateImpl eventType) else none
    pipe := [] }

/-- The poll that the message of `e` ends. -/
def messageAnswer (w : World) (e : Handle) : PollAnswer :=
  { count := 1, revents := fun _ => 1, world := w.eventSet e }

/-- An auto-reset event that is itself in the set. -/
theorem pathsAgree_event :
    PathsAgree overlappedCore { hHandleQueue := [2, 1], pipeFile := 9 } 1 1
      (scanPath overlappedCore { hHandleQueue := [2, 1], pipeFile := 9 } (clearWorld .auto) 1
        (messageAnswer (clearWorld .auto) 1))
      (pipePath overlappedCore { hHandleQueue := [2, 1], pipeFile := 9 } (clearWorld .auto)
        (messageAnswer (clearWorld .auto) 1)) :=
  (pathsAgree_iff rfl
    (.of_inspect rfl (by decide) (Or.inl rfl) rfl (by decide) rfl (by decide) (by decide))
    (show SetAfterScan _ _ _ [] from ⟨by decide, by decide, [], nofun, rfl⟩)).mpr
    ⟨by decide, Or.inl rfl⟩

/-- The auto-reset event of an overlapped operation stays signalled on the scan
path, and the next wait returns the operation again. -/
theorem overlapped_paths_differ :
    let waitSet : WaitSet := { hHandleQueue := [2, 5], pipeFile := 9 }
    let w := clearWorld .auto
    let answer := messageAnswer w 6
    OnlyReady overlappedCore waitSet w 5 6 ∧ SetAfterScan w 6 answer [] ∧
      ((scanPath overlappedCore waitSet w 6 answer).world.event 6).map (·.signalled) = some true ∧
      ((pipePath overlappedCore waitSet w answer).world.event 6).map (·.signalled) =
        some false ∧
      ¬ PathsAgree overlappedCore waitSet 5 6 (scanPath overlappedCore waitSet w 6 answer)
        (pipePath overlappedCore waitSet w answer) := by
  intro waitSet w answer
  have honly : OnlyReady overlappedCore waitSet w 5 6 :=
    .of_inspect rfl (by decide) (Or.inr rfl) rfl (by decide) rfl (by decide) (by decide)
  refine ⟨honly, ⟨by decide, by decide, [], nofun, rfl⟩, by decide, by decide, fun hagree => ?_⟩
  exact absurd (congrArg (Option.map (·.signalled)) hagree.event) (by decide)

end OfcDarwin.Waitset
