import OfcDarwin.Waitset.Scan

/-!
# What a returned handle stands for

A wait returns `OFC_HANDLE_NULL` or a handle of the set that is ready, where
being ready means something else for each type of handle.  `Ready` says it for
the moment of the scan, `Evidence` for the whole wait, both by the type of the
handle and without reference to the code of the scan; the lemmas on `inspect`
connect the two.  `wait_sound` then goes through the outcomes of a wait.
-/

namespace OfcDarwin.Waitset

open OfcDarwin.Socket

/-! ## Readiness by type -/

/-- The event that stands for a handle. -/
def backingEvent (core : Core) (h : Handle) : Option Handle :=
  match core.handleGetType h with
  | .event => some h
  | .fsdarwinOverlapped => some (core.fsDarwinGetOverlappedEvent h)
  | .waitQueue => some (core.waitqGetEventHandle h)
  | .fssmbOverlapped => some (core.waitqGetEventHandle (core.fileGetOverlappedWaitQ h))
  | _ => none

/-- The descriptor of a socket or a Darwin file. -/
def ownDescriptor (core : Core) (w : World) (h : Handle) : Option ℤ :=
  match core.handleGetType h with
  | .socket => some (ofcSocketImplGetFd (w.socket (core.socketGetImpl h)))
  | .file =>
      if core.fileGetFsType h = .darwin then some (core.fsDarwinGetFd (core.fileGetFsHandle h))
      else none
  | _ => none

/-- A handle which a scan finds ready: an event that is signalled, a queue that
is not empty, or a timer that is due. -/
def Ready (core : Core) (w : World) (h : Handle) : Prop :=
  match core.handleGetType h with
  | .event => w.eventTest h = true
  | .fsdarwinOverlapped => w.eventTest (core.fsDarwinGetOverlappedEvent h) = true
  | .waitQueue => w.waitqEmpty h = false
  | .fssmbOverlapped => w.waitqEmpty (core.fileGetOverlappedWaitQ h) = false
  | .timer => w.waitTime h = 0
  | _ => False

/-- The evidence for a handle that a wait returns. -/
inductive Evidence (core : Core) (waitSet : WaitSet) (w : World) (answer : PollAnswer)
    (wait : Wait) (h : Handle) : Prop where
  /-- The scan found it ready. -/
  | ready (hready : Ready core w h)
  /-- A message named its event, which was signalled when the message was
  received. -/
  | message (hEvent : Handle) (hbacking : backingEvent core h = some hEvent)
      (hcount : answer.count > 0) (read : List Handle)
      (hmessages : answer.world.pipe = read ++ hEvent :: wait.world.pipe)
      (htest : answer.world.eventTest hEvent = true)
  /-- The poll timed out, and it is the first of the timers to expire. -/
  | expired (htype : core.handleGetType h = .timer) (hcount : answer.count = 0)
      (hleast : ∀ g ∈ members waitSet.hHandleQueue, core.handleGetType g = .timer →
        w.waitTime h ≤ w.waitTime g)
  /-- Its own descriptor stood where the poll list had its first answer. -/
  | descriptor (before after : List Handle) (entries : List PollFd) (timeout : ℤ)
      (hcount : answer.count > 0) (hpolled : wait.polled = some (entries, timeout))
      (hmembers : members waitSet.hHandleQueue = before ++ h :: after) (index : ℕ)
      (hindex : index = (before.filter fun g => (ownDescriptor core w g).isSome).length + 1)
      (hown : (entries[index]?).map PollFd.fd = ownDescriptor core w h)
      (hhas : (ownDescriptor core w h).isSome)
      (hrevents : answer.revents index ≠ 0) (hfirst : ∀ i < index, answer.revents i = 0)

variable {core : Core} {w : World}

/-! ## The switch -/

theorem isTriggered_iff_ready (hfs : core.fsDarwin = true) (h : Handle) :
    (inspect core w h).isTriggered = true ↔ Ready core w h := by
  unfold inspect Ready
  cases core.handleGetType h <;> simp only [hfs, if_true, true_and]
  all_goals repeat' split
  all_goals simp_all [Finding.isTriggered]

theorem backingEvent_of_backed {h hEvent : Handle} (hfinding : inspect core w h = .backed hEvent) :
    backingEvent core h = some hEvent := by
  unfold inspect at hfinding
  unfold backingEvent
  cases htype : core.handleGetType h <;> simp only [htype] at hfinding ⊢
  all_goals repeat' split at hfinding
  all_goals simp_all

theorem ownDescriptor_eq (hfs : core.fsDarwin = true) (h : Handle) :
    ownDescriptor core w h = (inspect core w h).pollFd?.map PollFd.fd := by
  unfold inspect ownDescriptor
  cases core.handleGetType h <;> simp only [hfs, if_true, true_and]
  all_goals repeat' split
  all_goals rfl

theorem timer_of_finding {h : Handle} {waitTime : ℤ}
    (hfinding : inspect core w h = .timer waitTime) :
    core.handleGetType h = .timer ∧ w.waitTime h = waitTime := by
  unfold inspect at hfinding
  cases htype : core.handleGetType h <;> simp only [htype] at hfinding
  all_goals repeat' split at hfinding
  all_goals simp_all

theorem finding_of_timer {h : Handle} (htype : core.handleGetType h = .timer)
    (hquiet : (inspect core w h).isTriggered = false) :
    (inspect core w h).waitTime? = some (w.waitTime h) := by
  unfold inspect at hquiet ⊢
  simp only [htype] at hquiet ⊢
  split_ifs at hquiet ⊢
  · exact absurd hquiet (by simp [Finding.isTriggered])
  · rfl

/-! ## Soundness -/

theorem mem_of_mem_members {queue : List Handle} {h : Handle} (hmem : h ∈ members queue) :
    h ∈ queue :=
  (List.takeWhile_sublist _).subset hmem

theorem evidence_of_outcome (hfs : core.fsDarwin = true) {waitSet : WaitSet}
    {answer : PollAnswer} {wait : Wait} (houtcome : Outcome core waitSet w answer wait) :
    wait.triggeredEvent = handleNull ∨ (wait.triggeredEvent ∈ waitSet.hHandleQueue ∧
      Evidence core waitSet w answer wait wait.triggeredEvent) := by
  cases houtcome with
  | @ready before h after consumed hmembers hbefore hpresent hfinding =>
      refine Or.inr ⟨mem_of_mem_members (by rw [hmembers]; simp), .ready ?_⟩
      exact (isTriggered_iff_ready hfs h).mp (by rw [hfinding]; rfl)
  | @expired scan hscanned hcount htimer =>
      rcases hscanned.timer with hnone | ⟨hmem, hfinding⟩
      · exact absurd hnone.1 htimer
      · obtain ⟨htype, htime⟩ := timer_of_finding hfinding
        refine Or.inr ⟨mem_of_mem_members hmem, .expired htype hcount ?_⟩
        intro g hg hgtype
        rw [htime]
        exact hscanned.least g hg _ (finding_of_timer hgtype (hscanned.quiet g hg))
  | @message scan read rest hEvent h hscanned hcount hmessages hmember hfinding htest =>
      exact Or.inr ⟨mem_of_mem_members hmember,
        .message hEvent (backingEvent_of_backed hfinding) hcount read hmessages htest⟩
  | @descriptor scan before h after entry world hscanned hcount hmembers hfinding hentry hrevents
      hfirst hworld =>
      have hown : ownDescriptor core w h = some entry.fd := by
        rw [ownDescriptor_eq hfs, hfinding]
        rfl
      have hindex : descriptors core w before =
          (before.filter fun g => (ownDescriptor core w g).isSome).length := by
        simp only [descriptors, ownDescriptor_eq hfs, Option.isSome_map]
      rw [hindex] at hentry hrevents hfirst
      refine Or.inr ⟨mem_of_mem_members (by rw [hmembers]; simp),
        .descriptor before after scan.darwinHandleList scan.leastWait hcount rfl hmembers _ rfl ?_
          (by rw [hown]; rfl) hrevents hfirst⟩
      rw [hentry, hown]
      rfl
  | idle hscanned => exact Or.inl rfl

theorem ready_of_outcome (hfs : core.fsDarwin = true) {waitSet : WaitSet} {answer : PollAnswer}
    {wait : Wait} (houtcome : Outcome core waitSet w answer wait)
    (hready : ∃ g ∈ members waitSet.hHandleQueue, Ready core w g) :
    wait.polled = none ∧ ∃ before after,
      members waitSet.hHandleQueue = before ++ wait.triggeredEvent :: after ∧
        Ready core w wait.triggeredEvent ∧ ∀ g ∈ before, ¬ Ready core w g := by
  obtain ⟨g, hmem, hg⟩ := hready
  have hscan : ∀ {scan : Scan}, ¬ Scanned core w waitSet.pipeFile
      (members waitSet.hHandleQueue) scan := by
    intro scan hscanned
    have htriggered := (isTriggered_iff_ready hfs g).mpr hg
    rw [hscanned.quiet g hmem] at htriggered
    exact absurd htriggered (by decide)
  cases houtcome with
  | @ready before h after consumed hmembers hbefore hpresent hfinding =>
      refine ⟨rfl, before, after, hmembers, ?_, ?_⟩
      · exact (isTriggered_iff_ready hfs h).mp (by rw [hfinding]; rfl)
      · intro f hf hfready
        have htriggered := (isTriggered_iff_ready hfs f).mpr hfready
        rw [hbefore f hf] at htriggered
        exact absurd htriggered (by decide)
  | expired hscanned => exact absurd hscanned hscan
  | message hscanned => exact absurd hscanned hscan
  | descriptor hscanned => exact absurd hscanned hscan
  | idle hscanned => exact absurd hscanned hscan

/-- A wait returns `OFC_HANDLE_NULL` or a handle of the set with evidence that
it is ready.  When a handle is ready during the scan, the wait does not poll and
returns the first such handle. -/
theorem wait_sound (hfs : core.fsDarwin = true) (waitSet : WaitSet) (w : World)
    (answer : PollAnswer) :
    let wait := ofcWaitsetWaitImpl core (some waitSet) w answer
    (wait.triggeredEvent = handleNull ∨ (wait.triggeredEvent ∈ waitSet.hHandleQueue ∧
      Evidence core waitSet w answer wait wait.triggeredEvent)) ∧
    ((∃ g ∈ members waitSet.hHandleQueue, Ready core w g) →
      wait.polled = none ∧ ∃ before after,
        members waitSet.hHandleQueue = before ++ wait.triggeredEvent :: after ∧
          Ready core w wait.triggeredEvent ∧ ∀ g ∈ before, ¬ Ready core w g) :=
  ⟨evidence_of_outcome hfs (wait_cases core waitSet w answer),
    ready_of_outcome hfs (wait_cases core waitSet w answer)⟩

/-- The event 1 of the set is found in the scan, behind the timer 2. -/
theorem wait_sound_event :
    let waitSet : WaitSet := { hHandleQueue := [2, 1, 3], pipeFile := 9 }
    let answer : PollAnswer := { count := 0, revents := fun _ => 0, world := exampleWorld }
    let wait := ofcWaitsetWaitImpl exampleCore (some waitSet) exampleWorld answer
    wait.triggeredEvent = 1 ∧ wait.polled = none ∧
      Evidence exampleCore waitSet exampleWorld answer wait 1 := by
  intro waitSet answer wait
  obtain ⟨hevidence, hready⟩ := @wait_sound exampleCore rfl waitSet exampleWorld answer
  refine ⟨rfl, (hready ⟨1, by decide, rfl⟩).1, ?_⟩
  exact (hevidence.resolve_left (by decide)).2

end OfcDarwin.Waitset
