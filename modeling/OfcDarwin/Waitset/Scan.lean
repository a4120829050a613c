import Mathlib.Data.List.Basic
import Mathlib.Data.List.TakeWhile
import OfcDarwin.Waitset.PollEvent

/-!
# What one wait can do

The scan appends to four lists and keeps a minimum as it goes; `Scanned` states
what they hold after the handles it has passed.  `scanQueue_cases` runs the loop
with it, and `wait_cases` puts it together with the reading of the pipe: every wait
has one of five outcomes, each with its handle and the world it leaves.  The
properties of a wait are case distinctions over these.
-/

namespace OfcDarwin.Waitset

open OfcDarwin.Socket

/-! ## Findings -/

namespace Finding

def isTriggered : Finding → Bool
  | triggered _ => true
  | _ => false

def pollFd? : Finding → Option PollFd
  | descriptor entry => some entry
  | _ => none

def hEvent? : Finding → Option Handle
  | backed hEvent => some hEvent
  | _ => none

def waitTime? : Finding → Option ℤ
  | timer waitTime => some waitTime
  | _ => none

theorem exists_triggered {finding : Finding} (htriggered : finding.isTriggered = true) :
    ∃ consumed, finding = .triggered consumed := by
  cases finding with
  | triggered consumed => exact ⟨consumed, rfl⟩
  | _ => exact absurd htriggered (by simp [isTriggered])

end Finding

/-- The handles the loop can reach: `OFC_HANDLE_NULL` would end it. -/
def members (queue : List Handle) : List Handle := queue.takeWhile (· ≠ handleNull)

/-! ## The lists of the scan -/

section Scan

variable {core : Core} {w : World} {pipeFile : ℤ}

/-- The locals of the scan once it has passed the handles `visited`, none of
which was ready. -/
structure Scanned (core : Core) (w : World) (pipeFile : ℤ) (visited : List Handle) (scan : Scan) :
    Prop where
  present : ∀ h ∈ visited, h ≠ handleNull
  quiet : ∀ h ∈ visited, (inspect core w h).isTriggered = false
  triggered : scan.triggeredEvent = handleNull
  handles : scan.ofcHandleList =
    handleNull :: visited.filter fun h => (inspect core w h).pollFd?.isSome
  entries : scan.darwinHandleList =
    { fd := pipeFile, events := pollIn, revents := 0 } ::
      visited.filterMap fun h => (inspect core w h).pollFd?
  backed : scan.eventQueue = visited.filterMap fun h =>
    (inspect core w h).hEvent?.map fun hEvent => { hEvent := hEvent, hAssoc := h }
  least : ∀ h ∈ visited, ∀ waitTime ∈ (inspect core w h).waitTime?, scan.leastWait ≤ waitTime
  timer : (scan.timerEvent = handleNull ∧ scan.leastWait = core.maxSchedWait) ∨
    (scan.timerEvent ∈ visited ∧ inspect core w scan.timerEvent = .timer scan.leastWait)

theorem start_scanned : Scanned core w pipeFile [] (Scan.start core pipeFile) := by
  refine ⟨nofun, nofun, rfl, rfl, rfl, rfl, nofun, Or.inl ⟨rfl, rfl⟩⟩

theorem World.note_of_quiet {finding : Finding} (hquiet : finding.isTriggered = false)
    (h : Handle) : w.note h finding = w := by
  cases finding with
  | triggered consumed => exact absurd hquiet (by simp [Finding.isTriggered])
  | _ => rfl

theorem Scan.note_triggeredEvent {finding : Finding} (hquiet : finding.isTriggered = false)
    (scan : Scan) (h : Handle) : (scan.note h finding).triggeredEvent = scan.triggeredEvent := by
  cases finding with
  | triggered consumed => exact absurd hquiet (by simp [Finding.isTriggered])
  | timer waitTime =>
      rw [Scan.note]
      split <;> rfl
  | _ => rfl

theorem Scan.note_ofcHandleList (scan : Scan) (h : Handle) (finding : Finding) :
    (scan.note h finding).ofcHandleList =
      scan.ofcHandleList ++ [h].filter fun _ => finding.pollFd?.isSome := by
  cases finding with
  | descriptor entry => rfl
  | timer waitTime =>
      rw [Scan.note]
      split <;> exact (List.append_nil _).symm
  | _ => exact (List.append_nil _).symm

theorem Scan.note_darwinHandleList (scan : Scan) (h : Handle) (finding : Finding) :
    (scan.note h finding).darwinHandleList =
      scan.darwinHandleList ++ finding.pollFd?.toList := by
  cases finding with
  | descriptor entry => rfl
  | timer waitTime =>
      rw [Scan.note]
      split <;> exact (List.append_nil _).symm
  | _ => exact (List.append_nil _).symm

theorem Scan.note_eventQueue (scan : Scan) (h : Handle) (finding : Finding) :
    (scan.note h finding).eventQueue = scan.eventQueue ++ (finding.hEvent?.map fun hEvent =>
      { hEvent := hEvent, hAssoc := h : EventElement }).toList := by
  cases finding with
  | backed hEvent => rfl
  | timer waitTime =>
      rw [Scan.note]
      split <;> exact (List.append_nil _).symm
  | _ => exact (List.append_nil _).symm

/-- The minimum after a handle: it stays, or the handle is a timer that beats it. -/
theorem Scan.note_timer (scan : Scan) (h : Handle) (finding : Finding) :
    (∀ waitTime ∈ finding.waitTime?, (scan.note h finding).leastWait ≤ waitTime) ∧
      ((scan.note h finding).timerEvent = scan.timerEvent ∧
          (scan.note h finding).leastWait = scan.leastWait ∨
        (scan.note h finding).timerEvent = h ∧
          finding = .timer (scan.note h finding).leastWait ∧
          (scan.note h finding).leastWait ≤ scan.leastWait) := by
  cases finding with
  | timer waitTime =>
      rw [Scan.note, Finding.waitTime?]
      by_cases hless : waitTime < scan.leastWait
      · rw [if_pos hless]
        exact ⟨fun _ hmem => le_of_eq (Option.some.inj hmem), Or.inr ⟨rfl, rfl, le_of_lt hless⟩⟩
      · rw [if_neg hless]
        exact ⟨fun _ hmem => Option.some.inj hmem ▸ not_lt.mp hless, Or.inl ⟨rfl, rfl⟩⟩
  | _ => exact ⟨nofun, Or.inl ⟨rfl, rfl⟩⟩

theorem filterMap_singleton {α β : Type*} (f : α → Option β) (a : α) :
    [a].filterMap f = (f a).toList := by
  rw [List.filterMap_cons]
  cases f a <;> rfl

/-- One round of the loop over a handle that is not ready. -/
theorem Scanned.note {visited : List Handle} {scan : Scan} {h : Handle}
    (hscanned : Scanned core w pipeFile visited scan) (hpresent : h ≠ handleNull)
    (hquiet : (inspect core w h).isTriggered = false) :
    Scanned core w pipeFile (visited ++ [h]) (scan.note h (inspect core w h)) := by
  obtain ⟨hpresents, hquiets, htriggered, hhandles, hentries, hbacked, hleast, htimer⟩ := hscanned
  obtain ⟨hnew, hkeeps⟩ := scan.note_timer h (inspect core w h)
  have hle : (scan.note h (inspect core w h)).leastWait ≤ scan.leastWait := by
    rcases hkeeps with ⟨-, heq⟩ | ⟨-, -, hle⟩
    · exact le_of_eq heq
    · exact hle
  refine ⟨?_, ?_, (Scan.note_triggeredEvent hquiet scan h).trans htriggered, ?_, ?_, ?_, ?_, ?_⟩
  · intro g hg
    rcases List.mem_append.mp hg with hg | hg
    · exact hpresents g hg
    · rw [List.mem_singleton.mp hg]
      exact hpresent
  · intro g hg
    rcases List.mem_append.mp hg with hg | hg
    · exact hquiets g hg
    · rw [List.mem_singleton.mp hg]
      exact hquiet
  · rw [Scan.note_ofcHandleList, hhandles, List.filter_append]
    rfl
  · rw [Scan.note_darwinHandleList, hentries, List.filterMap_append, filterMap_singleton]
    rfl
  · rw [Scan.note_eventQueue, hbacked, List.filterMap_append, filterMap_singleton]
  · intro g hg waitTime hwait
    rcases List.mem_append.mp hg with hg | hg
    · exact le_trans hle (hleast g hg waitTime hwait)
    · rw [List.mem_singleton.mp hg] at hwait
      exact hnew waitTime hwait
  · -- the minimum is still that of a timer passed before, or it is this handle's
    rcases hkeeps with ⟨htimer', hleast'⟩ | ⟨htimer', hfinding, -⟩
    · rw [htimer', hleast']
      exact htimer.imp_right fun htimer => ⟨List.mem_append_left _ htimer.1, htimer.2⟩
    · rw [htimer']
      exact Or.inr ⟨List.mem_append_right visited List.mem_cons_self, hfinding⟩

/-- The loop ends once a handle is triggered. -/
theorem scanQueue_of_triggered {scan : Scan} (htriggered : scan.triggeredEvent ≠ handleNull)
    (queue : List Handle) : scanQueue core queue scan w = (scan, w) := by
  cases queue with
  | nil => rfl
  | cons h rest => rw [scanQueue, if_neg (fun hboth => htriggered hboth.2)]

/-- The locals after some handles, none of which is ready. -/
def noteAll (core : Core) (w : World) (handles : List Handle) (scan : Scan) : Scan :=
  handles.foldl (fun scan h => scan.note h (inspect core w h)) scan

/-- What a handle that is not ready preserves, a list of them preserves. -/
theorem noteAll_induction {I : List Handle → Scan → Prop} {handles : List Handle}
    (hnote : ∀ visited scan, ∀ h ∈ handles, I visited scan →
      I (visited ++ [h]) (scan.note h (inspect core w h)))
    {visited : List Handle} {scan : Scan} (hinit : I visited scan) :
    I (visited ++ handles) (noteAll core w handles scan) := by
  induction handles generalizing visited scan with
  | nil =>
      rw [List.append_nil]
      exact hinit
  | cons h rest ih =>
      have hfirst := hnote visited scan h List.mem_cons_self hinit
      have hrest := ih (fun visited scan g hg => hnote visited scan g (List.mem_cons_of_mem h hg))
        hfirst
      rwa [List.append_assoc] at hrest

theorem ne_null_of_mem_members {queue : List Handle} {h : Handle} (hmem : h ∈ members queue) :
    h ≠ handleNull := by
  simpa using List.mem_takeWhile_imp hmem

/-- The loop passes all handles up to the end, or stops at the first that is
ready. -/
theorem scanQueue_cases (queue : List Handle) {scan : Scan}
    (hnone : scan.triggeredEvent = handleNull) :
    ((∀ h ∈ members queue, (inspect core w h).isTriggered = false) ∧
      scanQueue core queue scan w = (noteAll core w (members queue) scan, w)) ∨
    ∃ before h after consumed scan', members queue = before ++ h :: after ∧
      (∀ g ∈ before, (inspect core w g).isTriggered = false) ∧ h ≠ handleNull ∧
      inspect core w h = .triggered consumed ∧ scan'.triggeredEvent = h ∧
      scanQueue core queue scan w = (scan', w.note h (.triggered consumed)) := by
  induction queue generalizing scan with
  | nil => exact Or.inl ⟨nofun, rfl⟩
  | cons h rest ih =>
      rw [scanQueue, members, List.takeWhile_cons]
      by_cases hpresent : h = handleNull
      · rw [if_neg (by simp [hpresent]), if_neg (by simp [hpresent])]
        exact Or.inl ⟨nofun, rfl⟩
      · have hgoes : h ≠ handleNull ∧ scan.triggeredEvent = handleNull := ⟨hpresent, hnone⟩
        rw [if_pos hgoes, if_pos (by simp [hpresent])]
        cases hquiet : (inspect core w h).isTriggered with
        | false =>
            rw [World.note_of_quiet hquiet]
            have hnone' := (Scan.note_triggeredEvent hquiet scan h).trans hnone
            rcases ih hnone' with ⟨hquiets, hrun⟩ |
              ⟨before, g, after, consumed, scan', hmembers, hbefore, hg⟩
            · exact Or.inl ⟨List.forall_mem_cons.mpr ⟨hquiet, hquiets⟩, hrun⟩
            · refine Or.inr ⟨h :: before, g, after, consumed, scan', ?_,
                List.forall_mem_cons.mpr ⟨hquiet, hbefore⟩, hg⟩
              rw [List.cons_append, ← hmembers]
              rfl
        | true =>
            obtain ⟨consumed, hfinding⟩ := Finding.exists_triggered hquiet
            refine Or.inr ⟨[], h, members rest, consumed, { scan with triggeredEvent := h }, rfl,
              nofun, hpresent, hfinding, rfl, ?_⟩
            rw [hfinding, Scan.note]
            exact scanQueue_of_triggered hpresent rest

/-- A loop that passes all handles leaves what `Scanned` says of them. -/
theorem scanned_noteAll {queue : List Handle}
    (hquiet : ∀ h ∈ members queue, (inspect core w h).isTriggered = false) :
    Scanned core w pipeFile (members queue)
      (noteAll core w (members queue) (Scan.start core pipeFile)) :=
  noteAll_induction (fun _ _ h hmem hscanned =>
    hscanned.note (ne_null_of_mem_members hmem) (hquiet h hmem)) start_scanned

end Scan

/-! ## The answer of `poll` -/

/-- The entries a function selects stand in one order with the elements it
selects them for. -/
theorem getElem?_filter_isSome {α β : Type*} (f : α → Option β) {list : List α} {index : ℕ}
    {a : α} (hget : (list.filter fun a => (f a).isSome)[index]? = some a) :
    ∃ before after, list = before ++ a :: after ∧
      index = (before.filter fun a => (f a).isSome).length ∧
      (list.filterMap f)[index]? = f a := by
  induction list generalizing index with
  | nil => simp at hget
  | cons b rest ih =>
      cases hb : f b with
      | none =>
          rw [List.filter_cons_of_neg (by simp [hb])] at hget
          obtain ⟨before, after, hrest, hindex, hfound⟩ := ih hget
          refine ⟨b :: before, after, by rw [hrest]; rfl, ?_, ?_⟩
          · rw [List.filter_cons_of_neg (by simp [hb]), hindex]
          · rw [List.filterMap_cons_none hb, hfound]
      | some c =>
          rw [List.filter_cons_of_pos (by simp [hb])] at hget
          cases index with
          | zero =>
              obtain rfl : b = a := by simpa using hget
              exact ⟨[], rest, rfl, rfl, by rw [List.filterMap_cons_some hb, hb]; rfl⟩
          | succ index =>
              obtain ⟨before, after, hrest, hindex, hfound⟩ := ih (by simpa using hget)
              refine ⟨b :: before, after, by rw [hrest]; rfl, ?_, ?_⟩
              · rw [List.filter_cons_of_pos (by simp [hb]), List.length_cons, hindex]
              · rw [List.filterMap_cons_some hb, List.getElem?_cons_succ, hfound]

/-- The search over the poll list ends at the first entry with an answer. -/
theorem waitIndex_spec {answer : PollAnswer} {entries : List PollFd} {entry : PollFd}
    (hget : (answer.store entries)[waitIndex (answer.store entries)]? = some entry) :
    answer.revents (waitIndex (answer.store entries)) ≠ 0 ∧
      (∀ index < waitIndex (answer.store entries), answer.revents index = 0) ∧
      entry.revents = answer.revents (waitIndex (answer.store entries)) := by
  obtain ⟨hlt, hentry⟩ := List.getElem?_eq_some_iff.mp hget
  have hrevents : ∀ (index : ℕ) (hindex : index < (answer.store entries).length),
      (answer.store entries)[index].revents = answer.revents index := by
    intro index hindex
    simp [PollAnswer.store]
  refine ⟨?_, ?_, ?_⟩
  · have hfound := List.findIdx_getElem (w := hlt)
    rw [decide_eq_true_eq] at hfound
    rwa [← hrevents _ hlt]
  · intro index hindex
    have hskipped := List.not_of_lt_findIdx hindex
    rw [← hrevents index (lt_trans hindex hlt)]
    simpa using hskipped
  · rw [← hentry, hrevents]

/-! ## The outcomes -/

theorem inspect_purge (core : Core) (w : World) (h : Handle) :
    inspect core w.purge h = inspect core w h := rfl

/-- The number of handles with a descriptor in a part of the queue. -/
def descriptors (core : Core) (w : World) (handles : List Handle) : ℕ :=
  (handles.filter fun h => (inspect core w h).pollFd?.isSome).length

/-- The outcomes of a wait. -/
inductive Outcome (core : Core) (waitSet : WaitSet) (w : World) (answer : PollAnswer) :
    Wait → Prop where
  /-- The scan stops at a handle that is ready. -/
  | ready {before : List Handle} {h : Handle} {after : List Handle} {consumed : Bool}
      (hmembers : members waitSet.hHandleQueue = before ++ h :: after)
      (hbefore : ∀ g ∈ before, (inspect core w g).isTriggered = false)
      (hpresent : h ≠ handleNull) (hfinding : inspect core w h = .triggered consumed) :
      Outcome core waitSet w answer
        { triggeredEvent := h, world := w.purge.note h (.triggered consumed), polled := none,
          socketGetImpl := [] }
  /-- The poll times out for a timer. -/
  | expired {scan : Scan}
      (hscanned : Scanned core w waitSet.pipeFile (members waitSet.hHandleQueue) scan)
      (hcount : answer.count = 0) (htimer : scan.timerEvent ≠ handleNull) :
      Outcome core waitSet w answer
        { triggeredEvent := scan.timerEvent, world := answer.world,
          polled := some (scan.darwinHandleList, scan.leastWait), socketGetImpl := [] }
  /-- A message names a signalled event of the set. -/
  | message {scan : Scan} {read rest : List Handle} {hEvent h : Handle}
      (hscanned : Scanned core w waitSet.pipeFile (members waitSet.hHandleQueue) scan)
      (hcount : answer.count > 0) (hmessages : answer.world.pipe = read ++ hEvent :: rest)
      (hmember : h ∈ members waitSet.hHandleQueue)
      (hfinding : inspect core w h = .backed hEvent)
      (htest : answer.world.eventTest hEvent = true) :
      Outcome core waitSet w answer
        { triggeredEvent := h, world := { answer.world.consume hEvent with pipe := rest },
          polled := some (scan.darwinHandleList, scan.leastWait), socketGetImpl := [] }
  /-- A descriptor is ready. -/
  | descriptor {scan : Scan} {before : List Handle} {h : Handle} {after : List Handle}
      {entry : PollFd} {world : World}
      (hscanned : Scanned core w waitSet.pipeFile (members waitSet.hHandleQueue) scan)
      (hcount : answer.count > 0)
      (hmembers : members waitSet.hHandleQueue = before ++ h :: after)
      (hfinding : inspect core w h = .descriptor entry)
      (hentry : scan.darwinHandleList[descriptors core w before + 1]? = some entry)
      (hrevents : answer.revents (descriptors core w before + 1) ≠ 0)
      (hfirst : ∀ index < descriptors core w before + 1, answer.revents index = 0)
      (hworld : world = { answer.world with
        socket := Function.update answer.world.socket (core.socketGetImpl h)
          (ofcSocketImplSetEvent (answer.world.socket (core.socketGetImpl h))
            (answer.revents (descriptors core w before + 1))) }) :
      Outcome core waitSet w answer
        { triggeredEvent := h, world := world,
          polled := some (scan.darwinHandleList, scan.leastWait), socketGetImpl := [h] }
  /-- Nothing comes of the poll. -/
  | idle {scan : Scan} {rest : List Handle}
      (hscanned : Scanned core w waitSet.pipeFile (members waitSet.hHandleQueue) scan) :
      Outcome core waitSet w answer
        { triggeredEvent := handleNull, world := { answer.world with pipe := rest },
          polled := some (scan.darwinHandleList, scan.leastWait), socketGetImpl := [] }

variable {core : Core} {waitSet : WaitSet} {w : World}

/-- A backed handle of the scan is one of the set. -/
theorem Scanned.mem_eventQueue {pipeFile : ℤ} {visited : List Handle} {scan : Scan}
    (hscanned : Scanned core w pipeFile visited scan) {element : EventElement}
    (hmem : element ∈ scan.eventQueue) :
    element.hAssoc ∈ visited ∧ inspect core w element.hAssoc = .backed element.hEvent := by
  rw [hscanned.backed, List.mem_filterMap] at hmem
  obtain ⟨h, hh, heq⟩ := hmem
  obtain ⟨hEvent, hbacked, rfl⟩ := Option.map_eq_some_iff.mp heq
  refine ⟨hh, ?_⟩
  cases hfinding : inspect core w h <;> simp_all [Finding.hEvent?]

theorem dispatch_cases (answer : PollAnswer) {scan : Scan}
    (hscanned : Scanned core w waitSet.pipeFile (members waitSet.hHandleQueue) scan) :
    Outcome core waitSet w answer (dispatch core scan answer) := by
  unfold dispatch
  simp only
  split
  · rename_i hexpired
    exact .expired hscanned hexpired.1 hexpired.2
  split
  · rename_i hcount
    split
    · have hassoc : ∀ element ∈ scan.eventQueue, element.hAssoc ≠ handleNull :=
        fun element hmem => hscanned.present _ (hscanned.mem_eventQueue hmem).1
      rcases pollEvent_spec answer.world hassoc answer.world.pipe with ⟨rest, heq⟩ |
        ⟨read, hEvent, rest, element, hmessages, -, hmem, rfl, htest, heq⟩
      · rw [heq]
        exact .idle hscanned
      · rw [heq]
        obtain ⟨hmember, hfinding⟩ := hscanned.mem_eventQueue hmem
        exact .message hscanned hcount hmessages hmember hfinding htest
    · rename_i hindex
      split
      · rename_i entry h hentry hhandle
        obtain ⟨hrevents, hfirst, heq⟩ := waitIndex_spec hentry
        rw [if_pos (heq ▸ hrevents)]
        generalize waitIndex (answer.store scan.darwinHandleList) = index at *
        obtain ⟨position, rfl⟩ := Nat.exists_eq_succ_of_ne_zero hindex
        rw [hscanned.handles, List.getElem?_cons_succ] at hhandle
        obtain ⟨before, after, hmembers, rfl, hfound⟩ := getElem?_filter_isSome _ hhandle
        obtain ⟨own, hown⟩ : ∃ own, inspect core w h = .descriptor own := by
          have hmem := (List.mem_filter.mp (List.mem_of_getElem? hhandle)).2
          cases hfinding : inspect core w h <;> simp_all [Finding.pollFd?]
        refine .descriptor hscanned hcount hmembers hown ?_ hrevents hfirst ?_
        · rw [hscanned.entries, List.getElem?_cons_succ]
          exact hfound.trans (by rw [hown]; rfl)
        · rw [heq]
          rfl
      · exact .idle hscanned
  · exact .idle hscanned

/-- A wait passes every handle of its set and polls, or it stops at the first that
is ready. -/
theorem wait_scan (core : Core) (waitSet : WaitSet) (w : World) (answer : PollAnswer) :
    ((∀ h ∈ members waitSet.hHandleQueue, (inspect core w h).isTriggered = false) ∧
      ofcWaitsetWaitImpl core (some waitSet) w answer =
        dispatch core (noteAll core w (members waitSet.hHandleQueue)
          (Scan.start core waitSet.pipeFile)) answer) ∨
    ∃ before h after consumed, members waitSet.hHandleQueue = before ++ h :: after ∧
      (∀ g ∈ before, (inspect core w g).isTriggered = false) ∧ h ≠ handleNull ∧
      inspect core w h = .triggered consumed ∧
      ofcWaitsetWaitImpl core (some waitSet) w answer =
        { triggeredEvent := h, world := w.purge.note h (.triggered consumed), polled := none,
          socketGetImpl := [] } := by
  unfold ofcWaitsetWaitImpl
  rcases @scanQueue_cases core w.purge waitSet.hHandleQueue (Scan.start core waitSet.pipeFile) rfl
    with ⟨hquiet, hrun⟩ |
    ⟨before, h, after, consumed, scan, hmembers, hbefore, hpresent, hfinding, htriggered, hrun⟩
  · have hscanned := @scanned_noteAll core w.purge waitSet.pipeFile _ hquiet
    simp only [hrun]
    rw [if_pos hscanned.triggered]
    exact Or.inl ⟨hquiet, rfl⟩
  · simp only [hrun]
    rw [htriggered, if_neg hpresent]
    exact Or.inr ⟨before, h, after, consumed, hmembers, hbefore, hpresent, hfinding, rfl⟩

/-- Every wait on a set has one of the outcomes. -/
theorem wait_cases (core : Core) (waitSet : WaitSet) (w : World) (answer : PollAnswer) :
    Outcome core waitSet w answer (ofcWaitsetWaitImpl core (some waitSet) w answer) := by
  rcases wait_scan core waitSet w answer with ⟨hquiet, hwait⟩ |
    ⟨before, h, after, consumed, hmembers, hbefore, hpresent, hfinding, hwait⟩
  · rw [hwait]
    exact dispatch_cases answer (scanned_noteAll hquiet)
  · rw [hwait]
    exact .ready hmembers hbefore hpresent hfinding

/-- A wait with nothing ready polls. -/
theorem wait_eq_dispatch {waitSet : WaitSet} (answer : PollAnswer)
    (hquiet : ∀ g ∈ members waitSet.hHandleQueue, (inspect core w g).isTriggered = false) :
    ∃ scan, Scanned core w waitSet.pipeFile (members waitSet.hHandleQueue) scan ∧
      ofcWaitsetWaitImpl core (some waitSet) w answer = dispatch core scan answer := by
  rcases wait_scan core waitSet w answer with ⟨-, hwait⟩ |
    ⟨before, h, after, consumed, hmembers, -, -, hfinding, -⟩
  · exact ⟨_, scanned_noteAll hquiet, hwait⟩
  · have hready := hquiet h (hmembers ▸ List.mem_append_right before List.mem_cons_self)
    rw [hfinding] at hready
    cases hready

end OfcDarwin.Waitset
