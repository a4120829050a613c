import Mathlib.Data.List.Basic
import OfcDarwin.Lib.While
import OfcDarwin.Waitset.Model

/-!
# Reading the pipe

`PollEvent` reads messages until one ends the wait: a wake, or a message that names an
event of its queue which is still signalled (`Stops`).  Whatever else is in front is read
and dropped, and leaves the events alone.

* `pollEvent_append`, `pollEvent_wake`, `pollEvent_event`: the messages in front of a
  position, and the message at it;
* `pollLoop_runs`: the `do` loop of the source, with its flags, ends, and does what
  `pollEvent` does;
* `pollEvent_reads`: which messages are read, what is returned and which event is reset.
-/

namespace OfcDarwin.Waitset

variable {eventQueue : List EventElement} {w : World} {hEvent : Handle}

/-! ## A reset -/

theorem event_eventReset (w : World) (hEvent h : Handle) :
    (w.eventReset hEvent).event h =
      if h = hEvent then (w.event h).map DarwinEvent.reset else w.event h := by
  show Function.update w.event hEvent (ofcEventResetImpl (w.event hEvent)) h = _
  rw [Function.update_apply]
  split
  · rename_i heq
    rw [heq]
    rfl
  · rfl

/-- A reset signals nothing. -/
theorem eventTest_of_eventReset {w : World} {hEvent h : Handle}
    (htest : (w.eventReset hEvent).eventTest h = true) : w.eventTest h = true := by
  rw [World.eventTest, event_eventReset] at htest
  split at htest
  · cases hevent : w.event h with
    | none =>
        rw [World.eventTest, hevent]
        rfl
    | some event =>
        rw [hevent] at htest
        exact absurd htest (by simp [ofcEventTestImpl])
  · exact htest

/-! ## One message -/

theorem consume_setPipe (w : World) (pipe : List Handle) (hEvent : Handle) :
    World.consume { w with pipe := pipe } hEvent = { w.consume hEvent with pipe := pipe } := by
  rw [World.consume, World.consume]
  show ite (w.eventGetType hEvent = .auto) _ _ = _
  split <;> rfl

/-- `PollEvent` looks at the messages it is given, not at the pipe of its world. -/
theorem pollEvent_setPipe (eventQueue : List EventElement) (w : World)
    (pipe messages : List Handle) :
    pollEvent eventQueue { w with pipe := pipe } messages = pollEvent eventQueue w messages := by
  induction messages generalizing w with
  | nil => rfl
  | cons hEvent rest ih =>
      have htest : World.eventTest { w with pipe := pipe } hEvent = w.eventTest hEvent := rfl
      rw [pollEvent, pollEvent, htest, consume_setPipe, ih w]
      simp only [ih (w.consume hEvent)]

/-- The message ends the reading: it is a wake, or names a signalled event of the
queue. -/
def Stops (eventQueue : List EventElement) (w : World) (hEvent : Handle) : Prop :=
  hEvent = handleNull ∨
    (∃ element ∈ eventQueue, element.hEvent = hEvent) ∧ w.eventTest hEvent = true

instance (eventQueue : List EventElement) (w : World) (hEvent : Handle) :
    Decidable (Stops eventQueue w hEvent) :=
  inferInstanceAs (Decidable (_ ∨ _))

/-- A message that ends nothing names no signalled event of the queue. -/
theorem eventTest_of_skip {element : EventElement} (hskip : ¬ Stops eventQueue w hEvent)
    (hfind : eventQueue.find? (·.hEvent = hEvent) = some element) : w.eventTest hEvent ≠ true := by
  have hnamed : element.hEvent = hEvent := by simpa using List.find?_some hfind
  intro htest
  exact hskip (Or.inr ⟨⟨element, List.mem_of_find?_eq_some hfind, hnamed⟩, htest⟩)

theorem pollEvent_skip (hskip : ¬ Stops eventQueue w hEvent) (rest : List Handle) :
    pollEvent eventQueue w (hEvent :: rest) = pollEvent eventQueue w rest := by
  have hmessage : hEvent ≠ handleNull := fun hwake => hskip (Or.inl hwake)
  rw [pollEvent, if_neg hmessage]
  cases hfind : eventQueue.find? (·.hEvent = hEvent) with
  | none => rfl
  | some element => simp only [if_neg (eventTest_of_skip hskip hfind)]

/-- The messages that end nothing are dropped. -/
theorem pollEvent_append {read : List Handle} (hread : ∀ hEvent ∈ read, ¬ Stops eventQueue w hEvent)
    (rest : List Handle) :
    pollEvent eventQueue w (read ++ rest) = pollEvent eventQueue w rest := by
  induction read with
  | nil => rfl
  | cons hEvent read ih =>
      obtain ⟨hskip, hread⟩ := List.forall_mem_cons.mp hread
      rw [List.cons_append, pollEvent_skip hskip, ih hread]

theorem pollEvent_wake (rest : List Handle) :
    pollEvent eventQueue w (handleNull :: rest) = (handleNull, { w with pipe := rest }) := by
  rw [pollEvent, if_pos rfl]

theorem pollEvent_event {element : EventElement}
    (hfind : eventQueue.find? (·.hEvent = hEvent) = some element)
    (hassoc : element.hAssoc ≠ handleNull) (hmessage : hEvent ≠ handleNull)
    (htest : w.eventTest hEvent = true) (rest : List Handle) :
    pollEvent eventQueue w (hEvent :: rest) =
      (element.hAssoc, { w.consume hEvent with pipe := rest }) := by
  rw [pollEvent, if_neg hmessage, hfind]
  simp only [htest, if_true, if_neg hassoc]

/-- The messages up to the first that ends the reading, if there is one. -/
theorem messages_cases (eventQueue : List EventElement) (w : World) (messages : List Handle) :
    (∀ hEvent ∈ messages, ¬ Stops eventQueue w hEvent) ∨
    ∃ read hEvent rest, messages = read ++ hEvent :: rest ∧
      (∀ hEvent ∈ read, ¬ Stops eventQueue w hEvent) ∧ Stops eventQueue w hEvent := by
  cases hfind : messages.find? fun hEvent => Stops eventQueue w hEvent with
  | none => exact Or.inl (by simpa using hfind)
  | some hEvent =>
      obtain ⟨hstops, read, rest, hmessages, hread⟩ := List.find?_eq_some_iff_append.mp hfind
      exact Or.inr ⟨read, hEvent, rest, hmessages, by simpa using hread, by simpa using hstops⟩

/-- The first element of the queue for an event. -/
theorem exists_find_of_stops (hstops : Stops eventQueue w hEvent) (hmessage : hEvent ≠ handleNull) :
    ∃ element, eventQueue.find? (·.hEvent = hEvent) = some element ∧
      w.eventTest hEvent = true := by
  obtain ⟨hnamed, htest⟩ := hstops.resolve_left hmessage
  obtain ⟨element, hfind⟩ : ∃ element, eventQueue.find? (·.hEvent = hEvent) = some element := by
    rw [← Option.isSome_iff_exists, List.find?_isSome]
    simpa using hnamed
  exact ⟨element, hfind, htest⟩

/-- `PollEvent` returns `OFC_HANDLE_NULL` and changes no event, or stops at a
message for a signalled event of its queue, which it consumes. -/
theorem pollEvent_spec (w : World)
    (hassoc : ∀ element ∈ eventQueue, element.hAssoc ≠ handleNull) (messages : List Handle) :
    (∃ rest, pollEvent eventQueue w messages = (handleNull, { w with pipe := rest })) ∨
    ∃ read hEvent rest element, messages = read ++ hEvent :: rest ∧ hEvent ≠ handleNull ∧
      element ∈ eventQueue ∧ element.hEvent = hEvent ∧ w.eventTest hEvent = true ∧
      pollEvent eventQueue w messages =
        (element.hAssoc, { w.consume hEvent with pipe := rest }) := by
  rcases messages_cases eventQueue w messages with hread |
    ⟨read, hEvent, rest, rfl, hread, hstops⟩
  · refine Or.inl ⟨[], ?_⟩
    rw [← List.append_nil messages, pollEvent_append hread]
    rfl
  · rw [pollEvent_append hread]
    by_cases hwake : hEvent = handleNull
    · rw [hwake]
      exact Or.inl ⟨rest, pollEvent_wake rest⟩
    · obtain ⟨element, hfind, htest⟩ := exists_find_of_stops hstops hwake
      have hmem := List.mem_of_find?_eq_some hfind
      exact Or.inr ⟨read, hEvent, rest, element, rfl, hwake, hmem,
        by simpa using List.find?_some hfind, htest,
        pollEvent_event hfind (hassoc element hmem) hwake htest rest⟩

/-! ## The loop -/

/-- `sizeof(OFC_HANDLE)`. -/
def sizeofHandle : UInt64 := 8

/-- The locals of `PollEvent` and the world it runs in. -/
structure PollLocals where
  triggeredEvent : Handle
  wake : Bool
  size : UInt64
  world : World

/-- The locals before the first read. -/
def PollLocals.start (w : World) : PollLocals :=
  { triggeredEvent := handleNull, wake := false, size := 0, world := w }

/-- The body of the `do` loop.  The pipe does not block: with no message in it, `read`
fails. -/
def pollBody (eventQueue : List EventElement) (s : PollLocals) : PollLocals :=
  match s.world.pipe with
  | [] => { s with size := Socket.minusOne }
  | hEvent :: rest =>
      let s := { s with size := sizeofHandle, world := { s.world with pipe := rest } }
      if hEvent = handleNull then { s with wake := true }
      else
        match eventQueue.find? (·.hEvent = hEvent) with
        | none => s
        | some eventElement =>
            if s.world.eventTest hEvent then
              { s with world := s.world.consume hEvent, triggeredEvent := eventElement.hAssoc }
            else s

/-- The condition of the `do` loop. -/
def PollGoes (s : PollLocals) : Prop :=
  s.triggeredEvent = handleNull ∧ s.wake = false ∧ s.size = sizeofHandle

/-- The locals while messages are dropped. -/
def PollLocals.reading (w : World) (size : UInt64) : PollLocals :=
  { triggeredEvent := handleNull, wake := false, size := size, world := w }

theorem pollBody_wake {size : UInt64} {rest : List Handle} (hpipe : w.pipe = handleNull :: rest) :
    pollBody eventQueue (.reading w size) =
      { PollLocals.reading { w with pipe := rest } sizeofHandle with wake := true } := by
  rw [pollBody, PollLocals.reading, hpipe]
  exact if_pos rfl

theorem pollBody_skip {size : UInt64} {rest : List Handle} (hpipe : w.pipe = hEvent :: rest)
    (hskip : ¬ Stops eventQueue w hEvent) :
    pollBody eventQueue (.reading w size) = .reading { w with pipe := rest } sizeofHandle := by
  have hmessage : hEvent ≠ handleNull := fun hwake => hskip (Or.inl hwake)
  rw [pollBody, PollLocals.reading, hpipe]
  simp only
  rw [if_neg hmessage]
  cases hfind : eventQueue.find? (·.hEvent = hEvent) with
  | none => rfl
  | some element => exact if_neg (eventTest_of_skip hskip hfind)

theorem pollBody_event {size : UInt64} {rest : List Handle} {element : EventElement}
    (hpipe : w.pipe = hEvent :: rest) (hfind : eventQueue.find? (·.hEvent = hEvent) = some element)
    (hmessage : hEvent ≠ handleNull) (htest : w.eventTest hEvent = true) :
    pollBody eventQueue (.reading w size) =
      { PollLocals.reading { w.consume hEvent with pipe := rest } sizeofHandle with
        triggeredEvent := element.hAssoc } := by
  rw [pollBody, PollLocals.reading, hpipe]
  simp only
  rw [if_neg hmessage, hfind, consume_setPipe]
  exact if_pos htest

/-- The loop ends with the outcome of `pollEvent`. -/
theorem pollLoop_runs (eventQueue : List EventElement) (w : World) (size : UInt64) :
    ∃ t, While.DoRuns PollGoes (pollBody eventQueue) (.reading w size) t ∧
      (t.triggeredEvent, t.world) = pollEvent eventQueue w w.pipe := by
  induction hpipe : w.pipe generalizing w size with
  | nil =>
      have hbody : pollBody eventQueue (.reading w size) = .reading w Socket.minusOne := by
        rw [pollBody, PollLocals.reading, hpipe]
        rfl
      refine ⟨_, .last (fun hgoes => ?_), ?_⟩
      · rw [hbody] at hgoes
        exact absurd (show Socket.minusOne = sizeofHandle from hgoes.2.2) (by decide)
      · rw [hbody, pollEvent, ← hpipe]
        rfl
  | cons hEvent rest ih =>
      -- the next round reads from the world `next`
      have hagain : ∀ next : World, next.pipe = rest →
          pollBody eventQueue (.reading w size) = .reading next sizeofHandle →
          ∃ t, While.DoRuns PollGoes (pollBody eventQueue) (.reading w size) t ∧
            (t.triggeredEvent, t.world) = pollEvent eventQueue next rest := by
        intro next hrest hbody
        obtain ⟨t, hruns, houtcome⟩ := ih next sizeofHandle hrest
        refine ⟨t, .round ?_ (hbody ▸ hruns), houtcome⟩
        rw [hbody]
        exact ⟨rfl, rfl, rfl⟩
      by_cases hstops : Stops eventQueue w hEvent
      · by_cases hmessage : hEvent = handleNull
        · subst hmessage
          have hbody := @pollBody_wake eventQueue w size rest hpipe
          refine ⟨_, .last (fun hgoes => ?_), by rw [hbody, pollEvent_wake]; rfl⟩
          rw [hbody] at hgoes
          exact absurd hgoes.2.1 (by simp)
        · obtain ⟨element, hfind, htest⟩ := exists_find_of_stops hstops hmessage
          have hbody := @pollBody_event eventQueue w hEvent size rest element hpipe hfind hmessage
            htest
          by_cases hassoc : element.hAssoc = handleNull
          · -- an element without an owner does not end the loop
            obtain ⟨t, hruns, houtcome⟩ := hagain { w.consume hEvent with pipe := rest } rfl
              (by rw [hbody, hassoc]; rfl)
            refine ⟨t, hruns, houtcome.trans ?_⟩
            rw [pollEvent_setPipe, pollEvent, if_neg hmessage, hfind]
            simp only [htest, if_true, if_pos hassoc]
          · refine ⟨_, .last (fun hgoes => ?_), ?_⟩
            · rw [hbody] at hgoes
              exact hassoc hgoes.1
            · rw [hbody, pollEvent_event hfind hassoc hmessage htest]
              rfl
      · obtain ⟨t, hruns, houtcome⟩ := hagain { w with pipe := rest } rfl
          (pollBody_skip hpipe hstops)
        refine ⟨t, hruns, houtcome.trans ?_⟩
        rw [pollEvent_setPipe, pollEvent_skip hstops]

/-! ## The result -/

/-- The first message that ends the reading stands at the position `k`. -/
structure FirstStop (eventQueue : List EventElement) (w : World) (k : ℕ) (hEvent : Handle) :
    Prop where
  message : w.pipe[k]? = some hEvent
  stops : Stops eventQueue w hEvent
  earlier : ∀ i < k, ∀ other, w.pipe[i]? = some other → ¬ Stops eventQueue w other

/-- The first element of the queue for an event has the owner `hAssoc`. -/
def FirstOwner (eventQueue : List EventElement) (hEvent hAssoc : Handle) : Prop :=
  ∃ before after, eventQueue = before ++ { hEvent := hEvent, hAssoc := hAssoc } :: after ∧
    ∀ element ∈ before, element.hEvent ≠ hEvent

/-- The world after the message at `k` has ended the reading: the messages after it are
left in the pipe, and of the events at most the one it names is changed, by a reset. -/
def stoppedWorld (w : World) (k : ℕ) (hEvent : Handle) : World :=
  { w with
    pipe := w.pipe.drop (k + 1)
    event :=
      if hEvent ≠ handleNull ∧ w.eventGetType hEvent = .auto then
        Function.update w.event hEvent (ofcEventResetImpl (w.event hEvent))
      else w.event }

theorem FirstStop.split {k : ℕ} (hfirst : FirstStop eventQueue w k hEvent) :
    ∃ read, w.pipe = read ++ hEvent :: w.pipe.drop (k + 1) ∧
      ∀ other ∈ read, ¬ Stops eventQueue w other := by
  obtain ⟨hlt, hmessage⟩ := List.getElem?_eq_some_iff.mp hfirst.message
  refine ⟨w.pipe.take k, ?_, ?_⟩
  · rw [← hmessage, ← List.drop_eq_getElem_cons hlt, List.take_append_drop]
  · intro other hmem
    obtain ⟨i, hi, rfl⟩ := List.mem_iff_getElem.mp hmem
    rw [List.length_take] at hi
    rw [List.getElem_take]
    exact hfirst.earlier i (by omega) _ (List.getElem?_eq_getElem (by omega))

theorem firstOwner_of_find {element : EventElement}
    (hfind : eventQueue.find? (·.hEvent = hEvent) = some element) :
    FirstOwner eventQueue hEvent element.hAssoc := by
  obtain ⟨hnamed, before, after, hqueue, hbefore⟩ := List.find?_eq_some_iff_append.mp hfind
  obtain rfl : element.hEvent = hEvent := by simpa using hnamed
  exact ⟨before, after, hqueue, by simpa using hbefore⟩

theorem stoppedWorld_wake (w : World) (k : ℕ) :
    stoppedWorld w k handleNull = { w with pipe := w.pipe.drop (k + 1) } := by
  rw [stoppedWorld, if_neg fun hboth => hboth.1 rfl]

theorem stoppedWorld_event (k : ℕ) (hmessage : hEvent ≠ handleNull) :
    stoppedWorld w k hEvent = { w.consume hEvent with pipe := w.pipe.drop (k + 1) } := by
  unfold stoppedWorld World.consume
  by_cases hauto : w.eventGetType hEvent = .auto
  · rw [if_pos ⟨hmessage, hauto⟩, if_pos hauto]
    rfl
  · rw [if_neg fun hboth => hauto hboth.2, if_neg hauto]

/-- The `do` loop of `PollEvent` ends.  It reads the messages up to the first that is a
wake or names a signalled event of the queue, and returns the owner of that event,
which it resets if it is an auto-reset event; without such a message it drains the
pipe. -/
theorem pollEvent_reads (hassoc : ∀ element ∈ eventQueue, element.hAssoc ≠ handleNull)
    (w : World) :
    (∃ t, While.DoRuns PollGoes (pollBody eventQueue) (.start w) t) ∧
    ∀ t, While.DoRuns PollGoes (pollBody eventQueue) (.start w) t →
      (∀ k hEvent, FirstStop eventQueue w k hEvent →
        (hEvent = handleNull → t.triggeredEvent = handleNull) ∧
        (hEvent ≠ handleNull → FirstOwner eventQueue hEvent t.triggeredEvent) ∧
        t.world = stoppedWorld w k hEvent) ∧
      ((∀ hEvent ∈ w.pipe, ¬ Stops eventQueue w hEvent) →
        t.triggeredEvent = handleNull ∧ t.world = { w with pipe := [] }) := by
  obtain ⟨t, hruns, houtcome⟩ := pollLoop_runs eventQueue w 0
  refine ⟨⟨t, hruns⟩, fun t' hruns' => ?_⟩
  obtain rfl := hruns.unique hruns'
  constructor
  · intro k hEvent hfirst
    obtain ⟨read, hpipe, hread⟩ := hfirst.split
    rw [hpipe, pollEvent_append hread] at houtcome
    by_cases hmessage : hEvent = handleNull
    · subst hmessage
      rw [pollEvent_wake, Prod.mk.injEq] at houtcome
      rw [stoppedWorld_wake]
      exact ⟨fun _ => houtcome.1, fun hmessage => absurd rfl hmessage, houtcome.2⟩
    · obtain ⟨element, hfind, htest⟩ := exists_find_of_stops hfirst.stops hmessage
      have howner := hassoc element (List.mem_of_find?_eq_some hfind)
      rw [pollEvent_event hfind howner hmessage htest, Prod.mk.injEq] at houtcome
      rw [stoppedWorld_event k hmessage, houtcome.1]
      exact ⟨fun hwake => absurd hwake hmessage, fun _ => firstOwner_of_find hfind, houtcome.2⟩
  · intro hdrained
    rw [← List.append_nil w.pipe, pollEvent_append hdrained] at houtcome
    exact Prod.mk.inj houtcome

/-- Behind a message for a handle that is not in the queue stands one for event 1, which
is signalled and an auto-reset event; the wake behind it is left. -/
theorem pollEvent_reads_auto :
    let eventQueue : List EventElement := [{ hEvent := 1, hAssoc := 5 }]
    let w : World := { exampleWorld with pipe := [7, 1, handleNull] }
    ∃ t, While.DoRuns PollGoes (pollBody eventQueue) (.start w) t ∧
      FirstOwner eventQueue 1 t.triggeredEvent ∧ t.world.pipe = [handleNull] ∧
      t.world.event 1 = some { eventType := .auto, signalled := false } := by
  intro eventQueue w
  obtain ⟨⟨t, hruns⟩, hreads⟩ := @pollEvent_reads eventQueue (by decide) w
  have hfirst : FirstStop eventQueue w 1 1 := by
    refine ⟨rfl, by decide, ?_⟩
    intro i hi other hother
    obtain rfl : i = 0 := by omega
    rw [← Option.some.inj hother]
    decide
  obtain ⟨-, howner, hworld⟩ := (hreads t hruns).1 1 1 hfirst
  refine ⟨t, hruns, howner (by decide), ?_, ?_⟩
  · rw [hworld]
    rfl
  · rw [hworld]
    rfl

end OfcDarwin.Waitset
