import OfcDarwin.Waitset.Interleaving

/-!
# No event is lost

A handle of the set that becomes ready while the scheduler is on its way to
`poll`, or in it, is announced by a message in the pipe, or some thread is about
to announce it.  `Watched` is this for the handles that the scan has passed:

* a handle joins them only when it was tested and found not ready;
* it becomes ready by the store of a set or the append of an enqueue, and the
  thread that did it then writes to the pipe, if the event knows its wait set;
* if it does not, the handle has not yet been associated, and the thread that
  adds it will look at it again afterwards.

The purge is no danger, as it comes before the scan has passed anything, and a
full pipe is none, as what counts is that the pipe is not empty.
-/

namespace OfcDarwin.Waitset

open Transition

variable {Thread : Type} {core : Core} {pipeFile : ℤ} {capacity : ℕ}

/-! ## Readiness and announcements -/

/-- The handle is an event that is signalled or a wait queue that is not empty. -/
def Pending (core : Core) (w : World) (h : Handle) : Prop :=
  match core.handleGetType h with
  | .event => ∃ event, w.event h = some event ∧ event.signalled = true
  | .waitQueue => w.waitq h ≠ 0
  | _ => False

theorem pending_iff {w : World} {h : Handle} : Pending core w h ↔
    (core.handleGetType h = .event ∧
      ∃ event, w.event h = some event ∧ event.signalled = true) ∨
    (core.handleGetType h = .waitQueue ∧ w.waitq h ≠ 0) := by
  unfold Pending
  cases core.handleGetType h <;> simp

/-- A change of the world that leaves the event or the queue of a handle alone leaves
its readiness. -/
theorem Pending.of_eq {w w' : World} {h : Handle} (hpending : Pending core w' h)
    (hevent : core.handleGetType h = .event → w'.event h = w.event h)
    (hwaitq : core.handleGetType h = .waitQueue → w'.waitq h = w.waitq h) : Pending core w h := by
  rcases pending_iff.mp hpending with ⟨htype, hsignalled⟩ | ⟨htype, hfull⟩
  · exact pending_iff.mpr (Or.inl ⟨htype, hevent htype ▸ hsignalled⟩)
  · exact pending_iff.mpr (Or.inr ⟨htype, hwaitq htype ▸ hfull⟩)

/-- A reset makes no handle ready, and leaves every event in place. -/
theorem Pending.of_eventReset {w : World} {hEvent h : Handle}
    (hpending : Pending core (w.eventReset hEvent) h) : Pending core w h := by
  by_cases heq : h = hEvent
  · rcases pending_iff.mp hpending with ⟨-, event, hevent, hsignalled⟩ | hfull
    · simp only [heq, World.eventReset, Function.update_self, ofcEventResetImpl,
        Option.map_eq_some_iff] at hevent
      obtain ⟨before, -, rfl⟩ := hevent
      exact absurd hsignalled (by simp)
    · exact pending_iff.mpr (Or.inr hfull)
  · exact hpending.of_eq (fun _ => Function.update_of_ne heq ..) fun _ => rfl

theorem isSome_eventReset {w : World} {hEvent h : Handle} (hsome : (w.event h).isSome) :
    ((w.eventReset hEvent).event h).isSome := by
  unfold World.eventReset
  by_cases heq : h = hEvent
  · subst heq
    simp only [Function.update_self, ofcEventResetImpl, Option.isSome_map]
    exact hsome
  · simp only [Function.update_of_ne heq]
    exact hsome

/-- A thread that will write to the pipe, or will look at `h` again. -/
def Client.Announces (core : Core) (m : Shared Thread) (h : Handle) : Client → Prop
  | .idle | .unlocking _ => False
  | .setting hEvent | .stored hEvent =>
      ownEvent core h = some hEvent ∧ m.associated hEvent = true
  | .associating hEvent | .looking hEvent _ => hEvent = h
  | .signalling _ | .notifying _ => True

/-- A handle that is ready is announced, or about to be. -/
def Announced (core : Core) (s : State Thread) (h : Handle) : Prop :=
  Pending core s.shared.world h →
    s.shared.world.pipe ≠ [] ∨ ∃ t, (s.client t).Announces core s.shared h

/-- The part of the queue that the scan has passed on the way to `poll`. -/
def Scheduler.passed (queue : List Handle) : Scheduler → List Handle
  | .scanning index _ => queue.take index
  | .polling _ => queue
  | _ => []

/-- The invariant of the system. -/
structure Watched (core : Core) (s : State Thread) : Prop where
  present : ∀ h ∈ s.shared.hHandleQueue, h ≠ handleNull
  live : ∀ h, core.handleGetType h = .waitQueue →
    (s.shared.world.event (core.waitqGetEventHandle h)).isSome
  associated : ∀ h ∈ s.shared.hHandleQueue, ∀ hEvent ∈ ownEvent core h,
    s.shared.associated hEvent = true ∨ ∃ t, s.client t = .associating h
  looking : ∀ t hEvent hAssoc, s.client t = .looking hEvent hAssoc →
    addAssoc core hEvent = some hAssoc
  announced : ∀ h ∈ s.scheduler.passed s.shared.hHandleQueue, Announced core s h

theorem Client.Announces.mono {m m' : Shared Thread} {h : Handle}
    (hassociated : ∀ hEvent, m.associated hEvent = true → m'.associated hEvent = true) {pc : Client}
    (hannounces : pc.Announces core m h) : pc.Announces core m' h := by
  cases pc with
  | setting hEvent => exact ⟨hannounces.1, hassociated _ hannounces.2⟩
  | stored hEvent => exact ⟨hannounces.1, hassociated _ hannounces.2⟩
  | _ => exact hannounces

theorem passed_subset {queue : List Handle} {pc : Scheduler} {h : Handle}
    (hmem : h ∈ pc.passed queue) : h ∈ queue := by
  cases pc with
  | scanning index scan => exact List.mem_of_mem_take hmem
  | polling scan => exact hmem
  | _ => exact absurd hmem List.not_mem_nil

theorem passed_of_not_heading {pc : Scheduler} (hpc : ¬ pc.heading) (queue : List Handle) :
    pc.passed queue = [] := by
  cases pc with
  | scanning index scan => exact absurd trivial hpc
  | polling scan => exact absurd trivial hpc
  | _ => rfl

/-- A handle that is linked in behind the scan has not been passed before. -/
theorem passed_append {queue : List Handle} {pc : Scheduler} {h g : Handle}
    (hmem : h ∈ pc.passed (queue ++ [g])) : h ∈ pc.passed queue ∨ h = g := by
  cases pc with
  | scanning index scan =>
      rw [Scheduler.passed, List.take_append, List.mem_append] at hmem
      exact hmem.imp_right fun hmem => List.mem_singleton.mp (List.mem_of_mem_take hmem)
  | polling scan =>
      rw [Scheduler.passed, List.mem_append] at hmem
      exact hmem.imp_right List.mem_singleton.mp
  | _ => exact absurd hmem List.not_mem_nil

theorem ownEvent_of_event {h : Handle} (htype : core.handleGetType h = .event) :
    ownEvent core h = some h := by
  rw [ownEvent, htype]

theorem ownEvent_of_waitQueue {h : Handle} (htype : core.handleGetType h = .waitQueue) :
    ownEvent core h = some (core.waitqGetEventHandle h) := by
  rw [ownEvent, htype]

/-- Only an event or a wait queue has to be announced. -/
theorem Pending.ownEvent_eq {w : World} {h : Handle} (hpending : Pending core w h) :
    ∃ hEvent, ownEvent core h = some hEvent := by
  rcases pending_iff.mp hpending with ⟨htype, -⟩ | ⟨htype, -⟩
  · exact ⟨h, ownEvent_of_event htype⟩
  · exact ⟨_, ownEvent_of_waitQueue htype⟩

/-- The event that a handle which is ready is announced by resolves. -/
theorem Pending.isSome_event {w : World} {h hEvent : Handle} (hpending : Pending core w h)
    (hlive : ∀ h, core.handleGetType h = .waitQueue →
      (w.event (core.waitqGetEventHandle h)).isSome)
    (hown : ownEvent core h = some hEvent) : (w.event hEvent).isSome := by
  rcases pending_iff.mp hpending with ⟨htype, event, hevent, -⟩ | ⟨htype, -⟩
  · rw [ownEvent_of_event htype, Option.some.injEq] at hown
    rw [← hown, hevent]
    rfl
  · rw [ownEvent_of_waitQueue htype, Option.some.injEq] at hown
    rw [← hown]
    exact hlive h htype

/-- The event a handle is announced by is the one that adding it associates. -/
theorem addAssoc_of_ownEvent {h hEvent : Handle} (hown : ownEvent core h = some hEvent) :
    addAssoc core h = some hEvent := by
  unfold ownEvent at hown
  unfold addAssoc
  cases htype : core.handleGetType h <;> rw [htype] at hown
  case event => exact hown
  case waitQueue => exact hown
  all_goals exact absurd hown (by simp)

/-- A handle that is ready when it is added signals the set. -/
theorem Pending.addReady {w : World} {h hAssoc : Handle} (hpending : Pending core w h)
    (hassoc : addAssoc core h = some hAssoc) : addReady core w h hAssoc = true := by
  rcases pending_iff.mp hpending with ⟨htype, event, hevent, hsignalled⟩ | ⟨htype, hfull⟩
  · rw [addAssoc, htype] at hassoc
    cases hassoc
    simp only [Waitset.addReady, htype, World.eventTest, hevent, ofcEventTestImpl, hsignalled]
  · simpa only [Waitset.addReady, htype, World.waitqEmpty, Bool.not_eq_true', beq_eq_false_iff_ne]
      using hfull

/-! ## What a client does to the announcements -/

/-- What a step of a client guarantees: it keeps what the others rely on, and a
handle that is ready after it is announced, or was ready before without relying
on this client, or has not yet been associated. -/
structure Progress (core : Core) (m : Shared Thread) (pc : Client) (m' : Shared Thread)
    (pc' : Client) : Prop where
  associated : ∀ hEvent, m.associated hEvent = true → m'.associated hEvent = true
  live : ∀ hEvent, (m.world.event hEvent).isSome → (m'.world.event hEvent).isSome
  pipe : m.world.pipe ≠ [] → m'.world.pipe ≠ []
  queue : m'.hHandleQueue = m.hHandleQueue ∨ ∃ h, h ≠ handleNull ∧ pc' = .associating h ∧
    m'.hHandleQueue = m.hHandleQueue ++ [h]
  adding : ∀ h, pc = .associating h → ∀ hEvent ∈ ownEvent core h, m'.associated hEvent = true
  looking : ∀ hEvent hAssoc, pc' = .looking hEvent hAssoc → addAssoc core hEvent = some hAssoc
  announced : ∀ h, Pending core m'.world h → m'.world.pipe ≠ [] ∨ pc'.Announces core m' h ∨
    (∃ hEvent ∈ ownEvent core h, m.associated hEvent ≠ true ∧ ∀ g, pc ≠ .associating g) ∨
    Pending core m.world h ∧ ¬ pc.Announces core m h

/-- What one client guarantees is enough for the invariant. -/
theorem Watched.moveClient [DecidableEq Thread] {s : State Thread} (hwatched : Watched core s)
    {t : Thread} {pc : Client} {m : Shared Thread}
    (hprogress : Progress core s.shared (s.client t) m pc) :
    Watched core (s.moveClient t pc m) := by
  have hself : (s.moveClient t pc m).client t = pc := Function.update_self ..
  have hother : ∀ {t'}, t' ≠ t → (s.moveClient t pc m).client t' = s.client t' :=
    fun hne => Function.update_of_ne hne ..
  have hqueue : ∀ h ∈ m.hHandleQueue, h ∈ s.shared.hHandleQueue ∨
      h ≠ handleNull ∧ pc = .associating h := by
    intro h hmem
    rcases hprogress.queue with heq | ⟨g, hpresent, hpc, heq⟩
    · exact Or.inl (heq ▸ hmem)
    · rw [heq, List.mem_append, List.mem_singleton] at hmem
      apply hmem.imp_right
      rintro rfl
      exact ⟨hpresent, hpc⟩
  refine ⟨?_, ?_, ?_, ?_, ?_⟩
  · intro h hmem
    rcases hqueue h hmem with hold | hnew
    · exact hwatched.present h hold
    · exact hnew.1
  · intro h htype
    exact hprogress.live _ (hwatched.live h htype)
  · intro h hmem hEvent hown
    rcases hqueue h hmem with hold | hnew
    · rcases hwatched.associated h hold hEvent hown with hassociated | ⟨t', ht'⟩
      · exact Or.inl (hprogress.associated _ hassociated)
      · by_cases hne : t' = t
        · subst hne
          exact Or.inl (hprogress.adding h ht' hEvent hown)
        · exact Or.inr ⟨t', (hother hne).trans ht'⟩
    · exact Or.inr ⟨t, hself.trans hnew.2⟩
  · intro t' hEvent hAssoc hpc
    by_cases hne : t' = t
    · subst hne
      exact hprogress.looking hEvent hAssoc (hself.symm.trans hpc)
    · exact hwatched.looking t' hEvent hAssoc ((hother hne).symm.trans hpc)
  · intro h hmem hpending
    have hold : h ∈ s.scheduler.passed s.shared.hHandleQueue ∨ pc = .associating h := by
      rcases hprogress.queue with heq | ⟨g, -, hpc, heq⟩
      · exact Or.inl (heq ▸ hmem)
      · apply (passed_append (heq ▸ hmem)).imp_right
        rintro rfl
        exact hpc
    rcases hold with hold | hnew
    swap
    · exact Or.inr ⟨t, by rw [hself, hnew]; rfl⟩
    rcases hprogress.announced h hpending with hpipe | hannounces |
      ⟨hEvent, hown, hassociated, hpc⟩ | ⟨hpending', hsilent⟩
    · exact Or.inl hpipe
    · exact Or.inr ⟨t, by rw [hself]; exact hannounces⟩
    · -- the event is not associated, so the thread that adds the handle is still at work
      rcases hwatched.associated h (passed_subset hold) hEvent hown with htrue | ⟨t', ht'⟩
      · exact absurd htrue hassociated
      · have hne : t' ≠ t := by
          rintro rfl
          exact hpc h ht'
        exact Or.inr ⟨t', by rw [hother hne, ht']; rfl⟩
    · rcases hwatched.announced h hold hpending' with hpipe | ⟨t', hannounces⟩
      · exact Or.inl (hprogress.pipe hpipe)
      · have hne : t' ≠ t := by
          rintro rfl
          exact hsilent hannounces
        exact Or.inr ⟨t', by rw [hother hne]; exact hannounces.mono hprogress.associated⟩

/-! ## The steps of a client -/

section Client

variable {m m' : Shared Thread} {pc pc' : Client} {t : Thread}

/-- A step that leaves the readiness of every handle as it was, or clears it. -/
theorem Progress.of_pending (hassociated : m'.associated = m.associated)
    (hlive : ∀ hEvent, (m.world.event hEvent).isSome → (m'.world.event hEvent).isSome)
    (hpipe : m'.world.pipe = m.world.pipe) (hqueue : m'.hHandleQueue = m.hHandleQueue)
    (hpc : ∀ h, pc ≠ .associating h) (hpc' : ∀ hEvent hAssoc, pc' ≠ .looking hEvent hAssoc)
    (hpending : ∀ h, Pending core m'.world h → Pending core m.world h)
    (hsilent : ∀ h, Pending core m.world h → pc.Announces core m h → pc'.Announces core m' h) :
    Progress core m pc m' pc' := by
  refine ⟨fun _ h => hassociated ▸ h, hlive, fun h => hpipe ▸ h, Or.inl hqueue,
    fun h heq => absurd heq (hpc h), fun _ _ heq => absurd heq (hpc' _ _), fun h hready => ?_⟩
  have hbefore := hpending h hready
  by_cases hannounces : pc.Announces core m h
  · exact Or.inr (Or.inl (hsilent h hbefore hannounces))
  · exact Or.inr (Or.inr (Or.inr ⟨hbefore, hannounces⟩))

/-- A write announces everything. -/
theorem Progress.of_signal (hcapacity : 1 ≤ capacity) (hEvent : Handle)
    (hpc : ∀ h, pc ≠ .associating h) (hpc' : ∀ hEvent hAssoc, pc' ≠ .looking hEvent hAssoc) :
    Progress core m pc (m.signal capacity hEvent) pc' := by
  have hne := m.signal_pipe_ne_nil hcapacity hEvent
  obtain ⟨pipe, heq⟩ := m.signal_eq_setPipe capacity hEvent
  rw [heq] at hne ⊢
  exact ⟨fun _ h => h, fun _ h => h, fun _ => hne, Or.inl rfl,
    fun h heq => absurd heq (hpc h), fun _ _ heq => absurd heq (hpc' _ _),
    fun _ _ => Or.inl hne⟩

/-- The store of a set: whoever it makes ready, it announces, unless its event
does not know the wait set. -/
theorem store_progress [DecidableEq Thread] {hEvent : Handle} {event : DarwinEvent} :
    Progress core m (.setting hEvent) (m.store t hEvent event) (.stored hEvent) := by
  refine ⟨fun _ h => h, ?_, fun h => h, Or.inl rfl, nofun, nofun, ?_⟩
  · intro g hsome
    rw [Shared.store_event]
    by_cases hg : g = hEvent
    · rw [hg, Function.update_self]
      rfl
    · rwa [Function.update_of_ne hg]
  · intro h hready
    obtain ⟨own, hown⟩ := hready.ownEvent_eq
    by_cases heq : own = hEvent
    · rw [heq] at hown
      by_cases hassociated : m.associated hEvent = true
      · exact Or.inr (Or.inl ⟨hown, hassociated⟩)
      · exact Or.inr (Or.inr (Or.inl ⟨hEvent, hown, hassociated, nofun⟩))
    · refine Or.inr (Or.inr (Or.inr ⟨hready.of_eq (fun htype => ?_) fun _ => rfl, ?_⟩))
      · rw [ownEvent_of_event htype, Option.some.injEq] at hown
        rw [Shared.store_event, Function.update_of_ne (hown ▸ heq)]
      · rintro ⟨hown', -⟩
        exact heq (Option.some.inj (hown.symm.trans hown'))

/-- A handle that has been associated is looked at next. -/
theorem associate_progress {hEvent hAssoc : Handle} (hsome : addAssoc core hEvent = some hAssoc) :
    Progress core m (.associating hEvent) (m.setApp hAssoc) (.looking hEvent hAssoc) := by
  refine ⟨?_, fun _ h => h, fun h => h, Or.inl rfl, ?_, ?_, ?_⟩
  · intro hEvent' hassociated
    rw [Shared.setApp_associated]
    by_cases heq : hEvent' = hAssoc
    · rw [heq, Function.update_self]
    · rwa [Function.update_of_ne heq]
  · rintro h heq hEvent' hown
    cases heq
    rw [addAssoc_of_ownEvent hown, Option.some.injEq] at hsome
    rw [Shared.setApp_associated, hsome, Function.update_self]
  · rintro hEvent' hAssoc' heq
    cases heq
    exact hsome
  · intro h hready
    by_cases heq : hEvent = h
    · exact Or.inr (Or.inl heq)
    · exact Or.inr (Or.inr (Or.inr ⟨hready, heq⟩))

/-- A handle without an event is not associated, and need not be announced. -/
theorem skip_progress {hEvent : Handle} (hnone : addAssoc core hEvent = none) :
    Progress core m (.associating hEvent) m .idle := by
  have hown : ∀ hEvent', ownEvent core hEvent ≠ some hEvent' := by
    intro hEvent' hown
    rw [addAssoc_of_ownEvent hown] at hnone
    cases hnone
  refine ⟨fun _ h => h, fun _ h => h, fun h => h, Or.inl rfl, ?_, nofun, ?_⟩
  · rintro h heq hEvent' hown'
    cases heq
    exact absurd hown' (hown hEvent')
  · intro h hready
    refine Or.inr (Or.inr (Or.inr ⟨hready, ?_⟩))
    rintro rfl
    obtain ⟨hEvent', hown'⟩ := hready.ownEvent_eq
    exact hown hEvent' hown'

/-- What an operation does from its call on. -/
theorem start_progress {op : Op} (hstart : op.start m core = some (pc', m')) :
    Progress core m .idle m' pc' := by
  cases op with
  | set hEvent =>
      obtain ⟨rfl, rfl⟩ := Prod.mk.inj (Option.some.inj hstart)
      exact .of_pending rfl (fun _ h => h) rfl rfl nofun nofun (fun _ h => h) nofun
  | reset hEvent =>
      rw [Op.start, Option.ite_none_right_eq_some] at hstart
      obtain ⟨rfl, rfl⟩ := Prod.mk.inj (Option.some.inj hstart.2)
      exact .of_pending rfl (fun _ h => isSome_eventReset h) rfl rfl nofun nofun
        (fun _ h => h.of_eventReset) nofun
  | enqueue hWaitQ =>
      obtain ⟨rfl, rfl⟩ := Prod.mk.inj (Option.some.inj hstart)
      refine ⟨fun _ h => h, fun _ h => h, fun h => h, Or.inl rfl, nofun, nofun, ?_⟩
      intro h hready
      by_cases heq : core.handleGetType h = .waitQueue ∧ h = hWaitQ
      · obtain ⟨htype, rfl⟩ := heq
        have hown := ownEvent_of_waitQueue htype
        by_cases hassociated : m.associated (core.waitqGetEventHandle h) = true
        · exact Or.inr (Or.inl ⟨hown, hassociated⟩)
        · exact Or.inr (Or.inr (Or.inl ⟨_, hown, hassociated, nofun⟩))
      · refine Or.inr (Or.inr (Or.inr ⟨hready.of_eq (fun _ => rfl) fun htype => ?_, nofun⟩))
        rw [Shared.setWaitq_waitq, Function.update_of_ne fun h => heq ⟨htype, h⟩]
  | dequeue hWaitQ =>
      obtain ⟨rfl, rfl⟩ := Prod.mk.inj (Option.some.inj hstart)
      refine .of_pending rfl (fun _ h => h) rfl rfl nofun nofun ?_ nofun
      intro h hready
      by_cases heq : h = hWaitQ
      · rcases pending_iff.mp hready with hsignalled | ⟨htype, hfull⟩
        · exact pending_iff.mpr (Or.inl hsignalled)
        · refine pending_iff.mpr (Or.inr ⟨htype, fun hempty => hfull ?_⟩)
          rw [Shared.setWaitq_waitq, heq, Function.update_self, ← heq, hempty]
      · refine hready.of_eq (fun _ => rfl) fun _ => ?_
        rw [Shared.setWaitq_waitq, Function.update_of_ne heq]
  | add hEvent =>
      rw [Op.start, Option.ite_none_left_eq_some] at hstart
      obtain ⟨hpresent, hstart⟩ := hstart
      obtain ⟨rfl, rfl⟩ := Prod.mk.inj (Option.some.inj hstart)
      refine ⟨fun _ h => h, fun _ h => h, fun h => h, Or.inr ⟨hEvent, hpresent, rfl, rfl⟩, nofun,
        nofun, fun h hready => ?_⟩
      exact Or.inr (Or.inr (Or.inr ⟨hready, nofun⟩))

/-- A step inside an operation.  Wait queues need their event for the set of an
enqueue to arrive anywhere. -/
theorem next_progress [DecidableEq Thread] (hcapacity : 1 ≤ capacity)
    (hlive : ∀ h, core.handleGetType h = .waitQueue →
      (m.world.event (core.waitqGetEventHandle h)).isSome)
    (hlooking : ∀ hEvent hAssoc, pc = .looking hEvent hAssoc →
      addAssoc core hEvent = some hAssoc)
    (hnext : pc.next core capacity t m = some (pc', m')) : Progress core m pc m' pc' := by
  cases pc with
  | idle => exact absurd hnext (by simp [Client.next])
  | setting hEvent =>
      rw [Client.next] at hnext
      split at hnext
      · rename_i hevent
        obtain ⟨rfl, rfl⟩ := Prod.mk.inj (Option.some.inj hnext)
        refine .of_pending rfl (fun _ h => h) rfl rfl nofun nofun (fun _ h => h) ?_
        rintro h hready ⟨hown, -⟩
        have hsome := hready.isSome_event hlive hown
        rw [hevent] at hsome
        cases hsome
      · rename_i event hevent
        rw [Option.ite_none_right_eq_some] at hnext
        obtain ⟨rfl, rfl⟩ := Prod.mk.inj (Option.some.inj hnext.2)
        exact store_progress
  | stored hEvent =>
      obtain ⟨rfl, rfl⟩ := Prod.mk.inj (Option.some.inj hnext)
      refine .of_pending rfl (fun _ h => h) rfl rfl nofun (fun g a => ?_) (fun _ h => h) ?_
      · split <;> simp
      · rintro h - ⟨-, hassociated⟩
        rw [if_pos hassociated]
        trivial
  | signalling hEvent =>
      obtain ⟨rfl, rfl⟩ := Prod.mk.inj (Option.some.inj hnext)
      exact .of_signal hcapacity hEvent nofun nofun
  | unlocking hEvent =>
      obtain ⟨rfl, rfl⟩ := Prod.mk.inj (Option.some.inj hnext)
      exact .of_pending rfl (fun _ h => h) rfl rfl nofun nofun (fun _ h => h) nofun
  | associating hEvent =>
      rw [Client.next] at hnext
      split at hnext
      · rename_i hnone
        obtain ⟨rfl, rfl⟩ := Prod.mk.inj (Option.some.inj hnext)
        exact skip_progress hnone
      · rename_i hAssoc hsome
        obtain ⟨rfl, rfl⟩ := Prod.mk.inj (Option.some.inj hnext)
        exact associate_progress hsome
  | looking hEvent hAssoc =>
      rw [Client.next, Option.ite_none_right_eq_some] at hnext
      obtain ⟨rfl, rfl⟩ := Prod.mk.inj (Option.some.inj hnext.2)
      refine .of_pending rfl (fun _ h => h) rfl rfl nofun (fun g a => ?_) (fun _ h => h) ?_
      · split <;> simp
      · rintro h hready rfl
        rw [if_pos (hready.addReady (hlooking hEvent hAssoc rfl))]
        trivial
  | notifying hAssoc =>
      obtain ⟨rfl, rfl⟩ := Prod.mk.inj (Option.some.inj hnext)
      exact .of_signal hcapacity hAssoc nofun nofun

end Client

/-! ## The steps of the scheduler -/

/-- The scan finds a handle that is ready. -/
theorem Pending.inspect_eq {w : World} {h : Handle} (hpending : Pending core w h) :
    ∃ consumed, inspect core w h = .triggered consumed := by
  rcases pending_iff.mp hpending with ⟨htype, event, hevent, hsignalled⟩ | ⟨htype, hfull⟩
  · have htest : w.eventTest h = true := by
      rw [World.eventTest, hevent, ofcEventTestImpl, hsignalled]
    rw [inspect, htype]
    exact ⟨true, if_pos htest⟩
  · have hready : (!w.waitqEmpty h) = true := by simpa [World.waitqEmpty] using hfull
    rw [inspect, htype]
    exact ⟨false, if_pos hready⟩

section Scheduler

variable {m m' : Shared Thread} {pc pc' : Scheduler} {reason : PollReturn}

/-- The scan goes on only past a handle that is not ready. -/
theorem round_cases (index : ℕ) (scan : Scan) (h : Handle) (queue : List Handle) :
    (Scheduler.round core m index scan h).passed queue = [] ∨
      ¬ Pending core m.world h ∧
        ∃ scan', Scheduler.round core m index scan h = .scanning (index + 1) scan' := by
  by_cases hpending : Pending core m.world h
  · obtain ⟨consumed, hfinding⟩ := hpending.inspect_eq
    rw [Scheduler.round, hfinding]
    cases consumed with
    | false => exact Or.inl rfl
    | true =>
        apply Or.inl
        dsimp only
        split <;> rfl
  · rw [Scheduler.round]
    split
    · apply Or.inl
      split <;> rfl
    · exact Or.inl rfl
    · exact Or.inr ⟨hpending, _, rfl⟩

/-- Handles join those that the scan has passed only when they are not ready. -/
theorem next_passed (hpresent : ∀ h ∈ m.hHandleQueue, h ≠ handleNull)
    (hnext : pc.next core pipeFile reason m = some (pc', m')) :
    pc'.passed m.hHandleQueue = [] ∨ m' = m ∧ ∀ h ∈ pc'.passed m.hHandleQueue,
      h ∈ pc.passed m.hHandleQueue ∨ ¬ Pending core m.world h := by
  cases Scheduler.moved hnext with
  | register => exact Or.inl rfl
  | check =>
      apply Or.inl
      split <;> rfl
  | discard rest => exact Or.inl rfl
  | purged scan => exact Or.inl rfl
  | @scanned index scan hend =>
      refine Or.inr ⟨rfl, fun h hmem => Or.inl ?_⟩
      -- no handle of the queue is null, so the scan has come to its end
      have hnone : m.hHandleQueue[index]? = none := by
        cases hget : m.hHandleQueue[index]? with
        | none => rfl
        | some g => exact absurd (hend g hget) (hpresent g (List.mem_of_getElem? hget))
      rw [Scheduler.passed, List.take_of_length_le (List.getElem?_eq_none_iff.mp hnone)]
      exact hmem
  | @inspected index scan h hget _ =>
      rcases round_cases index scan h m.hHandleQueue with hempty | ⟨hnot, scan', heq⟩
      · exact Or.inl hempty
      · refine Or.inr ⟨rfl, fun g hmem => ?_⟩
        rw [heq, Scheduler.passed, List.take_add_one, hget, List.mem_append] at hmem
        refine hmem.imp_right fun hmem => ?_
        rw [List.mem_singleton.mp hmem]
        exact hnot
  | elsewhere _ hpc' _ => exact Or.inl (passed_of_not_heading hpc' _)

/-- What the scheduler leaves as it is. -/
theorem next_frame (hnext : pc.next core pipeFile reason m = some (pc', m')) :
    m'.hHandleQueue = m.hHandleQueue ∧ m'.associated = m.associated ∧
      ∀ hEvent, (m.world.event hEvent).isSome → (m'.world.event hEvent).isSome := by
  rcases scheduler_shared hnext with rfl | ⟨-, rfl⟩ | ⟨rest, rfl⟩ | ⟨hEvent, rfl⟩
  · exact ⟨rfl, rfl, fun _ h => h⟩
  · exact ⟨rfl, rfl, fun _ h => h⟩
  · exact ⟨rfl, rfl, fun _ h => h⟩
  · exact ⟨rfl, rfl, fun _ h => isSome_eventReset h⟩

end Scheduler

theorem Watched.moveScheduler {s : State Thread} (hwatched : Watched core s)
    {reason : PollReturn} {pc : Scheduler} {m : Shared Thread}
    (hnext : s.scheduler.next core pipeFile reason s.shared = some (pc, m)) :
    Watched core (s.moveScheduler pc m) := by
  obtain ⟨hqueue, hassociated, hlive⟩ := next_frame hnext
  refine ⟨?_, ?_, ?_, hwatched.looking, ?_⟩
  · intro h hmem
    exact hwatched.present h (hqueue ▸ hmem)
  · intro h htype
    exact hlive _ (hwatched.live h htype)
  · intro h hmem hEvent hown
    have hold := hwatched.associated h (hqueue ▸ hmem) hEvent hown
    rwa [← hassociated] at hold
  · intro h hmem
    replace hmem : h ∈ pc.passed s.shared.hHandleQueue := hqueue ▸ hmem
    rcases next_passed hwatched.present hnext with hempty | ⟨rfl, hpassed⟩
    · rw [hempty] at hmem
      exact absurd hmem List.not_mem_nil
    · rcases hpassed h hmem with hold | hnot
      · exact hwatched.announced h hold
      · exact fun hpending => absurd hpending hnot

/-! ## The invariant -/

/-- A step that touches neither the clients nor what the invariant is about. -/
theorem Watched.of_eq {s u : State Thread} (hwatched : Watched core s)
    (hscheduler : u.scheduler = s.scheduler) (hclient : u.client = s.client)
    (hqueue : u.shared.hHandleQueue = s.shared.hHandleQueue)
    (hassociated : u.shared.associated = s.shared.associated)
    (hevent : u.shared.world.event = s.shared.world.event)
    (hwaitq : u.shared.world.waitq = s.shared.world.waitq)
    (hpipe : s.shared.world.pipe ≠ [] → u.shared.world.pipe ≠ []) : Watched core u := by
  obtain ⟨hpresent, hlive, hassociation, hlooking, hannounced⟩ := hwatched
  rw [← hqueue] at hpresent hassociation hannounced
  rw [← hevent] at hlive
  rw [← hassociated, ← hclient] at hassociation
  rw [← hclient] at hlooking
  rw [← hscheduler] at hannounced
  refine ⟨hpresent, hlive, hassociation, hlooking, fun h hmem hpending => ?_⟩
  have hbefore : Pending core s.shared.world h :=
    hpending.of_eq (fun _ => by rw [hevent]) fun _ => by rw [hwaitq]
  apply (hannounced h hmem hbefore).imp hpipe
  rintro ⟨t, hannounces⟩
  exact ⟨t, by rw [hclient]; exact hannounces.mono fun _ hold => by rw [hassociated]; exact hold⟩

theorem initial_watched {s : State Thread} (hinitial : Initial core s) : Watched core s := by
  refine ⟨hinitial.present, hinitial.live, ?_, ?_, ?_⟩
  · intro h hmem hEvent hown
    exact Or.inl (hinitial.associated h hmem hEvent hown)
  · intro t hEvent hAssoc hpc
    rw [hinitial.client t] at hpc
    exact absurd hpc nofun
  · intro h hmem
    rw [hinitial.scheduler] at hmem
    exact absurd hmem List.not_mem_nil

theorem step_watched [DecidableEq Thread] (hcapacity : 1 ≤ capacity) (s : State Thread)
    (a : Action Thread) (u : State Thread) (hwatched : Watched core s)
    (hstep : step core pipeFile capacity s a = some u) : Watched core u := by
  cases a with
  | scheduler reason =>
      obtain ⟨pc, m, hnext, rfl⟩ := scheduler_inv hstep
      exact hwatched.moveScheduler hnext
  | call t op =>
      obtain ⟨hidle, pc, m, hstart, rfl⟩ := call_inv hstep
      exact hwatched.moveClient (hidle ▸ start_progress hstart)
  | client t =>
      obtain ⟨pc, m, hnext, rfl⟩ := client_inv hstep
      exact hwatched.moveClient
        (next_progress hcapacity hwatched.live (fun _ _ => hwatched.looking t _ _) hnext)
  | deleter =>
      obtain ⟨pc, m, hnext, rfl⟩ := deleter_inv hstep
      cases hpc : s.deleter <;> rw [hpc] at hnext
      case idle =>
        obtain ⟨-, rfl⟩ := Prod.mk.inj (Option.some.inj hnext)
        exact hwatched.of_eq rfl rfl rfl rfl rfl rfl id
      case flagged =>
        obtain ⟨-, rfl⟩ := Prod.mk.inj (Option.some.inj hnext)
        exact hwatched.of_eq rfl rfl rfl rfl rfl rfl id
      case waking =>
        obtain ⟨-, rfl⟩ := Prod.mk.inj (Option.some.inj hnext)
        have hne := s.shared.signal_pipe_ne_nil hcapacity handleNull
        obtain ⟨pipe, heq⟩ := s.shared.signal_eq_setPipe capacity handleNull
        rw [heq] at hne ⊢
        exact hwatched.of_eq rfl rfl rfl rfl rfl rfl fun _ => hne
      case done => exact absurd hnext (by simp [Deleter.next])
  | environment waitTime socket =>
      rw [environment_inv hstep]
      exact hwatched.of_eq rfl rfl rfl rfl rfl rfl id

/-- No event is lost: with a pipe of at least one message and no operation half
way through, the scheduler is not blocked in `poll` over an empty pipe while an
event of the set is signalled or one of its wait queues is not empty. -/
theorem no_lost_event [DecidableEq Thread] (hcapacity : 1 ≤ capacity) {s u : State Thread}
    {actions : List (Action Thread)} (hinitial : Initial core s)
    (hrun : run (step core pipeFile capacity) s actions = some u) :
    ¬ ((∃ scan, u.scheduler = .polling scan) ∧ u.shared.world.pipe = [] ∧
      (∀ t, u.client t = .idle) ∧
      ∃ h ∈ u.shared.hHandleQueue, Pending core u.shared.world h) := by
  have hwatched : Watched core u :=
    run_induction (step_watched hcapacity) (initial_watched hinitial) hrun
  rintro ⟨⟨scan, hscheduler⟩, hpipe, hidle, h, hmem, hpending⟩
  have hpassed : h ∈ u.scheduler.passed u.shared.hHandleQueue := by
    rw [hscheduler]
    exact hmem
  rcases hwatched.announced h hpassed hpending with hne | ⟨t, hannounces⟩
  · exact hne hpipe
  · rw [hidle t] at hannounces
    exact hannounces

/-! ## An example -/

/-- The event 1 is in the set and not signalled, and nobody does anything. -/
def exampleState : State Unit :=
  { shared :=
      { world := (exampleWorld.eventReset 1).purge
        hHandleQueue := [1]
        associated := fun _ => true
        mutex := fun _ => none
        deleteMe := false
        registered := false }
    scheduler := .starting
    client := fun _ => .idle
    deleter := .idle }

theorem exampleState_initial : Initial exampleCore exampleState := by
  refine ⟨?_, ?_, fun _ _ _ _ => rfl, fun _ => rfl, rfl, fun _ => rfl, rfl, rfl⟩
  · intro h hmem
    rw [List.mem_singleton.mp hmem]
    decide
  · intro h htype
    unfold exampleCore at htype
    simp only at htype
    split_ifs at htype

/-- The scheduler goes to `poll`, and the event is set. -/
def exampleActions : List (Action Unit) :=
  [.scheduler .other, .scheduler .other, .scheduler .other, .scheduler .other, .scheduler .other,
    .call () (.set 1), .client (), .client (), .client (), .client ()]

theorem no_lost_event_of_set :
    ∃ u, run (step exampleCore 9 1) exampleState exampleActions = some u ∧
      ¬ ((∃ scan, u.scheduler = .polling scan) ∧ u.shared.world.pipe = [] ∧
        (∀ t, u.client t = .idle) ∧
        ∃ h ∈ u.shared.hHandleQueue, Pending exampleCore u.shared.world h) := by
  obtain ⟨u, hrun⟩ : ∃ u, run (step exampleCore 9 1) exampleState exampleActions = some u :=
    ⟨_, rfl⟩
  exact ⟨u, hrun, no_lost_event (le_refl 1) exampleState_initial hrun⟩

end OfcDarwin.Waitset
