import OfcDarwin.Waitset.Scan

/-!
# The switches over the type of a handle

Besides the scan, three functions of `waitset_darwin.c` switch over the type of a
handle: `ofc_waitset_set_assoc_impl` and `ofc_waitset_add_impl`, which tell the core
library which event stands for it, and `ofc_waitset_debug`, which prints whether it is
ready.  Each of them repeats the tests of the scan by hand.

For events, wait queues and the overlapped operations of the Darwin file system the
four agree.  For those of the SMB file system they do not: the scan looks at a wait
queue, the two others take another event, and the debug output is the wrong way
round (`fssmb_switches`).  So a set agrees with itself exactly when it has no
such handle (`agrees_iff`).
-/

namespace OfcDarwin.Waitset

/-! ## Joining a set -/

/-- The calls into the core library and into the set. -/
inductive SetCall where
  /-- `ofc_handle_set_app(hAssoc, hApp, hSet)`. -/
  | setApp (hAssoc hApp hSet : Handle)
  /-- `ofc_waitset_signal_impl(hSet, hAssoc)`. -/
  | signal (hSet hAssoc : Handle)
deriving DecidableEq, Repr

/-- `ofc_waitset_set_assoc_impl`. -/
def ofcWaitsetSetAssocImpl (core : Core) (hEvent hApp hSet : Handle) : List SetCall :=
  match core.handleGetType hEvent with
  | .waitQueue => [.setApp (core.waitqGetEventHandle hEvent) hApp hSet]
  | .fsdarwinOverlapped =>
      if core.fsDarwin then [.setApp (core.fsDarwinGetOverlappedEvent hEvent) hApp hSet] else []
  | .fssmbOverlapped => [.setApp (core.fileGetOverlappedEvent hEvent) hApp hSet]
  | _ => []

/-- `ofc_waitset_add_impl`. -/
def ofcWaitsetAddImpl (core : Core) (w : World) (hSet hApp hEvent : Handle) : List SetCall :=
  match core.handleGetType hEvent with
  | .waitQueue =>
      let hAssoc := core.waitqGetEventHandle hEvent
      .setApp hAssoc hApp hSet :: if !w.waitqEmpty hEvent then [.signal hSet hAssoc] else []
  | .event =>
      .setApp hEvent hApp hSet :: if w.eventTest hEvent then [.signal hSet hEvent] else []
  | .fsdarwinOverlapped =>
      if core.fsDarwin then
        let hAssoc := core.fsDarwinGetOverlappedEvent hEvent
        .setApp hAssoc hApp hSet :: if w.eventTest hAssoc then [.signal hSet hAssoc] else []
      else []
  | .fssmbOverlapped =>
      let hAssoc := core.fileGetOverlappedEvent hEvent
      .setApp hAssoc hApp hSet :: if w.eventTest hAssoc then [.signal hSet hAssoc] else []
  | _ => []

/-- The calls are those that the threads of `Waitset/Interleaving.lean` make. -/
theorem ofcWaitsetAddImpl_eq (core : Core) (w : World) (hSet hApp hEvent : Handle) :
    ofcWaitsetAddImpl core w hSet hApp hEvent =
      match addAssoc core hEvent with
      | none => []
      | some hAssoc =>
          .setApp hAssoc hApp hSet ::
            if addReady core w hEvent hAssoc then [.signal hSet hAssoc] else [] := by
  unfold ofcWaitsetAddImpl addAssoc addReady
  cases core.handleGetType hEvent with
  | fsdarwinOverlapped => cases core.fsDarwin <;> rfl
  | _ => rfl

/-! ## The debug output -/

/-- What `ofc_waitset_debug` prints for a handle. -/
def debugLine (core : Core) (w : World) (hEventHandle : Handle) : Option String :=
  match core.handleGetType hEventHandle with
  | .waitQueue =>
      some ("Wait Queue: " ++ (if w.waitqEmpty hEventHandle then "empty" else "not empty") ++ "\n")
  | .file =>
      if core.fsDarwin ∧ core.fileGetFsType hEventHandle = .darwin then some "Darwin File\n"
      else none
  | .socket => some "Darwin Socket\n"
  | .fsdarwinOverlapped =>
      if core.fsDarwin then
        let hEvent := core.fsDarwinGetOverlappedEvent hEventHandle
        some ("Darwin Overlapped: " ++
          (if w.eventTest hEvent then "triggered" else "not triggered") ++ "\n")
      else none
  | .fssmbOverlapped =>
      let hWaitQ := core.fileGetOverlappedWaitQ hEventHandle
      some ("CIFS Overlapped: " ++
        (if w.waitqEmpty hWaitQ then "triggered" else "not triggered") ++ "\n")
  | .event =>
      some ("Event: " ++
        (if w.eventTest hEventHandle then "triggered" else "not triggered") ++ "\n")
  | .timer => some ("Timer: " ++ toString (w.waitTime hEventHandle) ++ " msec\n")
  | _ => none

/-- `ofc_waitset_debug`: the lines it prints. -/
def ofcWaitsetDebug (core : Core) (waitSet : Option WaitSet) (w : World) : List String :=
  match waitSet with
  | none => []
  | some waitSet => (members waitSet.hHandleQueue).filterMap (debugLine core w)

/-- The lines that call a handle triggered or not empty. -/
def readyLines : List String :=
  ["Wait Queue: not empty\n", "Darwin Overlapped: triggered\n", "CIFS Overlapped: triggered\n",
    "Event: triggered\n"]

/-! ## Agreement -/

/-- The kinds of handles that an event stands for. -/
def Backed : HandleType → Prop
  | .event | .waitQueue | .fsdarwinOverlapped | .fssmbOverlapped => True
  | _ => False

/-- The four switches agree on a handle: it is triggered for the scan, signalled when it
joins the set and reported as ready in the same states; and an event that is
associated with the set for it is the one under which a scan that passes it records
it. -/
structure Agrees (core : Core) (w : World) (hSet hApp h : Handle) : Prop where
  signalled : (inspect core w h).isTriggered = true ↔
    ∃ hAssoc, .signal hSet hAssoc ∈ ofcWaitsetAddImpl core w hSet hApp h
  reported : (inspect core w h).isTriggered = true ↔
    ∃ line ∈ readyLines, debugLine core w h = some line
  associated : ∀ hAssoc, .setApp hAssoc hApp hSet ∈ ofcWaitsetAddImpl core w hSet hApp h ∨
      .setApp hAssoc hApp hSet ∈ ofcWaitsetSetAssocImpl core h hApp hSet →
    ∀ later : World, (inspect core later h).isTriggered = false →
      (inspect core later h).hEvent? = some hAssoc

variable {core : Core} {w : World} {hSet hApp h : Handle}

/-- What the switches make of a handle that is ready when `ready` holds, and for which
the event `hEvent` stands. -/
structure Switches (core : Core) (w : World) (hSet hApp h hEvent : Handle) (ready : World → Bool)
    (label yes no : String) : Prop where
  scan : ∀ later : World,
    (inspect core later h).isTriggered = ready later ∧
      (ready later = false → (inspect core later h).hEvent? = some hEvent)
  add : ofcWaitsetAddImpl core w hSet hApp h =
    .setApp hEvent hApp hSet :: if ready w then [.signal hSet hEvent] else []
  assoc : ∀ hAssoc, .setApp hAssoc hApp hSet ∈ ofcWaitsetSetAssocImpl core h hApp hSet →
    hAssoc = hEvent
  debug : debugLine core w h = some (label ++ (if ready w then yes else no) ++ "\n")

/-- Switches with one test and one event agree. -/
theorem Switches.agrees {hEvent : Handle} {ready : World → Bool} {label yes no : String}
    (hswitches : Switches core w hSet hApp h hEvent ready label yes no)
    (hyes : label ++ yes ++ "\n" ∈ readyLines) (hno : label ++ no ++ "\n" ∉ readyLines) :
    Agrees core w hSet hApp h := by
  obtain ⟨hscan, hadd, hassoc, hdebug⟩ := hswitches
  refine ⟨?_, ?_, ?_⟩
  · rw [(hscan w).1, hadd]
    cases ready w <;> simp
  · rw [(hscan w).1, hdebug]
    cases ready w with
    | false =>
        refine iff_of_false (by simp) ?_
        rintro ⟨line, hmem, hline⟩
        exact hno (Option.some.inj hline ▸ hmem)
    | true => exact iff_of_true rfl ⟨_, hyes, rfl⟩
  · intro hAssoc hcalls later hquiet
    have hsame : hAssoc = hEvent := by
      rcases hcalls with hcall | hcall
      · rw [hadd] at hcall
        cases hready : ready w <;> simpa [hready] using hcall
      · exact hassoc hAssoc hcall
    rw [hsame]
    exact (hscan later).2 ((hscan later).1.symm.trans hquiet)

/-! ## The kinds of handles -/

theorem agrees_event (htype : core.handleGetType h = .event) : Agrees core w hSet hApp h := by
  have hswitches : Switches core w hSet hApp h h (fun later => later.eventTest h) "Event: "
      "triggered" "not triggered" := by
    constructor
    · intro later
      rw [inspect, htype]
      cases later.eventTest h <;> simp [Finding.isTriggered, Finding.hEvent?]
    · rw [ofcWaitsetAddImpl, htype]
    · intro hAssoc hcall
      rw [ofcWaitsetSetAssocImpl, htype] at hcall
      cases hcall
    · rw [debugLine, htype]
  exact hswitches.agrees (by decide) (by decide)

theorem agrees_waitQueue (htype : core.handleGetType h = .waitQueue) :
    Agrees core w hSet hApp h := by
  have hswitches : Switches core w hSet hApp h (core.waitqGetEventHandle h)
      (fun later => !later.waitqEmpty h) "Wait Queue: " "not empty" "empty" := by
    constructor
    · intro later
      rw [inspect, htype]
      cases later.waitqEmpty h <;> simp [Finding.isTriggered, Finding.hEvent?]
    · rw [ofcWaitsetAddImpl, htype]
    · intro hAssoc hcall
      rw [ofcWaitsetSetAssocImpl, htype] at hcall
      exact (SetCall.setApp.inj (List.mem_singleton.mp hcall)).1
    · rw [debugLine, htype]
      cases w.waitqEmpty h <;> rfl
  exact hswitches.agrees (by decide) (by decide)

/-- Without `OFC_FS_DARWIN` all four pass the handle over. -/
theorem agrees_fsdarwinOverlapped (htype : core.handleGetType h = .fsdarwinOverlapped) :
    Agrees core w hSet hApp h := by
  cases hfs : core.fsDarwin with
  | false =>
      have hscan : inspect core w h = .nothing := by
        rw [inspect, htype]
        simp [hfs]
      have hadd : ofcWaitsetAddImpl core w hSet hApp h = [] := by
        rw [ofcWaitsetAddImpl, htype]
        simp [hfs]
      have hassoc : ofcWaitsetSetAssocImpl core h hApp hSet = [] := by
        rw [ofcWaitsetSetAssocImpl, htype]
        simp [hfs]
      have hdebug : debugLine core w h = none := by
        rw [debugLine, htype]
        simp [hfs]
      refine ⟨?_, ?_, ?_⟩
      · rw [hscan, hadd]
        simp [Finding.isTriggered]
      · rw [hscan, hdebug]
        simp [Finding.isTriggered]
      · rw [hadd, hassoc]
        rintro hAssoc (hcall | hcall) <;> cases hcall
  | true =>
      have hswitches : Switches core w hSet hApp h (core.fsDarwinGetOverlappedEvent h)
          (fun later => later.eventTest (core.fsDarwinGetOverlappedEvent h)) "Darwin Overlapped: "
          "triggered" "not triggered" := by
        constructor
        · intro later
          rw [inspect, htype]
          cases later.eventTest (core.fsDarwinGetOverlappedEvent h) <;>
            simp [hfs, Finding.isTriggered, Finding.hEvent?]
        · rw [ofcWaitsetAddImpl, htype]
          simp [hfs]
        · intro hAssoc hcall
          rw [ofcWaitsetSetAssocImpl, htype] at hcall
          simp only [hfs, if_true, List.mem_singleton, SetCall.setApp.injEq] at hcall
          exact hcall.1
        · rw [debugLine, htype]
          simp [hfs]
      exact hswitches.agrees (by decide) (by decide)

/-- An overlapped operation of the SMB file system: the scan goes by its wait queue, the
set by its event, and the debug output calls it triggered when the queue is empty. -/
theorem fssmb_switches (htype : core.handleGetType h = .fssmbOverlapped) :
    ((inspect core w h).isTriggered = true ↔
        w.waitqEmpty (core.fileGetOverlappedWaitQ h) = false) ∧
      ((∃ hAssoc, .signal hSet hAssoc ∈ ofcWaitsetAddImpl core w hSet hApp h) ↔
        w.eventTest (core.fileGetOverlappedEvent h) = true) ∧
      ((∃ line ∈ readyLines, debugLine core w h = some line) ↔
        w.waitqEmpty (core.fileGetOverlappedWaitQ h) = true) := by
  refine ⟨?_, ?_, ?_⟩
  · rw [inspect, htype]
    cases w.waitqEmpty (core.fileGetOverlappedWaitQ h) <;> simp [Finding.isTriggered]
  · rw [ofcWaitsetAddImpl, htype]
    simp only
    cases w.eventTest (core.fileGetOverlappedEvent h) <;> simp
  · have hdebug : debugLine core w h = some ("CIFS Overlapped: " ++
        (if w.waitqEmpty (core.fileGetOverlappedWaitQ h) then "triggered" else "not triggered") ++
        "\n") := by
      rw [debugLine, htype]
    rw [hdebug]
    cases w.waitqEmpty (core.fileGetOverlappedWaitQ h) with
    | false =>
        refine iff_of_false ?_ (by simp)
        rintro ⟨line, hmem, hline⟩
        rw [← Option.some.inj hline] at hmem
        exact absurd hmem (by decide)
    | true => exact iff_of_true ⟨_, by decide, rfl⟩ rfl

theorem not_agrees_fssmbOverlapped (htype : core.handleGetType h = .fssmbOverlapped) :
    ¬ Agrees core w hSet hApp h := by
  intro hagrees
  obtain ⟨hscan, -, hdebug⟩ := @fssmb_switches core w hSet hApp h htype
  have hboth := hscan.symm.trans (hagrees.reported.trans hdebug)
  cases hempty : w.waitqEmpty (core.fileGetOverlappedWaitQ h) <;> simp [hempty] at hboth

/-- The switches agree on the handles of a set exactly when it has no overlapped
operation of the SMB file system. -/
theorem agrees_iff (core : Core) (waitSet : WaitSet) (w : World) (hSet hApp : Handle) :
    (∀ h ∈ members waitSet.hHandleQueue, Backed (core.handleGetType h) →
      Agrees core w hSet hApp h) ↔
    ∀ h ∈ members waitSet.hHandleQueue, core.handleGetType h ≠ .fssmbOverlapped := by
  constructor
  · intro hagrees h hmem htype
    exact not_agrees_fssmbOverlapped htype (hagrees h hmem (by rw [htype]; trivial))
  · intro hnone h hmem hbacked
    cases htype : core.handleGetType h with
    | event => exact agrees_event htype
    | waitQueue => exact agrees_waitQueue htype
    | fsdarwinOverlapped => exact agrees_fsdarwinOverlapped htype
    | fssmbOverlapped => exact absurd htype (hnone h hmem)
    | _ =>
        rw [htype] at hbacked
        exact absurd hbacked id

/-- Handle 1 is an overlapped operation with the wait queue 6, whose event is 8, and
with the event 7. -/
def smbCore : Core :=
  { exampleCore with
    handleGetType := fun _ => .fssmbOverlapped
    fileGetOverlappedWaitQ := fun _ => 6
    fileGetOverlappedEvent := fun _ => 7
    waitqGetEventHandle := fun _ => 8 }

/-- The queue is empty and the event is signalled: the scan waits for event 8, the set
is signalled for event 7, and the debug output says triggered. -/
theorem smb_switches_differ :
    let w : World :=
      { exampleWorld with event := fun _ => some { eventType := .manual, signalled := true } }
    inspect smbCore w 1 = .backed 8 ∧
      ofcWaitsetAddImpl smbCore w 2 3 1 = [.setApp 7 3 2, .signal 2 7] ∧
      ofcWaitsetSetAssocImpl smbCore 1 3 2 = [.setApp 7 3 2] ∧
      ofcWaitsetDebug smbCore (some { hHandleQueue := [1], pipeFile := 9 }) w =
        ["CIFS Overlapped: triggered\n"] ∧
      ¬ Agrees smbCore w 2 3 1 := by
  intro w
  refine ⟨rfl, rfl, rfl, rfl, fun hagrees => ?_⟩
  exact absurd (hagrees.signalled.mpr ⟨7, List.mem_cons_of_mem _ List.mem_cons_self⟩) (by decide)

end OfcDarwin.Waitset
