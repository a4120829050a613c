import OfcDarwin.Socket.Events
import OfcDarwin.Waitset.Scan

/-!
# Which handles reach the socket layer

A wait calls `ofc_socket_get_impl` in two places: the scan, for each socket that it
passes, and the dispatch, for whatever handle stands beside the first poll entry that
has an answer.  The second place is not guarded by the type of the handle.  Files of
the Darwin file system stand in the same two lists, and although they ask `poll` for
no event, `poll` reports errors unasked.  So the argument is a socket except when the
first answer is for a file (`typeCorrect_iff`).
-/

namespace OfcDarwin.Waitset

open OfcDarwin.Socket

/-- The handles on which the loop over `hHandleQueue` calls `ofc_socket_get_impl`. -/
def scanSockets (core : Core) : List Handle → Scan → World → List Handle
  | [], _, _ => []
  | hEventHandle :: rest, scan, w =>
      if hEventHandle ≠ handleNull ∧ scan.triggeredEvent = handleNull then
        let found := inspect core w hEventHandle
        let later := scanSockets core rest (scan.note hEventHandle found)
          (w.note hEventHandle found)
        if core.handleGetType hEventHandle = .socket then hEventHandle :: later else later
      else []

/-- The handles on which a wait calls `ofc_socket_get_impl`, in its scan and after its
poll. -/
def socketCalls (core : Core) (waitSet : WaitSet) (w : World) (answer : PollAnswer) :
    List Handle :=
  scanSockets core waitSet.hHandleQueue (Scan.start core waitSet.pipeFile) w.purge ++
    (ofcWaitsetWaitImpl core (some waitSet) w answer).socketGetImpl

/-- The store of `ofc_socket_impl_set_event` after the poll is to the record of `h`, and
what it stores was reported for the descriptor of that record. -/
structure StoresReport (core : Core) (w : World) (answer : PollAnswer) (wait : Wait) (h : Handle)
    (index : ℕ) : Prop where
  entry : wait.polled.bind (fun polled => polled.1[index]?.map PollFd.fd) =
    some (ofcSocketImplGetFd (w.socket (core.socketGetImpl h)))
  reported : answer.revents index ≠ 0
  store : wait.world.socket = Function.update answer.world.socket (core.socketGetImpl h)
    (ofcSocketImplSetEvent (answer.world.socket (core.socketGetImpl h)) (answer.revents index))

/-- Every call of `ofc_socket_get_impl` is for a socket, and after the poll it is for
the one whose descriptor had an answer. -/
def TypeCorrect (core : Core) (waitSet : WaitSet) (w : World) (answer : PollAnswer) : Prop :=
  (∀ h ∈ socketCalls core waitSet w answer, core.handleGetType h = .socket) ∧
    ∀ h ∈ (ofcWaitsetWaitImpl core (some waitSet) w answer).socketGetImpl,
      ∃ index, StoresReport core w answer (ofcWaitsetWaitImpl core (some waitSet) w answer) h index

/-- No handle of the set is ready, and the first entry of the poll list with an answer is
that of a Darwin file. -/
def FileReported (core : Core) (waitSet : WaitSet) (w : World) (answer : PollAnswer) : Prop :=
  (∀ g ∈ members waitSet.hHandleQueue, (inspect core w g).isTriggered = false) ∧
    answer.count > 0 ∧
    ∃ before h after, members waitSet.hHandleQueue = before ++ h :: after ∧
      core.fsDarwin = true ∧ core.handleGetType h = .file ∧ core.fileGetFsType h = .darwin ∧
      answer.revents (descriptors core w before + 1) ≠ 0 ∧
      ∀ index < descriptors core w before + 1, answer.revents index = 0

variable {core : Core} {waitSet : WaitSet} {w : World} {answer : PollAnswer}

/-! ## The scan -/

theorem scanSockets_type (queue : List Handle) (scan : Scan) (w : World) :
    ∀ h ∈ scanSockets core queue scan w, core.handleGetType h = .socket := by
  induction queue generalizing scan w with
  | nil => simp [scanSockets]
  | cons g rest ih =>
      intro h hmem
      rw [scanSockets] at hmem
      split at hmem
      · split at hmem
        · rename_i hsocket
          rcases List.mem_cons.mp hmem with rfl | hmem
          · exact hsocket
          · exact ih _ _ h hmem
        · exact ih _ _ h hmem
      · cases hmem

/-- A handle with a poll entry is a socket or a Darwin file. -/
theorem descriptor_cases {h : Handle} {entry : PollFd}
    (hfinding : inspect core w h = .descriptor entry) :
    core.handleGetType h = .socket ∧
        entry.fd = ofcSocketImplGetFd (w.socket (core.socketGetImpl h)) ∨
      core.fsDarwin = true ∧ core.handleGetType h = .file ∧ core.fileGetFsType h = .darwin := by
  unfold inspect at hfinding
  cases htype : core.handleGetType h <;> simp only [htype] at hfinding
  case file =>
    split at hfinding
    · rename_i hdarwin
      exact Or.inr ⟨hdarwin.1, rfl, hdarwin.2⟩
    · cases hfinding
  case socket =>
    rw [← Finding.descriptor.inj hfinding]
    exact Or.inl ⟨rfl, rfl⟩
  all_goals
    repeat' split at hfinding
    all_goals cases hfinding

theorem inspect_file {h : Handle} (hfs : core.fsDarwin = true)
    (htype : core.handleGetType h = .file) (hdarwin : core.fileGetFsType h = .darwin) :
    inspect core w h = .descriptor
      { fd := core.fsDarwinGetFd (core.fileGetFsHandle h), events := 0, revents := 0 } := by
  rw [inspect, htype]
  exact if_pos ⟨hfs, hdarwin⟩

/-! ## The dispatch -/

/-- Where the two lists of the scan hold a handle with a descriptor. -/
theorem Scanned.getElem?_of_descriptor {pipeFile : ℤ} {before after : List Handle} {h : Handle}
    {scan : Scan} {entry : PollFd}
    (hscanned : Scanned core w pipeFile (before ++ h :: after) scan)
    (hfinding : inspect core w h = .descriptor entry) :
    scan.ofcHandleList[descriptors core w before + 1]? = some h ∧
      scan.darwinHandleList[descriptors core w before + 1]? = some entry := by
  have hhandle : ((before ++ h :: after).filter fun g =>
      (inspect core w g).pollFd?.isSome)[descriptors core w before]? = some h := by
    rw [descriptors, List.filter_append, List.getElem?_append_right (Nat.le_refl _), Nat.sub_self,
      List.filter_cons_of_pos (by rw [hfinding]; rfl), List.getElem?_cons_zero]
  obtain ⟨-, -, -, -, hentry⟩ :=
    getElem?_filter_isSome (fun g => (inspect core w g).pollFd?) hhandle
  rw [hscanned.handles, hscanned.entries, List.getElem?_cons_succ, List.getElem?_cons_succ]
  refine ⟨hhandle, hentry.trans ?_⟩
  rw [hfinding]
  rfl

/-- The search ends at the first entry with an answer. -/
theorem waitIndex_eq {entries : List PollFd} {index : ℕ} (hlt : index < entries.length)
    (hrevents : answer.revents index ≠ 0) (hfirst : ∀ i < index, answer.revents i = 0) :
    waitIndex (answer.store entries) = index := by
  have hlength : (answer.store entries).length = entries.length := List.length_mapIdx
  rw [waitIndex, List.findIdx_eq (hlength.symm ▸ hlt)]
  constructor
  · simp [PollAnswer.store, hrevents]
  · intro i hi
    simp [PollAnswer.store, hfirst i hi]

/-- An answer for a handle with a descriptor is dispatched to the socket layer, whatever
the handle is. -/
theorem dispatch_descriptor {pipeFile : ℤ} {before after : List Handle} {h : Handle} {scan : Scan}
    {entry : PollFd} (hscanned : Scanned core w pipeFile (before ++ h :: after) scan)
    (hfinding : inspect core w h = .descriptor entry) (hcount : answer.count > 0)
    (hrevents : answer.revents (descriptors core w before + 1) ≠ 0)
    (hfirst : ∀ index < descriptors core w before + 1, answer.revents index = 0) :
    (dispatch core scan answer).socketGetImpl = [h] := by
  obtain ⟨hhandle, hentry⟩ := hscanned.getElem?_of_descriptor hfinding
  obtain ⟨hlt, -⟩ := List.getElem?_eq_some_iff.mp hentry
  have hstored : (answer.store scan.darwinHandleList)[descriptors core w before + 1]? =
      some { entry with revents := answer.revents (descriptors core w before + 1) } := by
    rw [PollAnswer.store, List.getElem?_mapIdx, hentry, Option.map_some]
  unfold dispatch
  simp only
  rw [if_neg (by omega), if_pos hcount, waitIndex_eq hlt hrevents hfirst,
    if_neg (Nat.succ_ne_zero _), hstored, hhandle]

/-! ## The condition -/

/-- The argument after the poll is a socket, the one with the answer, unless the answer
is for a file. -/
theorem storesReport_of_outcome {wait : Wait} (houtcome : Outcome core waitSet w answer wait)
    (hsocket : ¬ FileReported core waitSet w answer) :
    ∀ h ∈ wait.socketGetImpl, core.handleGetType h = .socket ∧
      ∃ index, StoresReport core w answer wait h index := by
  intro h hmem
  cases houtcome with
  | @descriptor scan before g after entry world hscanned hcount hmembers hfinding hentry hrevents
      hfirst hworld =>
      obtain rfl := List.mem_singleton.mp hmem
      rcases descriptor_cases hfinding with ⟨htype, hfd⟩ | ⟨hfs, htype, hdarwin⟩
      · refine ⟨htype, descriptors core w before + 1, ?_, hrevents, ?_⟩
        · simp only [Option.bind_some, hentry, Option.map_some, hfd]
        · rw [hworld]
      · exact absurd ⟨hscanned.quiet, hcount, before, h, after, hmembers, hfs, htype, hdarwin,
          hrevents, hfirst⟩ hsocket
  | _ => cases hmem

/-- The calls of `ofc_socket_get_impl` are type-correct exactly when the first answer of
the poll is not for a Darwin file. -/
theorem typeCorrect_iff (core : Core) (waitSet : WaitSet) (w : World) (answer : PollAnswer) :
    TypeCorrect core waitSet w answer ↔ ¬ FileReported core waitSet w answer := by
  constructor
  · rintro ⟨htypes, -⟩ ⟨hquiet, hcount, before, h, after, hmembers, hfs, htype, hdarwin, hrevents,
      hfirst⟩
    obtain ⟨scan, hscanned, hwait⟩ := wait_eq_dispatch answer hquiet
    rw [hmembers] at hscanned
    have hcall : h ∈ socketCalls core waitSet w answer := by
      rw [socketCalls, hwait, dispatch_descriptor hscanned (inspect_file hfs htype hdarwin) hcount
        hrevents hfirst]
      exact List.mem_append_right _ (List.mem_singleton_self h)
    rw [htypes h hcall] at htype
    cases htype
  · intro hsocket
    have hstores := storesReport_of_outcome (wait_cases core waitSet w answer) hsocket
    refine ⟨fun h hmem => ?_, fun h hmem => (hstores h hmem).2⟩
    rcases List.mem_append.mp hmem with hmem | hmem
    · exact scanSockets_type _ _ _ h hmem
    · exact (hstores h hmem).1

/-- Handle 5 is a file of the Darwin file system on descriptor 8. -/
def fileCore : Core :=
  { exampleCore with
    handleGetType := fun h => if h = 5 then .file else exampleCore.handleGetType h
    fileGetFsType := fun _ => .darwin
    fsDarwinGetFd := fun _ => 8 }

/-- The descriptor of the file has been closed: the poll answers `POLLNVAL` for it, and
the dispatch takes the file for a socket. -/
theorem file_taken_for_socket :
    let answer : PollAnswer :=
      { count := 1, revents := fun index => if index = 1 then pollNval else 0,
        world := exampleWorld }
    let wait := ofcWaitsetWaitImpl fileCore (some { hHandleQueue := [5, 3], pipeFile := 9 })
      exampleWorld answer
    fileCore.fsDarwin = true ∧ wait.socketGetImpl = [5] ∧ fileCore.handleGetType 5 = .file ∧
      ¬ TypeCorrect fileCore { hHandleQueue := [5, 3], pipeFile := 9 } exampleWorld answer := by
  intro answer wait
  have hcall : wait.socketGetImpl = [5] := by decide
  refine ⟨rfl, hcall, rfl, ?_⟩
  rintro ⟨htypes, -⟩
  have htype := htypes 5 (List.mem_append_right _ (by
    rw [hcall]
    exact List.mem_singleton_self 5))
  exact absurd htype (by decide)

end OfcDarwin.Waitset
