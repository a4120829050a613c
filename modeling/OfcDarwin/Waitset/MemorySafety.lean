import OfcDarwin.Waitset.Memory
import OfcDarwin.Waitset.Scan

/-!
# A wait uses its memory well

The wait over the heap has the result of the wait over lists, from any heap and whatever
`poll` answers, and leaves every block as it was (`wait_refines`).  So it stays inside the
lists it lets grow, reads no entry that it has not written, and frees all it allocates,
once.

`Holds` is what the blocks hold in terms of the lists.  Every function of
`Waitset/Memory.lean` has a triple with it.
-/

namespace OfcDarwin.Waitset.Memory

open HeapLogic OfcDarwin.Socket

/-! ## What the blocks hold -/

/-- The block of the poll list. -/
def pollFds (entries : List PollFd) : Block Cell := entries.map fun entry => some (.pollFd entry)

/-- The block of the handle list. -/
def handles (list : List Handle) : Block Cell := list.map fun h => some (.handle h)

/-- The block of an element of the event queue. -/
def owned (element : ℕ × EventElement) : Assertion Cell :=
  pointsTo element.1 [some (.eventElement element.2)]

/-- The locals over the heap are those over lists, with the elements of the event queue at
their addresses. -/
structure Agrees (scan : Scan) (locals : Locals) (queue : List (ℕ × EventElement)) : Prop where
  waitCount : locals.waitCount = scan.darwinHandleList.length
  parallel : locals.waitCount = scan.ofcHandleList.length
  addresses : locals.eventQueue = queue.map Prod.fst
  elements : scan.eventQueue = queue.map Prod.snd
  leastWait : locals.leastWait = scan.leastWait
  timerEvent : locals.timerEvent = scan.timerEvent
  triggeredEvent : locals.triggeredEvent = scan.triggeredEvent

/-- The blocks of a wait. -/
def blocks (scan : Scan) (locals : Locals) (queue : List (ℕ × EventElement)) : Assertion Cell :=
  pointsTo locals.darwinHandleList (pollFds scan.darwinHandleList) *
    pointsTo locals.ofcHandleList (handles scan.ofcHandleList) * (queue.map owned).prod

/-- The heap holds what the lists hold. -/
def Holds (scan : Scan) (locals : Locals) : Assertion Cell :=
  .any fun queue => .lift (Agrees scan locals queue) * blocks scan locals queue

/-- The program returns locals for which the heap holds what the lists hold. -/
theorem value_holds {scan : Scan} {locals : Locals} {queue : List (ℕ × EventElement)}
    (hagrees : Agrees scan locals queue) :
    Triple (blocks scan locals queue) (pure locals) (Holds scan) :=
  Triple.value fun _ hblocks => ⟨queue, Assertion.lift_mul_iff.mpr ⟨hagrees, hblocks⟩⟩

theorem pollFds_append (entries : List PollFd) (entry : PollFd) :
    (pollFds entries ++ [none]).set entries.length (some (.pollFd entry)) =
      pollFds (entries ++ [entry]) := by
  simp [pollFds]

theorem handles_append (list : List Handle) (h : Handle) :
    (handles list ++ [none]).set list.length (some (.handle h)) = handles (list ++ [h]) := by
  simp [handles]

/-! ## The scan -/

theorem start_triple (core : Core) (pipeFile : ℤ) :
    Triple 1 (Locals.start core pipeFile) (Holds (Scan.start core pipeFile)) := by
  unfold Locals.start
  apply Triple.seq (malloc_triple 1)
  intro darwinHandleList
  apply Triple.bind (one_mul _).symm (malloc_triple 1)
  intro ofcHandleList
  apply Triple.bind (mul_comm _ _) (store_triple (by simp) _)
  intro _
  apply Triple.bind (mul_comm _ _) (store_triple (by simp) _)
  intro _
  have hagrees : Agrees (Scan.start core pipeFile)
      { darwinHandleList := darwinHandleList
        ofcHandleList := ofcHandleList
        waitCount := 1
        eventQueue := []
        leastWait := core.maxSchedWait
        timerEvent := handleNull
        triggeredEvent := handleNull } [] := ⟨rfl, rfl, rfl, rfl, rfl, rfl, rfl⟩
  have hblocks := value_holds hagrees
  rw [blocks, List.map_nil, List.prod_nil, mul_one, mul_comm] at hblocks
  exact hblocks

/-- The body of the loop does to the lists in the heap what it does to the lists. -/
theorem note_triple {scan : Scan} {locals : Locals} {queue : List (ℕ × EventElement)}
    (hagrees : Agrees scan locals queue) (h : Handle) (finding : Finding) :
    Triple (blocks scan locals queue) (locals.note h finding) (Holds (scan.note h finding)) := by
  obtain ⟨hcount, hparallel, haddresses, helements, hleast, htimer, htriggered⟩ := hagrees
  cases finding with
  | nothing =>
      exact value_holds ⟨hcount, hparallel, haddresses, helements, hleast, htimer, htriggered⟩
  | triggered consumed =>
      have hagrees : Agrees (scan.note h (.triggered consumed))
          { locals with triggeredEvent := h } queue :=
        ⟨hcount, hparallel, haddresses, helements, hleast, htimer, rfl⟩
      exact value_holds hagrees
  | backed hEvent =>
      unfold Locals.note
      apply Triple.bind (one_mul _).symm (malloc_triple 1)
      intro eventElement
      apply Triple.bind rfl (store_triple (by simp) _)
      intro _
      have hagrees : Agrees (scan.note h (.backed hEvent))
          { locals with eventQueue := locals.eventQueue ++ [eventElement] }
          (queue ++ [(eventElement, { hEvent := hEvent, hAssoc := h })]) := by
        refine ⟨hcount, hparallel, ?_, ?_, hleast, htimer, htriggered⟩
        · rw [haddresses, List.map_append]
          rfl
        · rw [Scan.note, helements, List.map_append]
          rfl
      have hblocks := value_holds hagrees
      rw [blocks, List.map_append, List.prod_append, List.map_singleton, List.prod_singleton,
        ← mul_assoc, mul_comm] at hblocks
      exact hblocks
  | descriptor entry =>
      unfold Locals.note
      have hentries : (pollFds scan.darwinHandleList).length = locals.waitCount := by
        rw [pollFds, List.length_map, hcount]
      have hlist : (handles scan.ofcHandleList).length = locals.waitCount := by
        rw [handles, List.length_map, hparallel]
      apply Triple.bind (mul_assoc _ _ _) (realloc_triple _ _ _)
      intro darwinHandleList
      apply Triple.bind (F := pointsTo darwinHandleList (resize (locals.waitCount + 1)
        (pollFds scan.darwinHandleList)) * (queue.map owned).prod) (by ac_rfl)
        (realloc_triple _ _ _)
      intro ofcHandleList
      rw [← hentries, resize_succ, hentries, ← hlist, resize_succ, hlist]
      apply Triple.bind (F := pointsTo ofcHandleList (handles scan.ofcHandleList ++ [none]) *
        (queue.map owned).prod) (by ac_rfl) (store_triple (by simp [hentries]) _)
      intro _
      rw [hcount, pollFds_append, ← hcount]
      apply Triple.bind (F := pointsTo darwinHandleList (pollFds (scan.darwinHandleList ++
        [entry])) * (queue.map owned).prod) (by ac_rfl) (store_triple (by simp [hlist]) _)
      intro _
      rw [hparallel, handles_append, ← hparallel]
      have hagrees : Agrees (scan.note h (.descriptor entry))
          { locals with
            darwinHandleList := darwinHandleList
            ofcHandleList := ofcHandleList
            waitCount := locals.waitCount + 1 } queue := by
        refine ⟨?_, ?_, haddresses, helements, hleast, htimer, htriggered⟩
        · rw [Scan.note, List.length_append, ← hcount]
          rfl
        · rw [Scan.note, List.length_append, ← hparallel]
          rfl
      have hblocks := value_holds hagrees
      have hsame : blocks (scan.note h (.descriptor entry))
          { locals with
            darwinHandleList := darwinHandleList
            ofcHandleList := ofcHandleList
            waitCount := locals.waitCount + 1 } queue =
          pointsTo ofcHandleList (handles (scan.ofcHandleList ++ [h])) *
            (pointsTo darwinHandleList (pollFds (scan.darwinHandleList ++ [entry])) *
              (queue.map owned).prod) := by
        show pointsTo _ _ * pointsTo _ _ * _ = _
        ac_rfl
      rwa [hsame] at hblocks
  | timer waitTime =>
      rw [Locals.note, Scan.note, hleast]
      by_cases hless : waitTime < scan.leastWait
      · rw [if_pos hless, if_pos hless]
        have hagrees : Agrees { scan with leastWait := waitTime, timerEvent := h }
            { locals with leastWait := waitTime, timerEvent := h } queue :=
          ⟨hcount, hparallel, haddresses, helements, rfl, rfl, htriggered⟩
        exact value_holds hagrees
      · rw [if_neg hless, if_neg hless]
        exact value_holds ⟨hcount, hparallel, haddresses, helements, hleast, htimer, htriggered⟩

/-- The loop does to the lists in the heap what it does to the lists. -/
theorem scanQueue_triple (core : Core) (queue : List Handle) (scan : Scan) (w : World)
    (locals : Locals) :
    Triple (Holds scan locals) (scanQueue core queue locals w) fun result =>
      .lift (result.2 = (Waitset.scanQueue core queue scan w).2) *
        Holds (Waitset.scanQueue core queue scan w).1 result.1 := by
  have hstops : ∀ (scan : Scan) (w : World) (locals : Locals),
      Triple (Holds scan locals) (pure (locals, w)) fun result =>
        .lift (result.2 = w) * Holds scan result.1 := fun scan w locals =>
    Triple.value fun _ hholds => Assertion.lift_mul_iff.mpr ⟨rfl, hholds⟩
  induction queue generalizing scan w locals with
  | nil => exact hstops scan w locals
  | cons h rest ih =>
      unfold scanQueue Waitset.scanQueue
      by_cases hgoes : h ≠ handleNull ∧ scan.triggeredEvent = handleNull
      · rw [if_pos hgoes]
        apply Triple.any
        intro elements
        apply Triple.lift
        intro hagrees
        rw [if_pos (hagrees.triggeredEvent ▸ hgoes)]
        apply Triple.seq (note_triple hagrees h (inspect core w h))
        intro locals
        exact ih _ _ locals
      · rw [if_neg hgoes]
        apply Triple.any
        intro elements
        apply Triple.lift
        intro hagrees
        rw [if_neg (hagrees.triggeredEvent ▸ hgoes)]
        apply Triple.value
        intro part hblocks
        exact Assertion.lift_mul_iff.mpr
          ⟨rfl, elements, Assertion.lift_mul_iff.mpr ⟨hagrees, hblocks⟩⟩

/-! ## Poll and the pipe -/

/-- The list when `poll` has stored the first `n` answers. -/
def storedUpTo (answer : PollAnswer) (n : ℕ) (entries : List PollFd) : List PollFd :=
  entries.mapIdx fun index entry =>
    if index < n then { entry with revents := answer.revents index } else entry

theorem getElem?_storedUpTo (answer : PollAnswer) (n : ℕ) (entries : List PollFd) (index : ℕ) :
    (storedUpTo answer n entries)[index]? = entries[index]?.map fun entry =>
      if index < n then { entry with revents := answer.revents index } else entry :=
  List.getElem?_mapIdx

@[simp] theorem length_storedUpTo (answer : PollAnswer) (n : ℕ) (entries : List PollFd) :
    (storedUpTo answer n entries).length = entries.length :=
  List.length_mapIdx

theorem getElem?_pollFds (entries : List PollFd) (index : ℕ) :
    (pollFds entries)[index]? = entries[index]?.map fun entry => some (.pollFd entry) :=
  List.getElem?_map

@[simp] theorem length_pollFds (entries : List PollFd) :
    (pollFds entries).length = entries.length :=
  List.length_map _

theorem storedUpTo_zero (answer : PollAnswer) (entries : List PollFd) :
    storedUpTo answer 0 entries = entries := by
  apply List.ext_getElem?
  intro index
  rw [getElem?_storedUpTo]
  exact Option.map_id'

theorem storedUpTo_length (answer : PollAnswer) (entries : List PollFd) :
    storedUpTo answer entries.length entries = answer.store entries := by
  apply List.ext_getElem?
  intro index
  rw [getElem?_storedUpTo, PollAnswer.store, List.getElem?_mapIdx]
  by_cases hlt : index < entries.length
  · simp only [if_pos hlt]
  · rw [List.getElem?_eq_none (not_lt.mp hlt), Option.map_none, Option.map_none]

theorem storedUpTo_succ (answer : PollAnswer) {n : ℕ} {entries : List PollFd}
    (hn : n < entries.length) :
    (pollFds (storedUpTo answer n entries)).set n
        (some (.pollFd { entries[n] with revents := answer.revents n })) =
      pollFds (storedUpTo answer (n + 1) entries) := by
  apply List.ext_getElem?
  intro index
  rw [List.getElem?_set, getElem?_pollFds, getElem?_pollFds, getElem?_storedUpTo,
    getElem?_storedUpTo]
  by_cases hsame : n = index
  · subst hsame
    rw [if_pos rfl, if_pos (by rwa [length_pollFds, length_storedUpTo]),
      List.getElem?_eq_getElem hn, Option.map_some, Option.map_some, if_pos (Nat.lt_succ_self n)]
  · have hiff : index < n ↔ index < n + 1 := by omega
    simp only [if_neg hsame, hiff]

/-- `poll` reads the entries and stores its answers in them. -/
theorem poll_returns (darwinHandleList : ℕ) (answer : PollAnswer) (entries : List PollFd) {n : ℕ}
    (hn : n ≤ entries.length) :
    Returns (pointsTo darwinHandleList (pollFds entries)) (poll darwinHandleList answer n)
      (entries.take n)
      (pointsTo darwinHandleList (pollFds (storedUpTo answer n entries))) := by
  induction n with
  | zero =>
      rw [storedUpTo_zero]
      exact Returns.value rfl
  | succ n ih =>
      have hlt : n < entries.length := hn
      have hload : Returns (pointsTo darwinHandleList (pollFds (storedUpTo answer n entries)))
          (load Cell.pollFd? darwinHandleList n) entries[n]
          (pointsTo darwinHandleList (pollFds (storedUpTo answer n entries))) :=
        @load_returns _ _ Cell.pollFd? _ _ _ (.pollFd entries[n]) _ (by
          rw [getElem?_pollFds, getElem?_storedUpTo, List.getElem?_eq_getElem hlt, Option.map_some,
            if_neg (lt_irrefl n), Option.map_some]) rfl
      apply Triple.seqReturns (ih hlt.le)
      apply Triple.seqReturns hload
      apply Triple.seq (store_triple (by rwa [length_pollFds, length_storedUpTo]) _)
      intro _
      rw [storedUpTo_succ answer hlt]
      exact Returns.value (List.take_concat_get' entries n hlt)

/-- The search ends where the list has its first non-zero `revents`. -/
theorem search_returns (darwinHandleList : ℕ) (entries : List PollFd) (left waitIndex : ℕ)
    (hleft : waitIndex + left = entries.length) :
    Returns (pointsTo darwinHandleList (pollFds entries)) (search darwinHandleList left waitIndex)
      (waitIndex + (entries.drop waitIndex).findIdx (·.revents ≠ 0))
      (pointsTo darwinHandleList (pollFds entries)) := by
  induction left generalizing waitIndex with
  | zero =>
      apply Returns.value
      rw [List.drop_of_length_le (by omega), List.findIdx_nil, Nat.add_zero]
  | succ left ih =>
      have hlt : waitIndex < entries.length := by omega
      have hload : Returns (pointsTo darwinHandleList (pollFds entries))
          (load Cell.pollFd? darwinHandleList waitIndex) entries[waitIndex]
          (pointsTo darwinHandleList (pollFds entries)) :=
        @load_returns _ _ Cell.pollFd? _ _ _ (.pollFd entries[waitIndex]) _ (by
          rw [getElem?_pollFds, List.getElem?_eq_getElem hlt, Option.map_some]) rfl
      apply Triple.seqReturns hload
      have hindex : (entries.drop waitIndex).findIdx (·.revents ≠ 0) =
          if entries[waitIndex].revents = 0 then
            (entries.drop (waitIndex + 1)).findIdx (·.revents ≠ 0) + 1
          else 0 := by
        rw [List.drop_eq_getElem_cons hlt, List.findIdx_cons]
        by_cases hquiet : entries[waitIndex].revents = 0 <;> simp [hquiet]
      rw [hindex]
      by_cases hquiet : entries[waitIndex].revents = 0
      · rw [if_pos hquiet, if_pos hquiet]
        have hrest := ih (waitIndex + 1) (by omega)
        rwa [Nat.add_assoc, Nat.add_comm 1] at hrest
      · rw [if_neg hquiet, if_neg hquiet]
        exact Returns.value rfl

/-- An element of the queue among the others. -/
theorem owned_mul {queue : List (ℕ × EventElement)} {element : ℕ × EventElement}
    (hmem : element ∈ queue) :
    ∃ others : Assertion Cell, (queue.map owned).prod = owned element * others := by
  obtain ⟨before, after, rfl⟩ := List.append_of_mem hmem
  refine ⟨(before.map owned).prod * (after.map owned).prod, ?_⟩
  rw [List.map_append, List.prod_append, List.map_cons, List.prod_cons]
  ac_rfl

/-- An element is read through its pointer. -/
theorem element_returns {queue : List (ℕ × EventElement)} {element : ℕ × EventElement}
    (hmem : element ∈ queue) :
    Returns (queue.map owned).prod (load Cell.eventElement? element.1 0) element.2
      (queue.map owned).prod := by
  obtain ⟨others, hqueue⟩ := owned_mul hmem
  have hread : Returns (owned element) (load Cell.eventElement? element.1 0) element.2
      (owned element) := @load_returns _ _ Cell.eventElement? _ _ _ (.eventElement element.2) _ rfl rfl
  rw [hqueue]
  exact hread.frame others

/-- The search over the queue finds the pointer of the first element of the event. -/
theorem findElement_returns (hEvent : Handle) {queue rest : List (ℕ × EventElement)}
    (hrest : ∀ element ∈ rest, element ∈ queue) :
    Returns (queue.map owned).prod (findElement hEvent (rest.map Prod.fst))
      ((rest.find? fun element => element.2.hEvent = hEvent).map Prod.fst)
      (queue.map owned).prod := by
  induction rest with
  | nil => exact Returns.value rfl
  | cons element rest ih =>
      apply Triple.seqReturns (element_returns (hrest element List.mem_cons_self))
      by_cases hfound : element.2.hEvent = hEvent
      · rw [if_pos hfound, List.find?_cons_of_pos (by simpa using hfound)]
        exact Returns.value rfl
      · rw [if_neg hfound, List.find?_cons_of_neg (by simpa using hfound)]
        exact ih fun other hmem => hrest other (List.mem_cons_of_mem element hmem)

/-- `PollEvent` finds through the pointers what it finds in the list. -/
theorem pollEvent_returns (queue : List (ℕ × EventElement)) (w : World) (messages : List Handle) :
    Returns (queue.map owned).prod (pollEvent (queue.map Prod.fst) w messages)
      (Waitset.pollEvent (queue.map Prod.snd) w messages) (queue.map owned).prod := by
  induction messages generalizing w with
  | nil => exact Returns.value rfl
  | cons hEvent rest ih =>
      unfold pollEvent Waitset.pollEvent
      by_cases hwake : hEvent = handleNull
      · rw [if_pos hwake, if_pos hwake]
        exact Returns.value rfl
      rw [if_neg hwake, if_neg hwake]
      apply Triple.seqReturns (findElement_returns hEvent fun _ hmem => hmem)
      rw [List.find?_map]
      have hsame : ((fun element : EventElement => decide (element.hEvent = hEvent)) ∘ Prod.snd) =
          fun element : ℕ × EventElement => decide (element.2.hEvent = hEvent) := rfl
      rw [hsame]
      cases hfind : queue.find? fun element => element.2.hEvent = hEvent with
      | none => exact ih w
      | some element =>
          have hmem : element ∈ queue := List.mem_of_find?_eq_some hfind
          show Returns _ (if w.eventTest hEvent then _ else _)
            (if w.eventTest hEvent then _ else _) _
          by_cases htest : w.eventTest hEvent = true
          · rw [if_pos htest, if_pos htest]
            apply Triple.seqReturns (element_returns hmem)
            by_cases hassoc : element.2.hAssoc = handleNull
            · rw [if_pos hassoc, if_pos hassoc]
              exact ih _
            · rw [if_neg hassoc, if_neg hassoc]
              exact Returns.value rfl
          · rw [if_neg htest, if_neg htest]
            exact ih w

/-! ## The wait -/

/-- The dispatch of an answer of `poll` over the heap is the one over the lists. -/
theorem dispatch_returns (core : Core) {scan : Scan} {locals : Locals}
    {queue : List (ℕ × EventElement)} (hagrees : Agrees scan locals queue) (answer : PollAnswer) :
    Returns (blocks scan locals queue) (dispatch core locals answer)
      (Waitset.dispatch core scan answer)
      (blocks { scan with darwinHandleList := answer.store scan.darwinHandleList } locals
        queue) := by
  obtain ⟨hcount, hparallel, haddresses, helements, hleast, htimer, -⟩ := hagrees
  let entries := answer.store scan.darwinHandleList
  have hlength : entries.length = scan.darwinHandleList.length := by
    simp [entries, PollAnswer.store]
  have hpoll := poll_returns locals.darwinHandleList answer scan.darwinHandleList le_rfl
  rw [List.take_length, storedUpTo_length, ← hcount] at hpoll
  have hsearch := search_returns locals.darwinHandleList entries entries.length 0 (Nat.zero_add _)
  rw [List.drop_zero, Nat.zero_add, hlength, ← hcount] at hsearch
  have hpipe := pollEvent_returns queue answer.world answer.world.pipe
  rw [← haddresses, ← helements] at hpipe
  unfold dispatch Waitset.dispatch
  apply Triple.bindReturns (mul_assoc _ _ _) hpoll
  rw [hleast, htimer, ← mul_assoc]
  by_cases htimeout : answer.count = 0 ∧ scan.timerEvent ≠ handleNull
  · rw [if_pos htimeout, if_pos htimeout]
    exact Returns.value rfl
  rw [if_neg htimeout, if_neg htimeout]
  by_cases hanswered : answer.count > 0
  · rw [if_pos hanswered, if_pos hanswered]
    apply Triple.bindReturns (mul_assoc _ _ _) hsearch
    rw [← mul_assoc]
    show Returns _ (if waitIndex entries = 0 then _ else _) (if waitIndex entries = 0 then _ else _)
      _
    by_cases hfirst : waitIndex entries = 0
    · rw [if_pos hfirst, if_pos hfirst]
      apply Triple.bindReturns (mul_comm _ _) hpipe
      rw [mul_comm]
      exact Returns.value rfl
    rw [if_neg hfirst, if_neg hfirst]
    show Returns _ (if waitIndex entries < locals.waitCount then _ else _) _ _
    by_cases hinside : waitIndex entries < locals.waitCount
    · rw [if_pos hinside]
      have hentry : waitIndex entries < entries.length := by rwa [hlength, ← hcount]
      have hhandle : waitIndex entries < scan.ofcHandleList.length := by rwa [← hparallel]
      have hloadHandle : Returns (pointsTo locals.ofcHandleList (handles scan.ofcHandleList))
          (load Cell.handle? locals.ofcHandleList (waitIndex entries))
          scan.ofcHandleList[waitIndex entries]
          (pointsTo locals.ofcHandleList (handles scan.ofcHandleList)) :=
        @load_returns _ _ Cell.handle? _ _ _ (.handle scan.ofcHandleList[waitIndex entries]) _
          (by simp [handles, hhandle]) rfl
      have hloadEntry : Returns (pointsTo locals.darwinHandleList (pollFds entries))
          (load Cell.pollFd? locals.darwinHandleList (waitIndex entries))
          entries[waitIndex entries]
          (pointsTo locals.darwinHandleList (pollFds entries)) :=
        @load_returns _ _ Cell.pollFd? _ _ _ (.pollFd entries[waitIndex entries]) _
          (by simp [pollFds, hentry]) rfl
      apply Triple.bindReturns (F := pointsTo locals.darwinHandleList (pollFds entries) *
        (queue.map owned).prod) (by ac_rfl) hloadHandle
      apply Triple.bindReturns (F := pointsTo locals.ofcHandleList (handles scan.ofcHandleList) *
        (queue.map owned).prod) (by ac_rfl) hloadEntry
      have hfound : (answer.store scan.darwinHandleList)[waitIndex entries]? =
          some entries[waitIndex entries] := List.getElem?_eq_getElem hentry
      rw [← mul_assoc]
      apply Returns.value
      rw [hfound, List.getElem?_eq_getElem hhandle]
    · rw [if_neg hinside]
      have hout : (answer.store scan.darwinHandleList)[waitIndex entries]? = none :=
        List.getElem?_eq_none (hlength ▸ hcount ▸ not_lt.mp hinside)
      apply Returns.value
      rw [hout]
  · rw [if_neg hanswered, if_neg hanswered]
    exact Returns.value rfl

/-- The loop at the end frees every element. -/
theorem freeElements_returns (queue : List (ℕ × EventElement)) :
    Returns (queue.map owned).prod (freeElements (queue.map Prod.fst)) () 1 := by
  induction queue with
  | nil => exact Returns.value rfl
  | cons element rest ih =>
      rw [List.map_cons, List.prod_cons]
      apply Triple.bind rfl (free_triple element.1 _)
      intro _
      rw [one_mul]
      exact ih

/-- The end of a wait frees its blocks. -/
theorem release_returns {scan : Scan} {locals : Locals} {queue : List (ℕ × EventElement)}
    (haddresses : locals.eventQueue = queue.map Prod.fst) (wait : Wait) :
    Returns (blocks scan locals queue) (do
      freeElements locals.eventQueue
      free locals.darwinHandleList
      free locals.ofcHandleList
      pure wait) wait 1 := by
  have helements := freeElements_returns queue
  rw [← haddresses] at helements
  apply Triple.bindReturns (mul_comm _ _) helements
  rw [one_mul]
  apply Triple.bind rfl (free_triple _ _)
  intro _
  rw [one_mul]
  apply Triple.seq (free_triple _ _)
  intro _
  exact Returns.value rfl

/-- A wait needs no blocks, and leaves none. -/
theorem wait_returns (core : Core) (waitSet : Option WaitSet) (w : World) (answer : PollAnswer) :
    Returns 1 (ofcWaitsetWaitImpl core waitSet w answer)
      (Waitset.ofcWaitsetWaitImpl core waitSet w answer) 1 := by
  cases waitSet with
  | none => exact Returns.value rfl
  | some waitSet =>
      unfold ofcWaitsetWaitImpl Waitset.ofcWaitsetWaitImpl
      apply Triple.seq (start_triple core waitSet.pipeFile)
      intro start
      apply Triple.seq (scanQueue_triple core waitSet.hHandleQueue _ w.purge start)
      rintro ⟨locals, world⟩
      apply Triple.lift
      intro hworld
      apply Triple.any
      intro queue
      apply Triple.lift
      intro hagrees
      show Returns _ (if locals.triggeredEvent = handleNull then dispatch core locals answer >>= _
        else pure _ >>= _) (if (Waitset.scanQueue core waitSet.hHandleQueue
          (Scan.start core waitSet.pipeFile) w.purge).1.triggeredEvent = handleNull then _ else _) _
      rw [hagrees.triggeredEvent]
      by_cases hnone : (Waitset.scanQueue core waitSet.hHandleQueue
          (Scan.start core waitSet.pipeFile) w.purge).1.triggeredEvent = handleNull
      · rw [if_pos hnone, if_pos hnone]
        apply Triple.seqReturns (dispatch_returns core hagrees answer)
        exact release_returns hagrees.addresses _
      · rw [if_neg hnone, if_neg hnone]
        apply Triple.seqReturns (Returns.value rfl)
        have hend := @release_returns (Waitset.scanQueue core waitSet.hHandleQueue
          (Scan.start core waitSet.pipeFile) w.purge).1 locals queue hagrees.addresses
        exact hworld ▸ hend _

/-- The wait over the heap has the result of the wait over lists, and leaves every block
as it was. -/
theorem wait_refines (core : Core) (waitSet : Option WaitSet) (w : World) (answer : PollAnswer)
    (heap : Heap Cell) :
    ∃ heap', ofcWaitsetWaitImpl core waitSet w answer heap =
        some (Waitset.ofcWaitsetWaitImpl core waitSet w answer, heap') ∧
      heap'.blocks = heap.blocks :=
  (wait_returns core waitSet w answer).run heap

end OfcDarwin.Waitset.Memory
