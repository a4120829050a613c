import OfcDarwin.Lib.HeapLogic
import OfcDarwin.Waitset.Model

/-!
# A wait over the heap

`Waitset/Model.lean` has the two lists and the event queue of `ofc_waitset_wait_impl` as
lists.  Here they are what they are in the source: arrays that `ofc_realloc` lets grow by
one entry at a time, and elements that are allocated one by one, reached through
pointers, and freed at the end.  The queue that the elements are in is the core library's,
and is the list of its pointers.

The functions are those of the other file, line by line; `Waitset/MemorySafety.lean`
compares the two.
-/

namespace OfcDarwin.Waitset.Memory

open HeapLogic OfcDarwin.Socket

/-- What a wait allocates. -/
inductive Cell where
  | pollFd (entry : PollFd)
  | handle (h : Handle)
  | eventElement (element : EventElement)

def Cell.pollFd? : Cell → Option PollFd
  | .pollFd entry => some entry
  | _ => none

def Cell.handle? : Cell → Option Handle
  | .handle h => some h
  | _ => none

def Cell.eventElement? : Cell → Option EventElement
  | .eventElement element => some element
  | _ => none

/-- The locals, with the lists and the elements of the queue by address. -/
structure Locals where
  darwinHandleList : ℕ
  ofcHandleList : ℕ
  waitCount : ℕ
  eventQueue : List ℕ
  leastWait : ℤ
  timerEvent : Handle
  triggeredEvent : Handle

/-! ## The scan -/

/-- The locals before the first handle: the pipe is the first poll entry. -/
def Locals.start (core : Core) (pipeFile : ℤ) : Program Cell Locals := do
  let darwinHandleList ← malloc 1
  let ofcHandleList ← malloc 1
  store darwinHandleList 0 (.pollFd { fd := pipeFile, events := pollIn, revents := 0 })
  store ofcHandleList 0 (.handle handleNull)
  pure
    { darwinHandleList := darwinHandleList
      ofcHandleList := ofcHandleList
      waitCount := 1
      eventQueue := []
      leastWait := core.maxSchedWait
      timerEvent := handleNull
      triggeredEvent := handleNull }

/-- The locals after a handle. -/
def Locals.note (locals : Locals) (hEventHandle : Handle) : Finding → Program Cell Locals
  | .nothing => pure locals
  | .triggered _ => pure { locals with triggeredEvent := hEventHandle }
  | .backed hEvent => do
      let eventElement ← malloc 1
      store eventElement 0 (.eventElement { hEvent := hEvent, hAssoc := hEventHandle })
      pure { locals with eventQueue := locals.eventQueue ++ [eventElement] }
  | .descriptor entry => do
      let darwinHandleList ← realloc locals.darwinHandleList (locals.waitCount + 1)
      let ofcHandleList ← realloc locals.ofcHandleList (locals.waitCount + 1)
      store darwinHandleList locals.waitCount (.pollFd entry)
      store ofcHandleList locals.waitCount (.handle hEventHandle)
      pure
        { locals with
          darwinHandleList := darwinHandleList
          ofcHandleList := ofcHandleList
          waitCount := locals.waitCount + 1 }
  | .timer waitTime =>
      pure (if waitTime < locals.leastWait then
          { locals with leastWait := waitTime, timerEvent := hEventHandle }
        else locals)

/-- The loop over `hHandleQueue`. -/
def scanQueue (core : Core) : List Handle → Locals → World → Program Cell (Locals × World)
  | [], locals, w => pure (locals, w)
  | hEventHandle :: rest, locals, w =>
      if hEventHandle ≠ handleNull ∧ locals.triggeredEvent = handleNull then do
        let locals ← locals.note hEventHandle (inspect core w hEventHandle)
        scanQueue core rest locals (w.note hEventHandle (inspect core w hEventHandle))
      else pure (locals, w)

/-! ## Poll and the pipe -/

/-- `poll` on the first entries of the list: it reads them, and stores the `revents`. -/
def poll (darwinHandleList : ℕ) (answer : PollAnswer) : ℕ → Program Cell (List PollFd)
  | 0 => pure []
  | waitCount + 1 => do
      let entries ← poll darwinHandleList answer waitCount
      let entry ← load Cell.pollFd? darwinHandleList waitCount
      store darwinHandleList waitCount (.pollFd { entry with revents := answer.revents waitCount })
      pure (entries ++ [entry])

/-- The loop that searches the list for non-zero `revents`, with the number of entries
that are left. -/
def search (darwinHandleList : ℕ) : ℕ → ℕ → Program Cell ℕ
  | 0, waitIndex => pure waitIndex
  | left + 1, waitIndex => do
      let entry ← load Cell.pollFd? darwinHandleList waitIndex
      if entry.revents = 0 then search darwinHandleList left (waitIndex + 1) else pure waitIndex

/-- The search of `PollEvent` for the element of an event. -/
def findElement (hEvent : Handle) : List ℕ → Program Cell (Option ℕ)
  | [] => pure none
  | eventElement :: rest => do
      let element ← load Cell.eventElement? eventElement 0
      if element.hEvent = hEvent then pure (some eventElement) else findElement hEvent rest

/-- `PollEvent` over the messages in the pipe. -/
def pollEvent (eventQueue : List ℕ) (w : World) : List Handle → Program Cell (Handle × World)
  | [] => pure (handleNull, { w with pipe := [] })
  | hEvent :: rest =>
      if hEvent = handleNull then pure (handleNull, { w with pipe := rest })
      else do
        match ← findElement hEvent eventQueue with
        | none => pollEvent eventQueue w rest
        | some eventElement =>
            if w.eventTest hEvent then do
              let element ← load Cell.eventElement? eventElement 0
              if element.hAssoc = handleNull then pollEvent eventQueue (w.consume hEvent) rest
              else pure (element.hAssoc, { w.consume hEvent with pipe := rest })
            else pollEvent eventQueue w rest

/-! ## The wait -/

/-- `poll` and the dispatch of its answer. -/
def dispatch (core : Core) (locals : Locals) (answer : PollAnswer) : Program Cell Wait := do
  let entries ← poll locals.darwinHandleList answer locals.waitCount
  let polled := some (entries, locals.leastWait)
  if answer.count = 0 ∧ locals.timerEvent ≠ handleNull then
    pure
      { triggeredEvent := locals.timerEvent
        world := answer.world
        polled := polled
        socketGetImpl := [] }
  else if answer.count > 0 then do
    let index ← search locals.darwinHandleList locals.waitCount 0
    if index = 0 then do
      let (triggeredEvent, world) ← pollEvent locals.eventQueue answer.world answer.world.pipe
      pure
        { triggeredEvent := triggeredEvent
          world := world
          polled := polled
          socketGetImpl := [] }
    else if index < locals.waitCount then do
      let hEventHandle ← load Cell.handle? locals.ofcHandleList index
      let entry ← load Cell.pollFd? locals.darwinHandleList index
      let impl := core.socketGetImpl hEventHandle
      let world := answer.world
      pure
        { triggeredEvent := if entry.revents ≠ 0 then hEventHandle else handleNull
          world :=
            { world with
              socket := Function.update world.socket impl
                (ofcSocketImplSetEvent (world.socket impl) entry.revents) }
          polled := polled
          socketGetImpl := [hEventHandle] }
    else
      pure
        { triggeredEvent := handleNull
          world := answer.world
          polled := polled
          socketGetImpl := [] }
  else
    pure
      { triggeredEvent := handleNull
        world := answer.world
        polled := polled
        socketGetImpl := [] }

/-- The loop that empties the event queue. -/
def freeElements : List ℕ → Program Cell Unit
  | [] => pure ()
  | eventElement :: rest => do
      free eventElement
      freeElements rest

/-- `ofc_waitset_wait_impl`, on what its handle resolves to. -/
def ofcWaitsetWaitImpl (core : Core) (waitSet : Option WaitSet) (w : World) (answer : PollAnswer) :
    Program Cell Wait :=
  match waitSet with
  | none =>
      pure { triggeredEvent := handleNull, world := w, polled := none, socketGetImpl := [] }
  | some waitSet => do
      let start ← Locals.start core waitSet.pipeFile
      let (locals, w) ← scanQueue core waitSet.hHandleQueue start w.purge
      let wait ←
        if locals.triggeredEvent = handleNull then dispatch core locals answer
        else
          pure
            { triggeredEvent := locals.triggeredEvent
              world := w
              polled := none
              socketGetImpl := [] }
      freeElements locals.eventQueue
      free locals.darwinHandleList
      free locals.ofcHandleList
      pure wait

end OfcDarwin.Waitset.Memory
