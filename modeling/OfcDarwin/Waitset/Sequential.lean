import OfcDarwin.Waitset.Interleaving
import OfcDarwin.Waitset.Scan

/-!
# The scheduler left alone

Between two steps of other threads the scheduler of `Waitset/Interleaving.lean`
does what `ofc_waitset_wait_impl` does as a sequential run: from the purge it
gets to `poll` with the locals of `scanQueue`, or returns with the world that
`scanQueue` leaves (`wait_alone`), and from the return of `poll` on a readable
pipe it returns with the world that `pollEvent` leaves (`pollEvent_alone`).
-/

namespace OfcDarwin.Waitset

open Transition

variable {Thread : Type} [DecidableEq Thread] {core : Core} {pipeFile : ℤ} {capacity : ℕ}

/-- The scheduler takes `n` steps by itself. -/
def alone (n : ℕ) : List (Action Thread) := List.replicate n (.scheduler .other)

/-- The shared state with another world. -/
def Shared.setWorld (m : Shared Thread) (w : World) : Shared Thread := { m with world := w }

/-- Where the scheduler is after the scan. -/
def Scheduler.afterScan (scan : Scan) : Scheduler :=
  if scan.triggeredEvent = handleNull then .polling scan else .checking

theorem run_alone_succ {s : State Thread} {pc : Scheduler} {m : Shared Thread}
    (hnext : s.scheduler.next core pipeFile .other s.shared = some (pc, m)) (n : ℕ) :
    run (step core pipeFile capacity) s (alone (n + 1)) =
      run (step core pipeFile capacity) (s.moveScheduler pc m) (alone n) := by
  rw [alone, List.replicate_succ, run_cons, step, hnext]
  rfl

/-- Two stretches alone are one. -/
theorem run_alone_add {s t : State Thread} {n : ℕ}
    (hfirst : run (step core pipeFile capacity) s (alone n) = some t) (m : ℕ) :
    run (step core pipeFile capacity) s (alone (n + m)) =
      run (step core pipeFile capacity) t (alone m) := by
  rw [alone, List.replicate_add, run_append]
  exact congrArg (Option.bind · _) hfirst

omit [DecidableEq Thread] in
theorem round_of_quiet {m : Shared Thread} {h : Handle}
    (hquiet : (inspect core m.world h).isTriggered = false) (index : ℕ) (scan : Scan) :
    Scheduler.round core m index scan h =
      .scanning (index + 1) (scan.note h (inspect core m.world h)) := by
  rw [Scheduler.round]
  cases hfinding : inspect core m.world h with
  | triggered consumed =>
      rw [hfinding] at hquiet
      exact absurd hquiet (by simp [Finding.isTriggered])
  | _ => rfl

/-- The purge. -/
theorem purge_alone {s : State Thread} (hpc : s.scheduler = .purging) :
    run (step core pipeFile capacity) s (alone (s.shared.world.pipe.length + 1)) =
      some (s.moveScheduler (.scanning 0 (Scan.start core pipeFile))
        (s.shared.setWorld s.shared.world.purge)) := by
  generalize hpipe : s.shared.world.pipe = pipe
  induction pipe generalizing s with
  | nil =>
      have hnext : s.scheduler.next core pipeFile .other s.shared =
          some (.scanning 0 (Scan.start core pipeFile), s.shared) := by
        rw [hpc, Scheduler.next, hpipe]
      rw [run_alone_succ hnext]
      have hpurge : s.shared.setWorld s.shared.world.purge = s.shared := by
        rw [Shared.setWorld, World.purge, ← hpipe]
      rw [hpurge]
      rfl
  | cons hEvent rest ih =>
      have hnext : s.scheduler.next core pipeFile .other s.shared =
          some (.purging, s.shared.setPipe rest) := by
        rw [hpc, Scheduler.next, hpipe]
      rw [run_alone_succ hnext]
      exact ih rfl rfl

/-- The scan, from any of its rounds on. -/
theorem scan_alone (rest : List Handle) {s : State Thread} {index : ℕ} {scan : Scan}
    (hpc : s.scheduler = .scanning index scan) (hrest : s.shared.hHandleQueue.drop index = rest)
    (hfree : ∀ h, s.shared.mutex h = none) (hscan : scan.triggeredEvent = handleNull) :
    ∃ n, run (step core pipeFile capacity) s (alone n) =
      some (s.moveScheduler (.afterScan (scanQueue core rest scan s.shared.world).1)
        (s.shared.setWorld (scanQueue core rest scan s.shared.world).2)) := by
  induction rest generalizing s index scan with
  | nil =>
      refine ⟨1, ?_⟩
      have hend : s.shared.hHandleQueue[index]? = none :=
        List.getElem?_eq_none_iff.mpr (List.drop_eq_nil_iff.mp hrest)
      have hnext : s.scheduler.next core pipeFile .other s.shared =
          some (.polling scan, s.shared) := by
        rw [hpc, Scheduler.next, hend]
      rw [run_alone_succ hnext, scanQueue, Scheduler.afterScan, if_pos hscan]
      rfl
  | cons h rest ih =>
      have hget : s.shared.hHandleQueue[index]? = some h := by
        rw [← List.head?_drop, hrest]
        rfl
      by_cases hpresent : h = handleNull
      · refine ⟨1, ?_⟩
        have hnext : s.scheduler.next core pipeFile .other s.shared =
            some (.polling scan, s.shared) := by
          rw [hpc, Scheduler.next, hget]
          exact if_pos hpresent
        rw [run_alone_succ hnext, scanQueue, if_neg (fun hboth => hboth.1 hpresent),
          Scheduler.afterScan, if_pos hscan]
        rfl
      · have htested : (testedEvent core h).all s.shared.free = true := by
          cases testedEvent core h with
          | none => rfl
          | some hEvent => rw [Option.all_some, Shared.free, hfree]; rfl
        have hnext : s.scheduler.next core pipeFile .other s.shared =
            some (.round core s.shared index scan h, s.shared) := by
          rw [hpc, Scheduler.next, hget]
          simp only
          rw [if_neg hpresent, if_pos htested]
        rw [scanQueue, if_pos ⟨hpresent, hscan⟩]
        cases hquiet : (inspect core s.shared.world h).isTriggered with
        | false =>
            rw [round_of_quiet hquiet] at hnext
            rw [World.note_of_quiet hquiet]
            have hnone := (Scan.note_triggeredEvent hquiet scan h).trans hscan
            have hdrop : s.shared.hHandleQueue.drop (index + 1) = rest := by
              rw [← List.tail_drop, hrest, List.tail_cons]
            obtain ⟨n, hrun⟩ := @ih (s.moveScheduler _ s.shared) (index + 1) _ rfl hdrop hfree hnone
            exact ⟨n + 1, (run_alone_succ hnext n).trans hrun⟩
        | true =>
            obtain ⟨consumed, hfinding⟩ := Finding.exists_triggered hquiet
            rw [hfinding, Scan.note, scanQueue_of_triggered hpresent, Scheduler.afterScan,
              if_neg hpresent]
            rw [Scheduler.round, hfinding] at hnext
            cases consumed with
            | false => exact ⟨1, run_alone_succ hnext 0⟩
            | true =>
                simp only [World.note, World.consume]
                by_cases hauto : s.shared.world.eventGetType h = .auto
                · simp only [if_pos hauto] at hnext ⊢
                  refine ⟨2, ?_⟩
                  rw [run_alone_succ hnext]
                  have hreset : (s.moveScheduler (.resetting h) s.shared).scheduler.next core
                      pipeFile .other s.shared = some (.checking, s.shared.eventReset h) := by
                    show Scheduler.next core pipeFile .other s.shared (.resetting h) = _
                    rw [Scheduler.next, Shared.free, hfree]
                    rfl
                  exact run_alone_succ hreset 0
                · simp only [if_neg hauto] at hnext ⊢
                  exact ⟨1, run_alone_succ hnext 0⟩

/-- A wait that nobody interferes with gets to `poll` with the locals of the
sequential scan, or returns with its world. -/
theorem wait_alone {s : State Thread} (hpc : s.scheduler = .purging)
    (hfree : ∀ h, s.shared.mutex h = none) :
    ∃ n, run (step core pipeFile capacity) s (alone n) =
      some (s.moveScheduler
        (.afterScan (scanQueue core s.shared.hHandleQueue (Scan.start core pipeFile)
          s.shared.world.purge).1)
        (s.shared.setWorld (scanQueue core s.shared.hHandleQueue (Scan.start core pipeFile)
          s.shared.world.purge).2)) := by
  obtain ⟨n, hrun⟩ := @scan_alone Thread _ core pipeFile capacity s.shared.hHandleQueue
    (s.moveScheduler (.scanning 0 (Scan.start core pipeFile))
      (s.shared.setWorld s.shared.world.purge)) 0 _ rfl rfl hfree rfl
  refine ⟨s.shared.world.pipe.length + 1 + n, ?_⟩
  calc run (step core pipeFile capacity) s (alone (s.shared.world.pipe.length + 1 + n))
      = run (step core pipeFile capacity)
          (s.moveScheduler (.scanning 0 (Scan.start core pipeFile))
            (s.shared.setWorld s.shared.world.purge)) (alone n) := run_alone_add (purge_alone hpc) n
    _ = _ := hrun

/-! ## The messages -/

/-- The test of an event that a message names, and its reset if that is due. -/
theorem test_alone {s : State Thread} {scan : Scan} {element : EventElement}
    (hpc : s.scheduler = .testing scan element) (hfree : ∀ h, s.shared.mutex h = none) :
    ∃ n, run (step core pipeFile capacity) s (alone n) =
      some (if s.shared.world.eventTest element.hEvent then
        s.moveScheduler (if element.hAssoc = handleNull then .reading scan else .checking)
          (s.shared.setWorld (s.shared.world.consume element.hEvent))
        else s.moveScheduler (.reading scan) s.shared) := by
  have hlock : s.shared.free element.hEvent = true := by
    rw [Shared.free, hfree]
    rfl
  have hnext : s.scheduler.next core pipeFile .other s.shared = some
      (if s.shared.world.eventTest element.hEvent then
        if s.shared.world.eventGetType element.hEvent = .auto then .consuming scan element
        else if element.hAssoc = handleNull then .reading scan
        else .checking
      else .reading scan, s.shared) := by
    rw [hpc, Scheduler.next, if_pos hlock]
  by_cases htest : s.shared.world.eventTest element.hEvent
  swap
  · rw [if_neg htest] at hnext ⊢
    exact ⟨1, run_alone_succ hnext 0⟩
  rw [if_pos htest] at hnext ⊢
  rw [World.consume]
  by_cases hauto : s.shared.world.eventGetType element.hEvent = .auto
  · rw [if_pos hauto] at hnext ⊢
    have hreset : (s.moveScheduler (.consuming scan element) s.shared).scheduler.next core pipeFile
        .other s.shared = some
          (if element.hAssoc = handleNull then .reading scan else .checking,
            s.shared.eventReset element.hEvent) := by
      show Scheduler.next core pipeFile .other s.shared (.consuming scan element) = _
      rw [Scheduler.next, if_pos hlock]
    exact ⟨2, (run_alone_succ hnext 1).trans (run_alone_succ hreset 0)⟩
  · rw [if_neg hauto] at hnext ⊢
    exact ⟨1, run_alone_succ hnext 0⟩

/-- The reads of `PollEvent`, from the return of `poll` on. -/
theorem pollEvent_alone (messages : List Handle) {s : State Thread} {scan : Scan}
    (hpc : s.scheduler = .reading scan) (hpipe : s.shared.world.pipe = messages)
    (hfree : ∀ h, s.shared.mutex h = none) :
    ∃ n, run (step core pipeFile capacity) s (alone n) =
      some (s.moveScheduler .checking
        (s.shared.setWorld (pollEvent scan.eventQueue s.shared.world messages).2)) := by
  induction messages generalizing s with
  | nil =>
      refine ⟨1, ?_⟩
      have hnext : s.scheduler.next core pipeFile .other s.shared = some (.checking, s.shared) := by
        rw [hpc, Scheduler.next, hpipe]
      have hempty : s.shared.setWorld { s.shared.world with pipe := [] } = s.shared := by
        rw [Shared.setWorld, ← hpipe]
      rw [run_alone_succ hnext, pollEvent, hempty]
      rfl
  | cons hEvent rest ih =>
      -- after `k` steps the reading goes on in the world `next`
      have hagain : ∀ (k : ℕ) (next : World),
          run (step core pipeFile capacity) s (alone k) = some
            (s.moveScheduler (.reading scan) (s.shared.setWorld { next with pipe := rest })) →
          ∃ n, run (step core pipeFile capacity) s (alone n) =
            some (s.moveScheduler .checking
              (s.shared.setWorld (pollEvent scan.eventQueue next rest).2)) := by
        intro k next hfirst
        obtain ⟨n, hrun⟩ := @ih (s.moveScheduler (.reading scan)
          (s.shared.setWorld { next with pipe := rest })) rfl rfl hfree
        refine ⟨k + n, (run_alone_add hfirst n).trans (hrun.trans ?_)⟩
        rw [← pollEvent_setPipe scan.eventQueue next rest]
        rfl
      rw [pollEvent]
      by_cases hwake : hEvent = handleNull
      · refine ⟨1, ?_⟩
        have hnext : s.scheduler.next core pipeFile .other s.shared =
            some (.checking, s.shared.setPipe rest) := by
          rw [hpc, Scheduler.next, hpipe]
          exact if_pos hwake
        rw [run_alone_succ hnext, if_pos hwake]
        rfl
      rw [if_neg hwake]
      cases hfind : scan.eventQueue.find? (·.hEvent = hEvent) with
      | none =>
          have hnext : s.scheduler.next core pipeFile .other s.shared =
              some (.reading scan, s.shared.setPipe rest) := by
            rw [hpc, Scheduler.next, hpipe]
            simp only
            rw [if_neg hwake, hfind]
          exact hagain 1 s.shared.world (run_alone_succ hnext 0)
      | some element =>
          have hnext : s.scheduler.next core pipeFile .other s.shared =
              some (.testing scan element, s.shared.setPipe rest) := by
            rw [hpc, Scheduler.next, hpipe]
            simp only
            rw [if_neg hwake, hfind]
          obtain ⟨k, htest⟩ := @test_alone Thread _ core pipeFile capacity
            (s.moveScheduler (.testing scan element) (s.shared.setPipe rest)) scan element rfl hfree
          obtain rfl : element.hEvent = hEvent := by simpa using List.find?_some hfind
          have hhead : run (step core pipeFile capacity) s (alone (k + 1)) = some
              (if s.shared.world.eventTest element.hEvent then
                s.moveScheduler (if element.hAssoc = handleNull then .reading scan else .checking)
                  (s.shared.setWorld { s.shared.world.consume element.hEvent with pipe := rest })
              else s.moveScheduler (.reading scan) (s.shared.setPipe rest)) := by
            rw [← consume_setPipe]
            exact (run_alone_succ hnext k).trans htest
          simp only
          by_cases hsignalled : s.shared.world.eventTest element.hEvent
          · rw [if_pos hsignalled] at hhead ⊢
            -- an element without an owner is consumed, and the next message is read
            by_cases hassoc : element.hAssoc = handleNull
            · rw [if_pos hassoc] at hhead ⊢
              exact hagain (k + 1) (s.shared.world.consume element.hEvent) hhead
            · rw [if_neg hassoc] at hhead ⊢
              exact ⟨k + 1, hhead⟩
          · rw [if_neg hsignalled] at hhead ⊢
            exact hagain (k + 1) s.shared.world hhead

end OfcDarwin.Waitset
