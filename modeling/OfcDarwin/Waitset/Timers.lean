import OfcDarwin.Lib.LeastSoFar
import OfcDarwin.Waitset.Soundness

/-!
# Timers of a wait

The scan keeps the least wait time of the timers it passes, below the cap
`OFC_MAX_SCHED_WAIT`, and the timer it belongs to.  `Timed.note` is one round of the
loop as one of the three rounds of `Lib/LeastSoFar.lean`, and `timed_noteAll` the loop.
`wait_timers` follows the two values through the answer of `poll`.
-/

namespace OfcDarwin.Waitset

/-! ## What the scan makes of a timer -/

variable {core : Core} {w : World}

theorem inspect_timer {h : Handle} (htype : core.handleGetType h = .timer) :
    inspect core w h =
      if w.waitTime h = 0 then .triggered false else .timer (w.waitTime h) := by
  rw [inspect, htype]

/-- The wait times of the handles that are not ready are those of the timers. -/
theorem waitTime_eq_some_iff {h : Handle} (hquiet : (inspect core w h).isTriggered = false)
    (waitTime : ℤ) :
    (inspect core w h).waitTime? = some waitTime ↔
      core.handleGetType h = .timer ∧ w.waitTime h = waitTime := by
  constructor
  · intro hwait
    cases hfinding : inspect core w h with
    | timer own =>
        rw [hfinding] at hwait
        obtain rfl := Option.some.inj hwait
        exact timer_of_finding hfinding
    | _ =>
        rw [hfinding] at hwait
        cases hwait
  · rintro ⟨htype, rfl⟩
    exact finding_of_timer htype hquiet

/-! ## The least wait time -/

/-- The timer the scan has kept, if any. -/
def Scan.timer? (scan : Scan) : Option Handle :=
  if scan.timerEvent = handleNull then none else some scan.timerEvent

/-- The handles `visited` have left their least wait time, and its timer, in the
locals of the scan. -/
def Timed (core : Core) (w : World) (visited : List Handle) (scan : Scan) : Prop :=
  LeastSoFar (fun h => (inspect core w h).waitTime?) core.maxSchedWait visited scan.leastWait
    scan.timer?

theorem start_timed (pipeFile : ℤ) : Timed core w [] (Scan.start core pipeFile) :=
  LeastSoFar.nil _ _

/-- One round of the loop over a handle that is not ready. -/
theorem Timed.note {visited : List Handle} {scan : Scan} {h : Handle}
    (htimed : Timed core w visited scan) (hpresent : h ≠ handleNull) :
    Timed core w (visited ++ [h]) (scan.note h (inspect core w h)) := by
  cases hfinding : inspect core w h with
  | timer waitTime =>
      have hvalue : (inspect core w h).waitTime? = some waitTime := by
        rw [hfinding]
        rfl
      rw [Scan.note]
      split
      · rename_i hless
        have htimer : Scan.timer? { scan with leastWait := waitTime, timerEvent := h } = some h :=
          if_neg hpresent
        rw [Timed, htimer]
        exact LeastSoFar.lower htimed hvalue hless
      · rename_i hnot
        exact LeastSoFar.keep htimed hvalue hnot
  | _ =>
      refine LeastSoFar.skip htimed ?_
      show (inspect core w h).waitTime? = none
      rw [hfinding]
      rfl

/-- A loop that passes all handles. -/
theorem timed_noteAll (queue : List Handle) (pipeFile : ℤ) :
    Timed core w (members queue) (noteAll core w (members queue) (Scan.start core pipeFile)) :=
  noteAll_induction (fun _ _ _ hmem htimed => htimed.note (ne_null_of_mem_members hmem))
    (start_timed pipeFile)

/-! ## The wait -/

theorem dispatch_polled (scan : Scan) (answer : PollAnswer) :
    (dispatch core scan answer).polled = some (scan.darwinHandleList, scan.leastWait) := by
  unfold dispatch
  simp only
  repeat' split
  all_goals rfl

/-- A poll that times out returns the timer of the scan, or nothing. -/
theorem dispatch_timeout (scan : Scan) {answer : PollAnswer} (hcount : answer.count = 0) :
    (dispatch core scan answer).triggeredEvent = scan.timerEvent := by
  unfold dispatch
  simp only
  split
  · rfl
  · rename_i hnone
    rw [if_neg (by omega)]
    by_contra htimer
    exact hnone ⟨hcount, Ne.symm htimer⟩

/-- A wait that polls has passed every handle of the set without stopping. -/
theorem polled_cases {waitSet : WaitSet} {answer : PollAnswer} {polled : List PollFd × ℤ}
    (hpolled : (ofcWaitsetWaitImpl core (some waitSet) w answer).polled = some polled) :
    ∃ scan, Scanned core w waitSet.pipeFile (members waitSet.hHandleQueue) scan ∧
      Timed core w (members waitSet.hHandleQueue) scan ∧
      polled = (scan.darwinHandleList, scan.leastWait) ∧
      ofcWaitsetWaitImpl core (some waitSet) w answer = dispatch core scan answer := by
  rcases wait_scan core waitSet w answer with ⟨hquiet, hwait⟩ |
    ⟨-, h, -, consumed, -, -, -, -, hwait⟩
  · rw [hwait, dispatch_polled] at hpolled
    exact ⟨_, scanned_noteAll hquiet, timed_noteAll waitSet.hHandleQueue waitSet.pipeFile,
      (Option.some.inj hpolled).symm, hwait⟩
  · rw [hwait] at hpolled
    cases hpolled

/-- A wait that ends otherwise than by its timeout returns no timer. -/
theorem Outcome.not_timer {waitSet : WaitSet} {answer : PollAnswer} {wait : Wait}
    (houtcome : Outcome core waitSet w answer wait) (hpolled : wait.polled.isSome = true)
    (hcount : answer.count ≠ 0) :
    wait.triggeredEvent = handleNull ∨ core.handleGetType wait.triggeredEvent ≠ .timer := by
  have hother : ∀ h finding, inspect core w h = finding → finding.isTriggered = false →
      finding.waitTime? = none → core.handleGetType h ≠ .timer := by
    intro h finding hfinding hquiet hnone htype
    have hwait := (waitTime_eq_some_iff (hfinding ▸ hquiet) _).mpr ⟨htype, rfl⟩
    rw [hfinding, hnone] at hwait
    cases hwait
  cases houtcome with
  | ready => cases hpolled
  | expired _ hzero _ => exact absurd hzero hcount
  | message _ _ _ _ hfinding _ => exact Or.inr (hother _ _ hfinding rfl rfl)
  | descriptor _ _ _ hfinding _ _ _ _ => exact Or.inr (hother _ _ hfinding rfl rfl)
  | idle => exact Or.inl rfl

/-- The wait times of the timers among some handles. -/
def timerWaits (core : Core) (w : World) (handles : List Handle) : Set ℤ :=
  {waitTime | ∃ h ∈ handles, core.handleGetType h = .timer ∧ w.waitTime h = waitTime}

/-- `h` is the first timer among some handles that waits for `waitTime` or less. -/
def FirstTimer (core : Core) (w : World) (handles : List Handle) (h : Handle) (waitTime : ℤ) :
    Prop :=
  ∃ before after, handles = before ++ h :: after ∧ core.handleGetType h = .timer ∧
    w.waitTime h = waitTime ∧ ∀ g ∈ before, core.handleGetType g = .timer → waitTime < w.waitTime g

theorem Scanned.timerWaits {pipeFile : ℤ} {visited : List Handle} {scan : Scan}
    (hscanned : Scanned core w pipeFile visited scan) :
    timerWaits core w visited =
      LeastSoFar.values (fun h => (inspect core w h).waitTime?) visited := by
  ext waitTime
  constructor
  · rintro ⟨h, hmem, htimer⟩
    exact ⟨h, hmem, (waitTime_eq_some_iff (hscanned.quiet h hmem) waitTime).mpr htimer⟩
  · rintro ⟨h, hmem, htimer⟩
    exact ⟨h, hmem, (waitTime_eq_some_iff (hscanned.quiet h hmem) waitTime).mp htimer⟩

theorem Scanned.firstTimer {pipeFile : ℤ} {visited : List Handle} {scan : Scan}
    (hscanned : Scanned core w pipeFile visited scan) {h : Handle} {waitTime : ℤ}
    (hfirst : LeastSoFar.First (fun h => (inspect core w h).waitTime?) visited h waitTime) :
    FirstTimer core w visited h waitTime := by
  obtain ⟨before, after, hsplit, hvalue, hearlier⟩ := hfirst
  have hquiet : ∀ g ∈ before ++ h :: after, (inspect core w g).isTriggered = false := by
    rw [← hsplit]
    exact hscanned.quiet
  obtain ⟨htype, hwait⟩ := (waitTime_eq_some_iff (hquiet h (by simp)) waitTime).mp hvalue
  refine ⟨before, after, hsplit, htype, hwait, fun g hmem hg => ?_⟩
  exact hearlier g hmem _
    ((waitTime_eq_some_iff (hquiet g (List.mem_append_left _ hmem)) _).mpr ⟨hg, rfl⟩)

/-- When a wait polls, no timer of the set was due; the timeout is the least of
`OFC_MAX_SCHED_WAIT` and the wait times; a poll that returns 0 gives the first timer
with the least wait time, if that is below `OFC_MAX_SCHED_WAIT`, and nothing
otherwise; and any other answer gives no timer. -/
theorem wait_timers {waitSet : WaitSet} {answer : PollAnswer} {entries : List PollFd} {timeout : ℤ}
    (hpolled : (ofcWaitsetWaitImpl core (some waitSet) w answer).polled = some (entries, timeout)) :
    let handles := members waitSet.hHandleQueue
    let triggeredEvent := (ofcWaitsetWaitImpl core (some waitSet) w answer).triggeredEvent
    (∀ h ∈ handles, core.handleGetType h = .timer → w.waitTime h ≠ 0) ∧
      IsLeast (insert core.maxSchedWait (timerWaits core w handles)) timeout ∧
      (answer.count = 0 →
        (timeout < core.maxSchedWait → FirstTimer core w handles triggeredEvent timeout) ∧
        (¬ timeout < core.maxSchedWait → triggeredEvent = handleNull)) ∧
      (answer.count ≠ 0 →
        triggeredEvent = handleNull ∨ core.handleGetType triggeredEvent ≠ .timer) := by
  obtain ⟨scan, hscanned, htimed, heq, hdispatch⟩ := polled_cases hpolled
  obtain ⟨rfl, rfl⟩ := Prod.mk.inj heq
  refine ⟨?_, ?_, ?_, ?_⟩
  · intro h hmem htype hzero
    have hquiet := hscanned.quiet h hmem
    rw [inspect_timer htype, if_pos hzero] at hquiet
    cases hquiet
  · rw [hscanned.timerWaits]
    exact htimed.isLeast
  · intro hcount
    rw [hdispatch, dispatch_timeout scan hcount]
    rcases htimed.attained with ⟨hnone, hcap⟩ | ⟨h, hsome, hless, hfirst⟩
    · refine ⟨fun hless => absurd hless (by rw [hcap]; exact lt_irrefl _), fun _ => ?_⟩
      by_contra htimer
      rw [Scan.timer?, if_neg htimer] at hnone
      cases hnone
    · refine ⟨fun _ => ?_, fun hnot => absurd hless hnot⟩
      rw [Scan.timer?] at hsome
      split at hsome
      · cases hsome
      · obtain rfl := Option.some.inj hsome
        exact hscanned.firstTimer hfirst
  · intro hcount
    exact (wait_cases core waitSet w answer).not_timer (by rw [hpolled]; rfl) hcount

/-- A socket and a timer of 500 ms. -/
theorem wait_timers_example :
    FirstTimer exampleCore exampleWorld [3, 2]
      (ofcWaitsetWaitImpl exampleCore (some { hHandleQueue := [3, 2], pipeFile := 5 }) exampleWorld
        { count := 0, revents := fun _ => 0, world := exampleWorld }).triggeredEvent 500 :=
  ((@wait_timers exampleCore exampleWorld { hHandleQueue := [3, 2], pipeFile := 5 }
    { count := 0, revents := fun _ => 0, world := exampleWorld } _ 500 rfl).2.2.1 rfl).1 (by decide)

end OfcDarwin.Waitset
