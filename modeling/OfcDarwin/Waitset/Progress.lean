import OfcDarwin.Waitset.NoLostEvent

/-!
# Nobody is stuck

The threads of a wait set wait for each other in two places: at the mutex of an event
and, as far as the scheduler goes, in `poll`.  A thread that holds a mutex is in
`ofc_event_set_impl`, between the lock and the unlock, and what it does there is to
look the wait set up and to write to the pipe.  `ofc_waitset_create_impl` has made the
pipe non-blocking, so the write ends also when the pipe is full and the scheduler, who
would empty it, is itself waiting for the mutex.

So whoever holds a mutex is done with it in at most three steps of its own
(`run_unlock`), and from any reachable state every thread can be brought to the end of
its operation without the scheduler, the deleter or the environment taking a step
(`never_stuck`).
-/

namespace OfcDarwin.Waitset

open Transition

variable {Thread : Type} {core : Core} {pipeFile : ℤ} {capacity : ℕ}

/-! ## Who holds a mutex -/

/-- The event whose mutex a thread holds. -/
def Client.holding : Client → Option Handle
  | .stored hEvent | .signalling hEvent | .unlocking hEvent => some hEvent
  | _ => none

/-- The mutexes are held by the threads that are inside their critical sections. -/
def Exclusive (s : State Thread) : Prop :=
  ∀ t hEvent, s.shared.mutex hEvent = some t ↔ (s.client t).holding = some hEvent

/-- What a step of a thread does to the mutexes. -/
inductive Locking [DecidableEq Thread] (t : Thread) (m : Shared Thread) (pc : Client)
    (m' : Shared Thread) (pc' : Client) : Prop where
  | keep (hholding : pc'.holding = pc.holding) (hmutex : m'.mutex = m.mutex)
  | lock {hEvent : Handle} (hbefore : pc.holding = none) (hafter : pc'.holding = some hEvent)
      (hfree : m.free hEvent = true)
      (hmutex : m'.mutex = Function.update m.mutex hEvent (some t))
  | unlock {hEvent : Handle} (hbefore : pc.holding = some hEvent) (hafter : pc'.holding = none)
      (hmutex : m'.mutex = Function.update m.mutex hEvent none)

theorem signal_mutex (m : Shared Thread) (hEvent : Handle) :
    (m.signal capacity hEvent).mutex = m.mutex := by
  obtain ⟨pipe, heq⟩ := m.signal_eq_setPipe capacity hEvent
  rw [heq]
  rfl

theorem signal_queue (m : Shared Thread) (hEvent : Handle) :
    (m.signal capacity hEvent).hHandleQueue = m.hHandleQueue := by
  obtain ⟨pipe, heq⟩ := m.signal_eq_setPipe capacity hEvent
  rw [heq]
  rfl

theorem start_mutex {op : Op} {m m' : Shared Thread} {pc' : Client}
    (hstart : op.start m core = some (pc', m')) :
    pc'.holding = none ∧ m'.mutex = m.mutex := by
  cases op <;> rw [Op.start] at hstart
  case reset hEvent =>
    rw [Option.ite_none_right_eq_some] at hstart
    obtain ⟨rfl, rfl⟩ := Prod.mk.inj (Option.some.inj hstart.2)
    exact ⟨rfl, rfl⟩
  case add hEvent =>
    rw [Option.ite_none_left_eq_some] at hstart
    obtain ⟨rfl, rfl⟩ := Prod.mk.inj (Option.some.inj hstart.2)
    exact ⟨rfl, rfl⟩
  all_goals
    obtain ⟨rfl, rfl⟩ := Prod.mk.inj (Option.some.inj hstart)
    exact ⟨rfl, rfl⟩

theorem next_locking [DecidableEq Thread] {t : Thread} {m m' : Shared Thread} {pc pc' : Client}
    (hnext : pc.next core capacity t m = some (pc', m')) : Locking t m pc m' pc' := by
  cases pc <;> rw [Client.next] at hnext
  case idle => exact absurd hnext (by simp)
  case setting hEvent =>
    split at hnext
    · obtain ⟨rfl, rfl⟩ := Prod.mk.inj (Option.some.inj hnext)
      exact .keep rfl rfl
    · rw [Option.ite_none_right_eq_some] at hnext
      obtain ⟨rfl, rfl⟩ := Prod.mk.inj (Option.some.inj hnext.2)
      exact .lock rfl rfl hnext.1 rfl
  case stored hEvent =>
    obtain ⟨rfl, rfl⟩ := Prod.mk.inj (Option.some.inj hnext)
    refine .keep ?_ rfl
    split <;> rfl
  case signalling hEvent =>
    obtain ⟨rfl, rfl⟩ := Prod.mk.inj (Option.some.inj hnext)
    exact .keep rfl (signal_mutex m hEvent)
  case unlocking hEvent =>
    obtain ⟨rfl, rfl⟩ := Prod.mk.inj (Option.some.inj hnext)
    exact .unlock rfl rfl rfl
  case associating hEvent =>
    split at hnext
    all_goals
      obtain ⟨rfl, rfl⟩ := Prod.mk.inj (Option.some.inj hnext)
      exact .keep rfl rfl
  case looking hEvent hAssoc =>
    rw [Option.ite_none_right_eq_some] at hnext
    obtain ⟨rfl, rfl⟩ := Prod.mk.inj (Option.some.inj hnext.2)
    refine .keep ?_ rfl
    split <;> rfl
  case notifying hAssoc =>
    obtain ⟨rfl, rfl⟩ := Prod.mk.inj (Option.some.inj hnext)
    exact .keep rfl (signal_mutex m hAssoc)

theorem scheduler_mutex {reason : PollReturn} {m m' : Shared Thread} {pc pc' : Scheduler}
    (hnext : pc.next core pipeFile reason m = some (pc', m')) : m'.mutex = m.mutex := by
  rcases scheduler_shared hnext with rfl | ⟨-, rfl⟩ | ⟨rest, rfl⟩ | ⟨hEvent, rfl⟩ <;> rfl

theorem deleter_mutex {m m' : Shared Thread} {pc pc' : Deleter}
    (hnext : pc.next capacity m = some (pc', m')) : m'.mutex = m.mutex := by
  cases pc <;> rw [Deleter.next] at hnext
  case waking =>
    obtain ⟨-, rfl⟩ := Prod.mk.inj (Option.some.inj hnext)
    exact signal_mutex m handleNull
  case done => exact absurd hnext (by simp)
  all_goals
    obtain ⟨-, rfl⟩ := Prod.mk.inj (Option.some.inj hnext)
    rfl

/-! ## The invariant -/

theorem Exclusive.of_eq {s u : State Thread} (hexclusive : Exclusive s)
    (hclient : u.client = s.client) (hmutex : u.shared.mutex = s.shared.mutex) :
    Exclusive u := by
  intro t hEvent
  rw [hclient, hmutex]
  exact hexclusive t hEvent

theorem initial_exclusive {s : State Thread} (hinitial : Initial core s) : Exclusive s := by
  intro t hEvent
  rw [hinitial.free, hinitial.client]
  exact ⟨nofun, nofun⟩

variable [DecidableEq Thread]

theorem holding_moveClient (s : State Thread) (t other : Thread) (pc : Client)
    (m : Shared Thread) : ((s.moveClient t pc m).client other).holding =
      if other = t then pc.holding else (s.client other).holding := by
  show (Function.update s.client t pc other).holding = _
  rw [Function.update_apply]
  split <;> rfl

theorem Exclusive.moveClient {s : State Thread} (hexclusive : Exclusive s) {t : Thread}
    {pc' : Client} {m' : Shared Thread} (hlocking : Locking t s.shared (s.client t) m' pc') :
    Exclusive (s.moveClient t pc' m') := by
  intro other hEvent
  rw [holding_moveClient]
  show m'.mutex hEvent = some other ↔ _
  cases hlocking with
  | keep hholding hmutex =>
      rw [hmutex, hholding]
      split
      · rename_i heq
        rw [heq]
        exact hexclusive t hEvent
      · exact hexclusive other hEvent
  | @lock taken hbefore hafter hfree hmutex =>
      -- nobody else held the mutex, as it was free
      have hnone : s.shared.mutex taken = none := by simpa [Shared.free] using hfree
      rw [hmutex, hafter, Function.update_apply]
      by_cases hsame : hEvent = taken
      · subst hsame
        rw [if_pos rfl]
        by_cases hself : other = t
        · rw [if_pos hself, hself]
          exact ⟨fun _ => rfl, fun _ => rfl⟩
        · rw [if_neg hself, ← hexclusive other hEvent, hnone]
          simp [Ne.symm hself]
      · rw [if_neg hsame]
        by_cases hself : other = t
        · rw [if_pos hself, hself, hexclusive t hEvent, hbefore]
          simp [Ne.symm hsame]
        · rw [if_neg hself]
          exact hexclusive other hEvent
  | @unlock given hbefore hafter hmutex =>
      have hheld := (hexclusive t given).mpr hbefore
      rw [hmutex, hafter, Function.update_apply]
      by_cases hsame : hEvent = given
      · subst hsame
        rw [if_pos rfl]
        by_cases hself : other = t
        · rw [if_pos hself]
          simp
        · rw [if_neg hself, ← hexclusive other hEvent, hheld]
          simp [Ne.symm hself]
      · rw [if_neg hsame]
        by_cases hself : other = t
        · rw [if_pos hself, hself, hexclusive t hEvent, hbefore]
          simp [Ne.symm hsame]
        · rw [if_neg hself]
          exact hexclusive other hEvent

theorem step_exclusive (s : State Thread) (a : Action Thread) (u : State Thread)
    (hexclusive : Exclusive s) (hstep : step core pipeFile capacity s a = some u) :
    Exclusive u := by
  cases a with
  | scheduler reason =>
      obtain ⟨pc, m, hnext, rfl⟩ := scheduler_inv hstep
      exact hexclusive.of_eq rfl (scheduler_mutex hnext)
  | call t op =>
      obtain ⟨hidle, pc, m, hstart, rfl⟩ := call_inv hstep
      obtain ⟨hholding, hmutex⟩ := start_mutex hstart
      refine hexclusive.moveClient (.keep ?_ hmutex)
      rw [hholding, hidle]
      rfl
  | client t =>
      obtain ⟨pc, m, hnext, rfl⟩ := client_inv hstep
      exact hexclusive.moveClient (next_locking hnext)
  | deleter =>
      obtain ⟨pc, m, hnext, rfl⟩ := deleter_inv hstep
      exact hexclusive.of_eq rfl (deleter_mutex hnext)
  | environment waitTime socket =>
      rw [environment_inv hstep]
      exact hexclusive.of_eq rfl rfl

/-! ## The end of an operation -/

/-- The event whose mutex has to be free for the next step of a thread. -/
def Client.needs : Client → Option Handle
  | .setting hEvent => some hEvent
  | .looking _ hAssoc => some hAssoc
  | _ => none

/-- What is left of an operation, with the three steps of another thread that it may have
to wait for. -/
def Client.work : Client → ℕ
  | .idle => 0
  | .setting _ => 7
  | .stored _ => 3
  | .signalling _ => 2
  | .unlocking _ => 1
  | .associating _ => 6
  | .looking _ _ => 5
  | .notifying _ => 1

omit [DecidableEq Thread] in
theorem work_le (pc : Client) : pc.work ≤ 7 := by
  cases pc <;> simp [Client.work]

/-- A thread whose mutex is free goes on, and after a mutex there is no other to wait
for. -/
theorem exists_next {pc : Client} (hbusy : pc ≠ .idle) {m : Shared Thread}
    (hfree : ∀ hEvent ∈ pc.needs, m.free hEvent = true) (t : Thread) :
    ∃ pc' m', pc.next core capacity t m = some (pc', m') ∧ m'.hHandleQueue = m.hHandleQueue ∧
      pc'.work + (if pc.needs.isSome then 4 else 1) ≤ pc.work := by
  cases pc with
  | idle => exact absurd rfl hbusy
  | setting hEvent =>
      rw [Client.next]
      cases hevent : m.world.event hEvent with
      | none => exact ⟨_, _, rfl, rfl, by simp [Client.work, Client.needs]⟩
      | some event =>
          exact ⟨_, _, if_pos (hfree hEvent rfl), rfl, by simp [Client.work, Client.needs]⟩
  | stored hEvent =>
      refine ⟨_, _, rfl, rfl, ?_⟩
      split <;> simp [Client.work, Client.needs]
  | signalling hEvent =>
      exact ⟨_, _, rfl, signal_queue m hEvent, by simp [Client.work, Client.needs]⟩
  | unlocking hEvent => exact ⟨_, _, rfl, rfl, by simp [Client.work, Client.needs]⟩
  | associating hEvent =>
      rw [Client.next]
      cases addAssoc core hEvent with
      | none => exact ⟨_, _, rfl, rfl, by simp [Client.work, Client.needs]⟩
      | some hAssoc => exact ⟨_, _, rfl, rfl, by simp [Client.work, Client.needs]⟩
  | looking hEvent hAssoc =>
      refine ⟨_, _, if_pos (Or.inr (hfree hAssoc rfl)), rfl, ?_⟩
      split <;> simp [Client.work, Client.needs]
  | notifying hAssoc =>
      exact ⟨_, _, rfl, signal_queue m hAssoc, by simp [Client.work, Client.needs]⟩

/-- A thread that holds a mutex needs no other, and goes on until it gives it back. -/
theorem exists_next_of_holding {pc : Client} {hEvent : Handle}
    (hholding : pc.holding = some hEvent) (m : Shared Thread) (t : Thread) :
    ∃ pc' m', pc.next core capacity t m = some (pc', m') ∧ m'.hHandleQueue = m.hHandleQueue ∧
      pc'.work < pc.work ∧ pc.work ≤ 3 ∧
      (pc'.holding = some hEvent ∨ pc' = .idle ∧ m'.free hEvent = true) := by
  cases pc with
  | stored stored =>
      obtain rfl := Option.some.inj hholding
      refine ⟨_, _, rfl, rfl, ?_, by simp [Client.work], Or.inl ?_⟩
      · split <;> simp [Client.work]
      · split <;> rfl
  | signalling signalled =>
      obtain rfl := Option.some.inj hholding
      refine ⟨_, _, rfl, ?_, by simp [Client.work], by simp [Client.work], Or.inl rfl⟩
      exact signal_queue m signalled
  | unlocking unlocked =>
      obtain rfl := Option.some.inj hholding
      refine ⟨_, _, rfl, rfl, by simp [Client.work], by simp [Client.work], Or.inr ⟨rfl, ?_⟩⟩
      simp [Shared.free, Shared.unlock]
  | _ => exact absurd hholding (by simp [Client.holding])

/-- `v` is reached from `s` by `n` steps of clients inside their operations. -/
inductive ByClients (core : Core) (pipeFile : ℤ) (capacity : ℕ) :
    ℕ → State Thread → State Thread → Prop where
  | refl (s : State Thread) : ByClients core pipeFile capacity 0 s s
  | client {n : ℕ} {s u v : State Thread} (t : Thread)
      (hstep : step core pipeFile capacity s (.client t) = some u)
      (hrest : ByClients core pipeFile capacity n u v) :
      ByClients core pipeFile capacity (n + 1) s v

theorem ByClients.trans {n k : ℕ} {s u v : State Thread}
    (hfirst : ByClients core pipeFile capacity n s u)
    (hsecond : ByClients core pipeFile capacity k u v) :
    ByClients core pipeFile capacity (n + k) s v := by
  induction hfirst with
  | refl s =>
      rw [Nat.zero_add]
      exact hsecond
  | @client n s u w t hstep hrest ih =>
      rw [Nat.add_right_comm]
      exact .client t hstep (ih hsecond)

theorem ByClients.exclusive {n : ℕ} {s v : State Thread}
    (hby : ByClients core pipeFile capacity n s v) (hexclusive : Exclusive s) :
    Exclusive v := by
  induction hby with
  | refl s => exact hexclusive
  | client t hstep _ ih => exact ih (step_exclusive _ _ _ hexclusive hstep)

/-- One step of a client. -/
theorem step_client {s : State Thread} {t : Thread} {pc : Client} {m : Shared Thread}
    (hnext : (s.client t).next core capacity t s.shared = some (pc, m)) :
    step core pipeFile capacity s (.client t) = some (s.moveClient t pc m) := by
  rw [step, hnext]
  rfl

/-- A thread that holds a mutex gives it back in at most three steps of its own, which
leave all other threads where they are. -/
theorem run_unlock {s : State Thread} {t : Thread} {hEvent : Handle}
    (hholding : (s.client t).holding = some hEvent) :
    ∃ n ≤ 3, ∃ v, ByClients core pipeFile capacity n s v ∧ v.shared.free hEvent = true ∧
      (∀ other, other ≠ t → v.client other = s.client other) ∧ v.scheduler = s.scheduler ∧
      v.shared.hHandleQueue = s.shared.hHandleQueue := by
  -- as many steps as are left of the operation
  suffices hsteps : ∀ work, ∀ s : State Thread, (s.client t).work = work →
      (s.client t).holding = some hEvent → ∃ n ≤ work, ∃ v,
        ByClients core pipeFile capacity n s v ∧ v.shared.free hEvent = true ∧
        (∀ other, other ≠ t → v.client other = s.client other) ∧ v.scheduler = s.scheduler ∧
        v.shared.hHandleQueue = s.shared.hHandleQueue by
    obtain ⟨-, -, -, -, -, hthree, -⟩ :=
      @exists_next_of_holding _ core capacity _ _ _ hholding s.shared t
    obtain ⟨n, hn, hrest⟩ := hsteps _ s rfl hholding
    exact ⟨n, hn.trans hthree, hrest⟩
  intro work
  induction work using Nat.strong_induction_on with
  | _ work ih =>
      intro s hwork hholding
      obtain ⟨pc, m, hnext, hqueue, hless, -, hafter⟩ :=
        @exists_next_of_holding _ core capacity _ _ _ hholding s.shared t
      have hself : (s.moveClient t pc m).client t = pc := Function.update_self ..
      have hothers : ∀ other, other ≠ t → (s.moveClient t pc m).client other = s.client other :=
        fun other hne => Function.update_of_ne hne ..
      rcases hafter with hafter | ⟨-, hfree⟩
      · obtain ⟨n, hn, v, hby, hfree, hclient, hscheduler, hqueue'⟩ :=
          ih pc.work (hwork ▸ hless) (s.moveClient t pc m) (by rw [hself]) (by rw [hself, hafter])
        refine ⟨n + 1, by omega, v, .client t (step_client hnext) hby, hfree, ?_, hscheduler,
          hqueue'.trans hqueue⟩
        exact fun other hne => (hclient other hne).trans (hothers other hne)
      · exact ⟨1, by omega, _, .client t (step_client hnext) (.refl _), hfree, hothers, rfl, hqueue⟩

/-- In at most three steps of another thread a mutex is free, and a thread that does not
hold it, the scheduler and the queue are as before. -/
theorem run_free {s : State Thread} (hexclusive : Exclusive s) (hEvent : Handle) :
    ∃ n ≤ 3, ∃ v, ByClients core pipeFile capacity n s v ∧ v.shared.free hEvent = true ∧
      (∀ other, (s.client other).holding = none → v.client other = s.client other) ∧
      v.scheduler = s.scheduler ∧ v.shared.hHandleQueue = s.shared.hHandleQueue := by
  cases hmutex : s.shared.mutex hEvent with
  | none =>
      refine ⟨0, Nat.zero_le 3, s, .refl s, by simp [Shared.free, hmutex], fun _ _ => rfl, rfl, rfl⟩
  | some t =>
      have hholding := (hexclusive t hEvent).mp hmutex
      obtain ⟨n, hn, v, hby, hfree, hclient, hrest⟩ := @run_unlock _ core pipeFile capacity _ _ _ _
        hholding
      refine ⟨n, hn, v, hby, hfree, fun other hnone => hclient other ?_, hrest⟩
      rintro rfl
      exact absurd (hholding.symm.trans hnone) (by simp)

/-- Every operation can be brought to its end by steps of clients alone. -/
theorem run_finish {s : State Thread} (hexclusive : Exclusive s) (t : Thread) :
    ∃ n ≤ 7, ∃ v, ByClients core pipeFile capacity n s v ∧ v.client t = .idle := by
  suffices hsteps : ∀ work, ∀ s : State Thread, Exclusive s → (s.client t).work = work →
      ∃ n ≤ work, ∃ v, ByClients core pipeFile capacity n s v ∧ v.client t = .idle by
    obtain ⟨n, hn, hrest⟩ := hsteps _ s hexclusive rfl
    exact ⟨n, hn.trans (work_le _), hrest⟩
  intro work
  induction work using Nat.strong_induction_on with
  | _ work ih =>
      intro s hexclusive hwork
      by_cases hidle : s.client t = .idle
      · exact ⟨0, Nat.zero_le _, s, .refl s, hidle⟩
      -- first the mutex, if the next step needs one
      obtain ⟨k, hk, u, hwait, hfree, hclient⟩ : ∃ k ≤ (if (s.client t).needs.isSome then 3 else 0),
          ∃ u, ByClients core pipeFile capacity k s u ∧
            (∀ hEvent ∈ (s.client t).needs, u.shared.free hEvent = true) ∧
            u.client t = s.client t := by
        cases hneeds : (s.client t).needs with
        | none => exact ⟨0, Nat.zero_le _, s, .refl s, nofun, rfl⟩
        | some hEvent =>
            have hholding : (s.client t).holding = none := by
              cases hpc : s.client t <;> rw [hpc] at hneeds <;>
                first | rfl | exact absurd hneeds (by simp [Client.needs])
            obtain ⟨k, hk, u, hwait, hfree, hclient, -⟩ :=
              @run_free _ core pipeFile capacity _ _ hexclusive hEvent
            refine ⟨k, hk, u, hwait, ?_, hclient t hholding⟩
            rintro other hother
            rw [← Option.some.inj hother]
            exact hfree
      obtain ⟨pc, m, hnext, -, hless⟩ := @exists_next _ core capacity _ (u.client t)
        (by rw [hclient]; exact hidle) u.shared (by rw [hclient]; exact hfree) t
      have hself : (u.moveClient t pc m).client t = pc := Function.update_self ..
      have hstep := @step_client _ core pipeFile capacity _ u t pc m hnext
      rw [hclient] at hless
      have hspent : k + 1 + pc.work ≤ work := by
        rw [hwork] at hless
        split at hk <;> rename_i hneeds <;> simp only [hneeds] at hless <;> simp at hless <;> omega
      obtain ⟨n, hn, v, hrest, hdone⟩ := ih pc.work (by omega) (u.moveClient t pc m)
        (step_exclusive _ _ _ (hwait.exclusive hexclusive) hstep) (by rw [hself])
      exact ⟨k + (n + 1), by omega, v, hwait.trans (.client t hstep hrest), hdone⟩

/-! ## The scheduler -/

/-- The event whose mutex has to be free for the next step of the scheduler. -/
def Scheduler.needs (core : Core) (queue : List Handle) : Scheduler → Option Handle
  | .scanning index _ => queue[index]?.bind (testedEvent core)
  | .resetting hEvent => some hEvent
  | .testing _ element => some element.hEvent
  | .consuming _ element => some element.hEvent
  | _ => none

omit [DecidableEq Thread] in
/-- The scheduler goes on when its mutex is free; `poll` may return. -/
theorem exists_scheduler_next {pc : Scheduler} (hexited : pc ≠ .exited) {m : Shared Thread}
    (hfree : ∀ hEvent ∈ pc.needs core m.hHandleQueue, m.free hEvent = true) :
    ∃ next, pc.next core pipeFile .other m = some next := by
  cases pc with
  | exited => exact absurd rfl hexited
  | purging =>
      rw [Scheduler.next]
      cases m.world.pipe <;> exact ⟨_, rfl⟩
  | scanning index scan =>
      rw [Scheduler.next]
      rw [Scheduler.needs] at hfree
      cases hget : m.hHandleQueue[index]? with
      | none => exact ⟨_, rfl⟩
      | some h =>
          rw [hget, Option.bind_some] at hfree
          by_cases hnull : h = handleNull
          · exact ⟨_, if_pos hnull⟩
          · refine ⟨_, (if_neg hnull).trans (if_pos ?_)⟩
            cases htested : testedEvent core h with
            | none => rfl
            | some hEvent => exact hfree hEvent htested
  | resetting hEvent => exact ⟨_, if_pos (hfree hEvent rfl)⟩
  | testing scan element => exact ⟨_, if_pos (hfree _ rfl)⟩
  | consuming scan element => exact ⟨_, if_pos (hfree _ rfl)⟩
  | reading scan =>
      rw [Scheduler.next]
      cases m.world.pipe with
      | nil => exact ⟨_, rfl⟩
      | cons hEvent rest =>
          by_cases hwake : hEvent = handleNull
          · exact ⟨_, if_pos hwake⟩
          · simp only [if_neg hwake]
            cases scan.eventQueue.find? (·.hEvent = hEvent) <;> exact ⟨_, rfl⟩
  | _ => exact ⟨_, rfl⟩

/-! ## The result -/

/-- In every reachable state each thread can be brought to the end of its operation by
steps of clients alone, and as long as the thread of the set has not exited, clients can
get it to its next step; the thread that deletes it never waits. -/
theorem never_stuck {s u : State Thread} {actions : List (Action Thread)}
    (hinitial : Initial core s) (hrun : run (step core pipeFile capacity) s actions = some u) :
    (∀ t, ∃ n ≤ 7, ∃ v, ByClients core pipeFile capacity n u v ∧ v.client t = .idle) ∧
    (u.scheduler ≠ .exited → ∃ n ≤ 3, ∃ v, ByClients core pipeFile capacity n u v ∧
      v.scheduler = u.scheduler ∧
      ∃ w, step core pipeFile capacity v (.scheduler .other) = some w) ∧
    (u.deleter ≠ .done → ∃ w, step core pipeFile capacity u .deleter = some w) := by
  have hexclusive : Exclusive u := run_induction step_exclusive (initial_exclusive hinitial) hrun
  refine ⟨run_finish hexclusive, fun hexited => ?_, fun hdone => ?_⟩
  · cases hneeds : u.scheduler.needs core u.shared.hHandleQueue with
    | none =>
        obtain ⟨⟨pc, m⟩, hnext⟩ := @exists_scheduler_next _ core pipeFile _ hexited u.shared
          (by rw [hneeds]; exact nofun)
        refine ⟨0, Nat.zero_le 3, u, .refl u, rfl, u.moveScheduler pc m, ?_⟩
        rw [step, hnext]
        rfl
    | some hEvent =>
        obtain ⟨n, hn, v, hby, hfree, -, hscheduler, hqueue⟩ :=
          @run_free _ core pipeFile capacity _ _ hexclusive hEvent
        obtain ⟨⟨pc, m⟩, hnext⟩ := @exists_scheduler_next _ core pipeFile v.scheduler
          (by rw [hscheduler]; exact hexited) v.shared (by
            rw [hscheduler, hqueue, hneeds]
            rintro other hother
            rw [← Option.some.inj hother]
            exact hfree)
        refine ⟨n, hn, v, hby, hscheduler, v.moveScheduler pc m, ?_⟩
        rw [step, hnext]
        rfl
  · cases hpc : u.deleter with
    | done => exact absurd hpc hdone
    | _ =>
        rw [step, hpc]
        exact ⟨_, rfl⟩

/-- The scan has come to the event 1 while it is being set: it cannot test it, until the
thread that sets it has unlocked it. -/
theorem never_stuck_at_test :
    ∃ u, run (step exampleCore 9 1) exampleState [.scheduler .other, .scheduler .other,
        .scheduler .other, .call () (.set 1), .client ()] = some u ∧
      step exampleCore 9 1 u (.scheduler .other) = none ∧
      ∃ n ≤ 3, ∃ v, ByClients exampleCore 9 1 n u v ∧ v.scheduler = u.scheduler ∧
        ∃ w, step exampleCore 9 1 v (.scheduler .other) = some w := by
  obtain ⟨u, hrun⟩ : ∃ u, run (step exampleCore 9 1) exampleState [.scheduler .other,
      .scheduler .other, .scheduler .other, .call () (.set 1), .client ()] = some u := ⟨_, rfl⟩
  have hscheduler : u.scheduler = .scanning 0 (Scan.start exampleCore 9) := by
    cases hrun
    rfl
  refine ⟨u, hrun, ?_, (never_stuck exampleState_initial hrun).2.1 ?_⟩
  · cases hrun
    rfl
  · rw [hscheduler]
    nofun

end OfcDarwin.Waitset
