import Mathlib.Data.List.Induction
import OfcDarwin.Lib.Transition
import OfcDarwin.Process.HandleNamesDaemon

/-!
# What terminating a process signals

A run of `ofc_process_exec_impl`, `ofc_process_get_id_impl` and
`ofc_process_term_impl` over any number of handles.  `ofc_process_term_impl` sends
`SIGTERM` to whatever pid the lock of its handle gives.  A handle that does not
resolve gives `OFC_NULL`, which is pid 0, the process group of the caller; its
sibling `ofc_process_get_id_impl` does test for that value.

`kills` is history: every signal of the run, with what its handle resolved to.
`kills_aimed_iff` gives the schedules whose signals are all aimed at a process.
-/

namespace OfcDarwin.Process

open Transition

/-! ## The model -/

/-- One call of `ofc_process_exec_impl`, with all that it depends on. -/
structure Call where
  os : Os
  fresh : Handle
  credentials : Credentials
  request : Request
  initial : Locals

/-- An operation on process handles, which are `none` for
`OFC_INVALID_HANDLE_VALUE`. -/
inductive Action where
  | exec (call : Call)
  | getId (hProcess : Option Handle)
  | term (hProcess : Option Handle)

/-- A `kill` that `ofc_process_term_impl` issued, and what its handle held. -/
structure Signal where
  target : PidT
  record : Option UInt64
deriving DecidableEq

/-- The handles, every signal sent so far, and whether the calling process has not been
ended by `ofc_process_crash`. -/
structure State where
  table : HandleTable
  kills : List Signal
  running : Bool

namespace HandleTable

/-- What a handle holds.  `OFC_INVALID_HANDLE_VALUE` never resolves. -/
def resolve (table : HandleTable) (hProcess : Option Handle) : Option UInt64 :=
  hProcess.bind table.record

/-- The pid that `ofc_process_term_impl` passes to `kill`. -/
def termTarget (table : HandleTable) : Option Handle → PidT
  | none => toPidT 0
  | some hProcess => (ofcProcessTermImpl table hProcess).1

/-- The handles after `ofc_process_term_impl`. -/
def afterTerm (table : HandleTable) : Option Handle → HandleTable
  | none => table
  | some hProcess => (ofcProcessTermImpl table hProcess).2

end HandleTable

/-- The execution of a call. -/
def Call.execution (call : Call) (table : HandleTable) : Execution :=
  ofcProcessExecImpl call.os table call.fresh call.credentials call.request call.initial

/-- What an operation does, in a process that has not ended.  `ofc_handle_create` returns
a handle that is not in use. -/
def State.apply (s : State) : Action → Option State
  | .exec call =>
      if s.table.record call.fresh = none then
        some { s with
          table := (call.execution s.table).table
          running := (call.execution s.table).crashed.isNone }
      else none
  | .getId _ => some s
  | .term hProcess =>
      some { s with
        table := s.table.afterTerm hProcess
        kills := s.kills ++
          [{ target := s.table.termTarget hProcess, record := s.table.resolve hProcess }] }

/-- The step function of the system. -/
def step (s : State) (a : Action) : Option State := if s.running then s.apply a else none

/-- No process handle, no signal. -/
def initial : State := { table := { record := fun _ => none }, kills := [], running := true }

/-- A signal aimed at the process of a live handle. -/
def Signal.Aimed (kill : Signal) : Prop :=
  0 < kill.target ∧ ∃ word, kill.record = some word ∧ toPidT word = kill.target

/-! ## What one operation does -/

/-- The target of a term is what its handle holds, and 0 where it does not
resolve. -/
theorem termTarget_eq (table : HandleTable) (hProcess : Option Handle) :
    table.termTarget hProcess = (table.resolve hProcess).elim 0 toPidT := by
  cases hProcess with
  | none => rfl
  | some hProcess =>
      simp only [HandleTable.termTarget, ofcProcessTermImpl, HandleTable.lock,
        HandleTable.resolve, Option.bind_some]
      cases table.record hProcess with
      | none => rfl
      | some word => rfl

instance (os : Os) (initial : Locals) : Decidable (os.ReportsSuccess initial) :=
  inferInstanceAs (Decidable (_ ∧ _))

/-- A call that reports success creates its handle, and another call leaves the
handles as they are. -/
theorem execution_table (call : Call) (table : HandleTable) :
    (call.execution table).table =
      if call.os.ReportsSuccess call.initial then
        table.create call.fresh (toDwordPtr call.initial.pid2)
      else table := by
  unfold Call.execution
  by_cases hsuccess : call.os.ReportsSuccess call.initial
  · obtain ⟨pid, hfirst⟩ := Option.isSome_iff_exists.mp hsuccess.1
    rw [if_pos hsuccess, (exec_of_firstFork _ _ _ _ _ _ hfirst).2.2, if_pos hsuccess.2]
  · rw [if_neg hsuccess]
    cases hfirst : call.os.firstFork with
    | none =>
        unfold ofcProcessExecImpl
        rw [hfirst]
    | some pid =>
        have hstatus : call.os.seenStatus call.initial ≠ exOk := by
          intro hstatus
          exact hsuccess ⟨by rw [hfirst]; rfl, hstatus⟩
        rw [(exec_of_firstFork _ _ _ _ _ _ hfirst).2.2, if_neg hstatus]

theorem execution_record (call : Call) (table : HandleTable) (hProcess : Handle) :
    (call.execution table).table.record hProcess =
      if call.os.ReportsSuccess call.initial ∧ hProcess = call.fresh then
        some (toDwordPtr call.initial.pid2)
      else table.record hProcess := by
  rw [execution_table]
  by_cases hsuccess : call.os.ReportsSuccess call.initial
  · simp [hsuccess, HandleTable.create, Function.update_apply]
  · simp [hsuccess]

theorem afterTerm_record (table : HandleTable) (hTerm : Option Handle) (hProcess : Handle) :
    (table.afterTerm hTerm).record hProcess =
      if hTerm = some hProcess then none else table.record hProcess := by
  cases hTerm with
  | none => simp [HandleTable.afterTerm]
  | some hTerm =>
      simp only [HandleTable.afterTerm, ofcProcessTermImpl, HandleTable.destroy,
        Function.update_apply, Option.some.injEq, eq_comm]

theorem step_inv {s u : State} {a : Action} (hstep : step s a = some u) :
    s.apply a = some u := by
  rw [step, Option.ite_none_right_eq_some] at hstep
  exact hstep.2

theorem exec_inv {s u : State} {call : Call} (hstep : step s (.exec call) = some u) :
    s.table.record call.fresh = none ∧
      u = { s with
        table := (call.execution s.table).table
        running := (call.execution s.table).crashed.isNone } := by
  have happly := step_inv hstep
  rw [State.apply, Option.ite_none_right_eq_some] at happly
  exact ⟨happly.1, (Option.some.inj happly.2).symm⟩

theorem term_inv {s u : State} {hProcess : Option Handle}
    (hstep : step s (.term hProcess) = some u) :
    u = { s with
      table := s.table.afterTerm hProcess
      kills := s.kills ++
        [{ target := s.table.termTarget hProcess, record := s.table.resolve hProcess }] } :=
  (Option.some.inj (step_inv hstep)).symm

theorem getId_inv {s u : State} {hProcess : Option Handle}
    (hstep : step s (.getId hProcess) = some u) : u = s :=
  (Option.some.inj (step_inv hstep)).symm

/-! ## A handle and the call that started it -/

/-- Some call of the schedule started `hProcess` with `pid` in its `pid2`, and no
term of it came after. -/
def StartedBy (actions : List Action) (hProcess : Handle) (pid : PidT) : Prop :=
  ∃ (before after : List Action) (call : Call), actions = before ++ .exec call :: after ∧
    call.os.ReportsSuccess call.initial ∧ call.fresh = hProcess ∧ call.initial.pid2 = pid ∧
    .term (some hProcess) ∉ after

theorem startedBy_concat {actions : List Action} {last : Action} {hProcess : Handle}
    {pid : PidT} :
    StartedBy (actions ++ [last]) hProcess pid ↔
      (∃ call, last = .exec call ∧ call.os.ReportsSuccess call.initial ∧
          call.fresh = hProcess ∧ call.initial.pid2 = pid) ∨
        StartedBy actions hProcess pid ∧ last ≠ .term (some hProcess) := by
  unfold StartedBy
  constructor
  · rintro ⟨before, after, call, hsplit, hsuccess, hfresh, hpid, hterm⟩
    obtain ⟨-, hlast, -⟩ | ⟨rest, rfl, hactions⟩ := concat_eq_split.mp hsplit
    · exact Or.inl ⟨call, hlast.symm, hsuccess, hfresh, hpid⟩
    · rw [List.mem_append, List.mem_singleton, not_or] at hterm
      exact Or.inr ⟨⟨before, rest, call, hactions, hsuccess, hfresh, hpid, hterm.1⟩,
        Ne.symm hterm.2⟩
  · rintro (⟨call, rfl, hsuccess, hfresh, hpid⟩ |
      ⟨⟨before, rest, call, rfl, hsuccess, hfresh, hpid, hterm⟩, hlast⟩)
    · exact ⟨actions, [], call, rfl, hsuccess, hfresh, hpid, List.not_mem_nil⟩
    · refine ⟨before, rest ++ [last], call, by simp, hsuccess, hfresh, hpid, ?_⟩
      rw [List.mem_append, List.mem_singleton, not_or]
      exact ⟨hterm, Ne.symm hlast⟩

/-- What a handle holds is decided by the schedule: the `pid2` of the call that
started it, until it is terminated. -/
theorem record_eq_some_iff {actions : List Action} {s : State}
    (hrun : run step initial actions = some s) (hProcess : Handle) (word : UInt64) :
    s.table.record hProcess = some word ↔
      ∃ pid, StartedBy actions hProcess pid ∧ word = toDwordPtr pid := by
  induction actions using List.reverseRecOn generalizing s word with
  | nil =>
      cases hrun
      simp [initial, StartedBy]
  | append_singleton actions last ih =>
      obtain ⟨t, hbefore, hlast⟩ := run_concat_eq_some.mp hrun
      have ht := fun word => ih hbefore word
      simp only [startedBy_concat]
      cases last with
      | exec call =>
          obtain ⟨hunused, rfl⟩ := exec_inv hlast
          rw [execution_record]
          by_cases hstarts : call.os.ReportsSuccess call.initial ∧ hProcess = call.fresh
          · obtain ⟨hsuccess, rfl⟩ := hstarts
            -- the handle was not in use, so no earlier call stands for it
            have hnone : ∀ pid, ¬ StartedBy actions call.fresh pid := by
              intro pid hstarted
              have hlive := (ht _).mpr ⟨pid, hstarted, rfl⟩
              rw [hunused] at hlive
              cases hlive
            simp [hsuccess, hnone, eq_comm]
          · have hother : ¬ (call.os.ReportsSuccess call.initial ∧ call.fresh = hProcess) :=
              fun h => hstarts ⟨h.1, h.2.symm⟩
            rw [if_neg hstarts, ht]
            constructor
            · rintro ⟨pid, hstarted, hword⟩
              exact ⟨pid, Or.inr ⟨hstarted, by simp⟩, hword⟩
            · rintro ⟨pid, ⟨call', hcall, hsuccess, hfresh, -⟩ | ⟨hstarted, -⟩, hword⟩
              · cases hcall
                exact absurd ⟨hsuccess, hfresh⟩ hother
              · exact ⟨pid, hstarted, hword⟩
      | getId hGet =>
          obtain rfl := getId_inv hlast
          simpa using ht word
      | term hTerm =>
          obtain rfl := term_inv hlast
          rw [afterTerm_record]
          by_cases hsame : hTerm = some hProcess
          · subst hsame
            simp
          · rw [if_neg hsame, ht]
            simp [hsame]

/-! ## The signals of a run -/

/-- The condition on one operation: a term is of a live handle that holds a
positive pid. -/
def Held (s : State) (a : Action) : Prop :=
  ∀ hProcess, a = .term hProcess →
    ∃ word, s.table.resolve hProcess = some word ∧ 0 < toPidT word

theorem step_aimed_iff {s u : State} {a : Action} (hstep : step s a = some u) :
    (∀ kill ∈ u.kills, kill.Aimed) ↔ (∀ kill ∈ s.kills, kill.Aimed) ∧ Held s a := by
  cases a with
  | exec call =>
      obtain ⟨-, rfl⟩ := exec_inv hstep
      simp [Held]
  | getId hProcess =>
      obtain rfl := getId_inv hstep
      simp [Held]
  | term hProcess =>
      obtain rfl := term_inv hstep
      have hlast : Signal.Aimed
          { target := s.table.termTarget hProcess, record := s.table.resolve hProcess } ↔
            ∃ word, s.table.resolve hProcess = some word ∧ 0 < toPidT word := by
        rw [Signal.Aimed, termTarget_eq]
        cases s.table.resolve hProcess <;> simp
      rw [List.forall_mem_append, List.forall_mem_singleton, hlast]
      simp [Held]

theorem run_aimed_iff {s u : State} {actions : List Action}
    (hrun : run step s actions = some u) :
    (∀ kill ∈ u.kills, kill.Aimed) ↔
      (∀ kill ∈ s.kills, kill.Aimed) ∧ Along step Held s actions := by
  induction actions generalizing s with
  | nil =>
      cases hrun
      simp [Along]
  | cons a rest ih =>
      obtain ⟨t, hstep, hrest⟩ := run_cons_eq_some.mp hrun
      rw [ih hrest, step_aimed_iff hstep, and_assoc]
      simp [Along, hstep]

/-- A term that comes while a call stands for its handle, and that call found a
positive value in the `pid2` it did not assign. -/
def StartedPositive (actions : List Action) : Prop :=
  ∀ (before after : List Action) (hTerm : Option Handle),
    actions = before ++ .term hTerm :: after →
      ∃ hProcess pid, hTerm = some hProcess ∧ StartedBy before hProcess pid ∧ 0 < pid

theorem along_held_iff {actions : List Action} {u : State}
    (hrun : run step initial actions = some u) :
    Along step Held initial actions ↔ StartedPositive actions := by
  rw [along_iff_splits]
  constructor
  · rintro hall before after hTerm rfl
    obtain ⟨s, hbefore, -⟩ := run_prefix hrun
    obtain ⟨word, hword, hpositive⟩ := hall before after _ rfl s hbefore hTerm rfl
    obtain ⟨hProcess, rfl, hrecord⟩ := Option.bind_eq_some_iff.mp hword
    obtain ⟨pid, hstarted, rfl⟩ := (record_eq_some_iff hbefore hProcess word).mp hrecord
    exact ⟨hProcess, pid, rfl, hstarted, by rwa [toPidT_toDwordPtr] at hpositive⟩
  · rintro hstarts before after a hsplit s hbefore hTerm rfl
    obtain ⟨hProcess, pid, rfl, hstarted, hpositive⟩ := hstarts before after hTerm hsplit
    refine ⟨toDwordPtr pid, ?_, by rwa [toPidT_toDwordPtr]⟩
    exact (record_eq_some_iff hbefore hProcess _).mpr ⟨pid, hstarted, rfl⟩

/-- Every signal of a run is aimed at the process of a live handle exactly when
every term of the schedule is of a handle whose call found a positive `pid2` and
which no earlier term has destroyed. -/
theorem kills_aimed_iff (actions : List Action) (s : State)
    (hrun : run step initial actions = some s) :
    (∀ kill ∈ s.kills, kill.Aimed) ↔ StartedPositive actions := by
  rw [run_aimed_iff hrun, along_held_iff hrun]
  simp [initial]

/-- A call on a system where both forks and `waitpid` succeed and the daemon is
4711, by an original process that happens to find 4711 in its `pid2`. -/
def luckyCall : Call :=
  { os :=
      { firstFork := some ⟨4710, by decide⟩
        secondFork := some ⟨4711, by decide⟩
        kill := none
        crash := none
        waitpid := true
        getpwnam := fun _ => none
        setgid := fun _ => false
        setuid := fun _ => false
        execve := true }
    fresh := 7
    credentials := { uid := 0, gid := 0 }
    request := { name := "/usr/libexec/daemon", uname := none, argv := ["daemon"] }
    initial := { pid := 0, pid2 := 4711, ret := 0 } }

/-- The same call when its second fork fails, and the first child exits with
`EX_SOFTWARE`. -/
def failedCall : Call :=
  { luckyCall with os := { luckyCall.os with secondFork := none } }

/-- Started, asked for its pid, terminated once. -/
theorem kills_aimed_once :
    ∃ s : State, run step initial [.exec luckyCall, .getId (some 7), .term (some 7)] = some s ∧
      s.kills ≠ [] ∧ ∀ kill ∈ s.kills, kill.Aimed := by
  refine ⟨_, rfl, by decide,
    (kills_aimed_iff [.exec luckyCall, .getId (some 7), .term (some 7)] _ rfl).mpr ?_⟩
  intro before after hTerm hsplit
  match before with
  | [] | [_] => simp at hsplit
  | [_, _] =>
      simp only [List.cons_append, List.nil_append, List.cons.injEq, Action.term.injEq] at hsplit
      obtain ⟨rfl, rfl, rfl, -⟩ := hsplit
      exact ⟨7, 4711, rfl, ⟨[], [.getId (some 7)], luckyCall, rfl, by decide, rfl, rfl, by simp⟩,
        by decide⟩
  | _ :: _ :: _ :: _ => simp at hsplit

/-- The second term of one handle, and a term of what a failed call returned,
signal the process group of the caller. -/
theorem term_signals_group :
    (¬ ∀ (actions : List Action) (s : State), run step initial actions = some s →
      ∀ kill ∈ s.kills, kill.Aimed) ∧
    (run step initial [.exec luckyCall, .term (some 7), .term (some 7)]).map State.kills =
      some [{ target := 4711, record := some 4711 }, { target := 0, record := none }] ∧
    (failedCall.execution initial.table).hProcess = none ∧
    (run step initial [.exec failedCall, .term none]).map State.kills =
      some [{ target := 0, record := none }] := by
  have hfailed : (run step initial [.exec failedCall, .term none]).map State.kills =
      some [{ target := 0, record := none }] := by decide
  refine ⟨fun hall => ?_, by decide, by decide, hfailed⟩
  obtain ⟨s, hrun, hkills⟩ := Option.map_eq_some_iff.mp hfailed
  have haimed := hall _ s hrun
  rw [hkills] at haimed
  exact absurd (haimed _ (List.mem_singleton_self _)).1 (by decide)

end OfcDarwin.Process
