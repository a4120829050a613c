import OfcDarwin.Lib.ProcessTree
import OfcDarwin.Lib.Transition
import OfcDarwin.Process.Model

/-!
# Starting daemons, step by step

`Process/Model.lean` computes a call of `ofc_process_exec_impl` as one function of what
the system answers.  Here the three processes take their steps one at a time, among those
of other calls: the caller is a process with any number of threads, each of which may
start daemons, one after the other.

* A thread forks the first child and waits for it; `waitpid` returns when the child has
  ended, or when a signal handler has run in the thread.
* The first child forks the second and exits.
* The second child calls `execve`, and is then the daemon.

A thread whose first `fork` fails calls `ofc_process_crash`, and returns without a handle
if that does; where it ends the caller, the run of the model is the one up to there.  Any
child may be ended by a signal at any time, and `init` waits for the children that come to
it.  The only handler is the one that `ofc_process_term_trap_impl` installs:
`sa_flags` is 0 there, so that a `waitpid` it interrupts is not restarted.  What the
first and the second child do to their own locals and identity is as in the other file.
-/

namespace OfcDarwin.Process.System

open ProcessTree

/-- `SIGTERM`. -/
def sigterm : ℤ := 15

/-- Where a child is. -/
inductive Child where
  /-- The first child, before its `fork`. -/
  | first
  /-- The first child, in `ofc_process_crash` because its `fork` has failed. -/
  | crashing
  /-- The first child, before `_Exit(EX_OK)`. -/
  | forked (pid2 : ChildPid)
  /-- The second child, before `execve`. -/
  | second
  /-- The second child, in `ofc_process_crash` because its `execve` has failed. -/
  | failed
  | daemon
deriving DecidableEq

/-- The child may call `_Exit(code)`: when `ofc_process_crash` returns, the code is
`EX_SOFTWARE`. -/
def Child.exits (code : Int32) : Child → Bool
  | .forked _ => code = exOk
  | .crashing | .failed => code = exSoftware
  | .daemon => true
  | .first | .second => false

/-- Where a thread of the caller is in `ofc_process_exec_impl`: in `waitpid`, with the
locals it came with, or back with its result. -/
inductive Call where
  | idle
  | waiting (pid : ChildPid) (initial : Locals)
  | returned (hProcess : Option Handle)
deriving DecidableEq

/-- The child that a thread waits for, and the locals it came with. -/
def Call.waits : Call → Option (ChildPid × Locals)
  | .waiting pid initial => some (pid, initial)
  | .idle | .returned _ => none

/-- The processes, what the children run or have run, the threads of the caller, its
process handles, whether it has a handler for `SIGTERM`, and the signals its threads
block. -/
structure State (Thread : Type) where
  table : Table ChildPid Int32
  program : ChildPid → Option Child
  call : Thread → Call
  handles : HandleTable
  trap : Bool
  blocked : Thread → ℤ → Bool

/-- One step of a thread of the caller, of a child, or of `init`. -/
inductive Action (Thread : Type) where
  /-- `ofc_process_term_trap_impl`. -/
  | trap
  /-- `ofc_process_block_signal`. -/
  | block (t : Thread) (signal : ℤ)
  /-- `ofc_process_unblock_signal`. -/
  | unblock (t : Thread) (signal : ℤ)
  /-- `ofc_process_exec_impl` up to its first `fork`. -/
  | exec (t : Thread) (initial : Locals) (firstFork : Option ChildPid)
  /-- `waitpid` returns the status of the child. -/
  | waitpid (t : Thread) (fresh : Handle)
  /-- `waitpid` fails with `EINTR`. -/
  | interrupt (t : Thread) (fresh : Handle)
  | secondFork (pid : ChildPid) (result : Option ChildPid)
  | execve (pid : ChildPid) (succeeds : Bool)
  | exit (pid : ChildPid) (code : Int32)
  /-- A signal ends the child, `ofc_process_crash` included. -/
  | signalled (pid : ChildPid) (status : AbnormalStatus)
  /-- `init` waits for one of its children. -/
  | reap (pid : ChildPid)

variable {Thread : Type}

namespace State

variable (s : State Thread)

/-- The process runs a program of a child and has not ended. -/
def runs (pid : ChildPid) (child : Child) : Bool :=
  s.program pid = some child ∧ (s.table pid).any fun entry => entry.status.isNone

/-- The status of a process that has ended. -/
def status? (pid : ChildPid) : Option Int32 := (s.table pid).bind Entry.status

/-- A child ends. -/
def ends (init pid : ChildPid) (status : Int32) : State Thread :=
  { s with table := s.table.exit init pid status }

/-- The `fork` of the first child. -/
def forkSecond (pid : ChildPid) : Option ChildPid → Option (State Thread)
  | none => some { s with program := Function.update s.program pid (some .crashing) }
  | some pid2 =>
      if s.table pid2 = none then
        some { s with
          table := s.table.fork pid pid2
          program := Function.update (Function.update s.program pid (some (.forked pid2))) pid2
            (some .second) }
      else none

variable [DecidableEq Thread]

/-- The `fork` of the caller. -/
def forkFirst (caller : ChildPid) (t : Thread) (initial : Locals) :
    Option ChildPid → Option (State Thread)
  | none => some { s with call := Function.update s.call t (.returned none) }
  | some pid =>
      if s.table pid = none then
        some { s with
          table := s.table.fork caller pid
          program := Function.update s.program pid (some .first)
          call := Function.update s.call t (.waiting pid initial) }
      else none

/-- `pthread_sigmask` of one signal. -/
def setMask (t : Thread) (signal : ℤ) (blocked : Bool) : State Thread :=
  { s with blocked := Function.update s.blocked t (Function.update (s.blocked t) signal blocked) }

/-- The end of `ofc_process_exec_impl` in the caller, from the test of `ret` on. -/
def finish (t : Thread) (fresh : Handle) (initial : Locals) (ret : Int32) : State Thread :=
  if ret = exOk then
    { s with
      handles := s.handles.create fresh (toDwordPtr initial.pid2)
      call := Function.update s.call t (.returned (some fresh)) }
  else { s with call := Function.update s.call t (.returned none) }

end State

/-- The step function of the system. -/
def step [DecidableEq Thread] (caller init : ChildPid) (s : State Thread) :
    Action Thread → Option (State Thread)
  | .trap => some { s with trap := true }
  | .block t signal => some (s.setMask t signal true)
  | .unblock t signal => some (s.setMask t signal false)
  | .exec t initial firstFork =>
      if (s.call t).waits.isSome then none else s.forkFirst caller t initial firstFork
  | .waitpid t fresh =>
      (s.call t).waits.bind fun (pid, initial) =>
        (s.status? pid).map fun status =>
          State.finish { s with table := s.table.reap pid } t fresh initial status
  | .interrupt t fresh =>
      (s.call t).waits.bind fun (_, initial) =>
        -- `ret` keeps the value it came with
        if s.trap ∧ s.blocked t sigterm = false then some (s.finish t fresh initial initial.ret)
        else none
  | .secondFork pid result => if s.runs pid .first then s.forkSecond pid result else none
  | .execve pid succeeds =>
      if s.runs pid .second then
        some { s with
          program := Function.update s.program pid
            (some (if succeeds then .daemon else .failed)) }
      else none
  | .exit pid code =>
      (s.program pid).bind fun child =>
        if child.exits code ∧ s.runs pid child then some (s.ends init pid (exitStatus code))
        else none
  | .signalled pid status =>
      (s.program pid).bind fun child =>
        if s.runs pid child then some (s.ends init pid status) else none
  | .reap pid =>
      (s.table pid).bind fun entry =>
        if entry.parent = init ∧ entry.status.isSome then
          some { s with table := s.table.reap pid }
        else none

/-- The caller and `init`, before any daemon is started. -/
def initial (Thread : Type) (caller init : ChildPid) (handles : HandleTable) : State Thread :=
  { table := fun pid =>
      if pid = caller ∨ pid = init then some { parent := init, status := none } else none
    program := fun _ => none
    call := fun _ => .idle
    handles := handles
    trap := false
    blocked := fun _ _ => false }

/-! ## What a step can do -/

/-- The statuses with which a child may end. -/
def Child.EndsWith (child : Child) (status : Int32) : Prop :=
  (∃ code, child.exits code = true ∧ status = exitStatus code) ∨
    ∃ abnormal : AbnormalStatus, status = abnormal

theorem runs_iff {s : State Thread} {pid : ChildPid} {child : Child} :
    s.runs pid child = true ↔ s.program pid = some child ∧ s.table.Running pid := by
  unfold State.runs Table.Running
  cases s.table pid with
  | none => simp
  | some entry => simp [Option.isNone_iff_eq_none]

theorem status_eq_some {s : State Thread} {pid : ChildPid} {status : Int32} :
    s.status? pid = some status ↔ s.table.Zombie pid status :=
  Option.bind_eq_some_iff

variable [DecidableEq Thread]

/-- What each action can do, and when. -/
inductive Stepped (caller init : ChildPid) (s : State Thread) : Action Thread → State Thread → Prop
  where
  | trap : Stepped caller init s .trap { s with trap := true }
  | blocked (t : Thread) (signal : ℤ) :
      Stepped caller init s (.block t signal) (s.setMask t signal true)
  | unblocked (t : Thread) (signal : ℤ) :
      Stepped caller init s (.unblock t signal) (s.setMask t signal false)
  | notForked {t : Thread} {initial : Locals} (hcall : (s.call t).waits = none) :
      Stepped caller init s (.exec t initial none)
        { s with call := Function.update s.call t (.returned none) }
  | forked {t : Thread} {initial : Locals} {pid : ChildPid} (hcall : (s.call t).waits = none)
      (hfresh : s.table pid = none) :
      Stepped caller init s (.exec t initial (some pid))
        { s with
          table := s.table.fork caller pid
          program := Function.update s.program pid (some .first)
          call := Function.update s.call t (.waiting pid initial) }
  | waited {t : Thread} {fresh : Handle} {pid : ChildPid} {initial : Locals} {status : Int32}
      (hcall : (s.call t).waits = some (pid, initial)) (hended : s.table.Zombie pid status) :
      Stepped caller init s (.waitpid t fresh)
        (State.finish { s with table := s.table.reap pid } t fresh initial status)
  | interrupted {t : Thread} {fresh : Handle} {pid : ChildPid} {initial : Locals}
      (hcall : (s.call t).waits = some (pid, initial)) (htrap : s.trap = true)
      (hblocked : s.blocked t sigterm = false) :
      Stepped caller init s (.interrupt t fresh) (s.finish t fresh initial initial.ret)
  | secondFailed {pid : ChildPid} (hprogram : s.program pid = some .first)
      (hrunning : s.table.Running pid) :
      Stepped caller init s (.secondFork pid none)
        { s with program := Function.update s.program pid (some .crashing) }
  | secondForked {pid pid2 : ChildPid} (hprogram : s.program pid = some .first)
      (hrunning : s.table.Running pid) (hfresh : s.table pid2 = none) :
      Stepped caller init s (.secondFork pid (some pid2))
        { s with
          table := s.table.fork pid pid2
          program := Function.update (Function.update s.program pid (some (.forked pid2))) pid2
            (some .second) }
  | execve {pid : ChildPid} {succeeds : Bool} (hprogram : s.program pid = some .second)
      (hrunning : s.table.Running pid) :
      Stepped caller init s (.execve pid succeeds)
        { s with
          program := Function.update s.program pid
            (some (if succeeds then .daemon else .failed)) }
  | ended {a : Action Thread} {pid : ChildPid} {child : Child} {status : Int32}
      (hprogram : s.program pid = some child) (hrunning : s.table.Running pid)
      (hstatus : child.EndsWith status)
      (haction : (∃ code, a = .exit pid code) ∨ ∃ abnormal, a = .signalled pid abnormal) :
      Stepped caller init s a (s.ends init pid status)
  | reaped {pid : ChildPid} {status : Int32}
      (hentry : s.table pid = some { parent := init, status := some status }) :
      Stepped caller init s (.reap pid) { s with table := s.table.reap pid }

theorem stepped {caller init : ChildPid} {s u : State Thread} {a : Action Thread}
    (hstep : step caller init s a = some u) : Stepped caller init s a u := by
  cases a <;> rw [step] at hstep
  case trap =>
    obtain rfl := Option.some.inj hstep
    exact .trap
  case block t signal =>
    obtain rfl := Option.some.inj hstep
    exact .blocked t signal
  case unblock t signal =>
    obtain rfl := Option.some.inj hstep
    exact .unblocked t signal
  case exec t initial firstFork =>
    rw [Option.ite_none_left_eq_some, Option.not_isSome_iff_eq_none] at hstep
    obtain ⟨hcall, hstep⟩ := hstep
    cases firstFork with
    | none =>
        obtain rfl := Option.some.inj hstep
        exact .notForked hcall
    | some pid =>
        rw [State.forkFirst, Option.ite_none_right_eq_some] at hstep
        obtain ⟨hfresh, hstep⟩ := hstep
        obtain rfl := Option.some.inj hstep
        exact .forked hcall hfresh
  case waitpid t fresh =>
    obtain ⟨⟨pid, initial⟩, hcall, hstep⟩ := Option.bind_eq_some_iff.mp hstep
    obtain ⟨status, hended, rfl⟩ := Option.map_eq_some_iff.mp hstep
    exact .waited hcall (status_eq_some.mp hended)
  case interrupt t fresh =>
    obtain ⟨⟨pid, initial⟩, hcall, hstep⟩ := Option.bind_eq_some_iff.mp hstep
    rw [Option.ite_none_right_eq_some] at hstep
    obtain ⟨⟨htrap, hblocked⟩, hstep⟩ := hstep
    obtain rfl := Option.some.inj hstep
    exact .interrupted hcall htrap hblocked
  case secondFork pid result =>
    rw [Option.ite_none_right_eq_some, runs_iff] at hstep
    obtain ⟨⟨hprogram, hrunning⟩, hstep⟩ := hstep
    cases result with
    | none =>
        obtain rfl := Option.some.inj hstep
        exact .secondFailed hprogram hrunning
    | some pid2 =>
        rw [State.forkSecond, Option.ite_none_right_eq_some] at hstep
        obtain ⟨hfresh, hstep⟩ := hstep
        obtain rfl := Option.some.inj hstep
        exact .secondForked hprogram hrunning hfresh
  case execve pid succeeds =>
    rw [Option.ite_none_right_eq_some, runs_iff] at hstep
    obtain ⟨⟨hprogram, hrunning⟩, hstep⟩ := hstep
    obtain rfl := Option.some.inj hstep
    exact .execve hprogram hrunning
  case exit pid code =>
    obtain ⟨child, hprogram, hstep⟩ := Option.bind_eq_some_iff.mp hstep
    rw [Option.ite_none_right_eq_some, runs_iff] at hstep
    obtain ⟨⟨hexits, -, hrunning⟩, hstep⟩ := hstep
    obtain rfl := Option.some.inj hstep
    exact .ended hprogram hrunning (Or.inl ⟨code, hexits, rfl⟩) (Or.inl ⟨code, rfl⟩)
  case signalled pid status =>
    obtain ⟨child, hprogram, hstep⟩ := Option.bind_eq_some_iff.mp hstep
    rw [Option.ite_none_right_eq_some, runs_iff] at hstep
    obtain ⟨⟨-, hrunning⟩, hstep⟩ := hstep
    obtain rfl := Option.some.inj hstep
    exact .ended hprogram hrunning (Or.inr ⟨status, rfl⟩) (Or.inr ⟨status, rfl⟩)
  case reap pid =>
    obtain ⟨entry, hentry, hreaped⟩ := Option.bind_eq_some_iff.mp hstep
    rw [Option.ite_none_right_eq_some, Option.isSome_iff_exists] at hreaped
    obtain ⟨⟨hparent, status, hended⟩, hreaped⟩ := hreaped
    obtain rfl := Option.some.inj hreaped
    have hzombie : s.table pid = some { parent := init, status := some status } :=
      calc s.table pid = some entry := hentry
        _ = some { parent := init, status := some status } := by rw [← hparent, ← hended]
    exact .reaped hzombie

end OfcDarwin.Process.System
