import OfcDarwin.Process.Model

/-!
# What a process handle names

The handle of `ofc_process_exec_impl` is created by the original process from
its own `pid2`, a local that only the first child assigns, in its own copy.  So
the handle names whatever the original process found in that local
(`exec_lock`), and it names the daemon only where the two coincide
(`namesDaemon_iff`).
-/

namespace OfcDarwin.Process

variable (os : Os) (table : HandleTable) (fresh : Handle) (credentials : Credentials)
  (request : Request) (initial : Locals)

/-- The status of the first child. -/
def Os.firstStatus (os : Os) : Int32 :=
  match os.kill, os.secondFork, os.crash with
  | some (.beforeFork status), _, _ => status
  | some (.afterFork status), _, _ => status
  | none, some _, _ => exitStatus exOk
  | none, none, some status => status
  | none, none, none => exitStatus exSoftware

/-- The pid of the second child, when there is one. -/
def Os.secondPid (os : Os) : Option ChildPid :=
  match os.firstFork, os.kill with
  | none, _ => none
  | some _, some (.beforeFork _) => none
  | some _, _ => os.secondFork

/-- What `ret` holds after `waitpid`, which stores nothing when it fails. -/
def Os.seenStatus (os : Os) (initial : Locals) : Int32 :=
  if os.waitpid then os.firstStatus else initial.ret

/-- The original process takes the first child to have succeeded: `waitpid` says
so, or it fails over a `ret` that was zero. -/
def Os.ReportsSuccess (os : Os) (initial : Locals) : Prop :=
  os.firstFork.isSome ∧ os.seenStatus initial = exOk

/-! ## The three processes -/

theorem firstChild_status (locals : Locals) :
    (firstChild os request credentials locals).status = os.firstStatus := by
  unfold firstChild Os.firstStatus
  rcases os.kill with _ | _ | _ <;> rcases os.secondFork with _ | _ <;>
    rcases os.crash with _ | _ <;> rfl

/-- The first child starts the second, unless it ends before or its fork fails. -/
theorem firstChild_daemon (hfirst : os.firstFork.isSome) (locals : Locals) :
    (firstChild os request credentials locals).daemon =
      os.secondPid.map fun pid => secondChild os request credentials pid locals := by
  unfold firstChild Os.secondPid
  obtain ⟨pid, hpid⟩ := Option.isSome_iff_exists.mp hfirst
  rw [hpid]
  rcases os.kill with _ | _ | _ <;> rcases os.secondFork with _ | _ <;> rfl

/-- What a call returns when its first fork succeeds. -/
theorem exec_of_firstFork {pid : ChildPid} (hfirst : os.firstFork = some pid) :
    let execution := ofcProcessExecImpl os table fresh credentials request initial
    execution.child = some (firstChild os request credentials { initial with pid := 0 }) ∧
      execution.hProcess = (if os.seenStatus initial = exOk then some fresh else none) ∧
      execution.table = if os.seenStatus initial = exOk then
          table.create fresh (toDwordPtr initial.pid2)
        else table := by
  unfold ofcProcessExecImpl Os.seenStatus
  rw [hfirst, ← firstChild_status os credentials request { initial with pid := 0 }]
  cases os.waitpid <;> simp only [if_true, if_false, Bool.false_eq_true] <;> split <;>
    exact ⟨rfl, rfl, rfl⟩

theorem exec_of_no_firstFork (hfirst : os.firstFork = none) :
    let execution := ofcProcessExecImpl os table fresh credentials request initial
    execution.hProcess = none ∧ execution.child = none := by
  unfold ofcProcessExecImpl
  rw [hfirst]
  exact ⟨rfl, rfl⟩

/-- The daemon of a call is its second child. -/
theorem exec_secondChild :
    (ofcProcessExecImpl os table fresh credentials request initial).daemon =
      os.secondPid.map fun pid =>
        secondChild os request credentials pid { initial with pid := 0 } := by
  unfold Execution.daemon
  cases hfirst : os.firstFork with
  | none =>
      rw [(exec_of_no_firstFork os table fresh credentials request initial hfirst).2,
        Os.secondPid, hfirst]
      rfl
  | some pid =>
      rw [(exec_of_firstFork os table fresh credentials request initial hfirst).1,
        Option.bind_some, firstChild_daemon os credentials request (by rw [hfirst]; rfl)]

theorem exec_daemon :
    (ofcProcessExecImpl os table fresh credentials request initial).daemon.map Daemon.pid =
      os.secondPid := by
  rw [exec_secondChild, Option.map_map]
  exact Option.map_id'

/-- A handle is returned exactly when success is reported. -/
theorem exec_hProcess (hProcess : Handle) :
    (ofcProcessExecImpl os table fresh credentials request initial).hProcess = some hProcess ↔
      os.ReportsSuccess initial ∧ hProcess = fresh := by
  unfold Os.ReportsSuccess
  cases hfirst : os.firstFork with
  | none =>
      rw [(exec_of_no_firstFork os table fresh credentials request initial hfirst).1]
      simp only [Option.isSome_none, Bool.false_eq_true, false_and, reduceCtorEq]
  | some pid =>
      rw [(exec_of_firstFork os table fresh credentials request initial hfirst).2.1]
      split
      · rename_i hstatus
        simp only [hstatus, Option.isSome_some, true_and, Option.some.injEq, eq_comm]
      · rename_i hstatus
        simp only [hstatus, and_false, false_and, reduceCtorEq]

/-- The handle holds the `pid2` of the original process. -/
theorem exec_lock (hsuccess : os.ReportsSuccess initial) :
    (ofcProcessExecImpl os table fresh credentials request initial).table.lock fresh =
      toDwordPtr initial.pid2 := by
  obtain ⟨pid, hfirst⟩ := Option.isSome_iff_exists.mp hsuccess.1
  rw [(exec_of_firstFork os table fresh credentials request initial hfirst).2.2,
    if_pos hsuccess.2, HandleTable.lock_create]

/-! ## The handle and the daemon -/

/-- A returned handle names the daemon: `ofc_process_get_id_impl` answers its
pid and `ofc_process_term_impl` signals it. -/
def Execution.NamesDaemon (execution : Execution) : Prop :=
  ∀ hProcess, execution.hProcess = some hProcess →
    ∃ daemon, execution.daemon = some daemon ∧
      ofcProcessGetIdImpl execution.table hProcess = daemon.pid ∧
      (ofcProcessTermImpl execution.table hProcess).1 = daemon.pid

/-- The handle names the daemon exactly when none is returned or the original
process found the daemon's pid in its own, unassigned `pid2`. -/
theorem namesDaemon_iff :
    (ofcProcessExecImpl os table fresh credentials request initial).NamesDaemon ↔
      (os.ReportsSuccess initial → os.secondPid.map Subtype.val = some initial.pid2) := by
  rw [← exec_daemon os table fresh credentials request initial, Option.map_map]
  unfold Execution.NamesDaemon ofcProcessGetIdImpl ofcProcessTermImpl
  constructor
  · intro hnames hsuccess
    obtain ⟨daemon, hdaemon, hid, -⟩ := hnames fresh ((exec_hProcess ..).mpr ⟨hsuccess, rfl⟩)
    rw [exec_lock os table fresh credentials request initial hsuccess, toPidT_toDwordPtr] at hid
    rw [hdaemon, hid]
    rfl
  · intro hpid hProcess hhandle
    obtain ⟨hsuccess, rfl⟩ := (exec_hProcess ..).mp hhandle
    obtain ⟨daemon, hdaemon, heq⟩ := Option.map_eq_some_iff.mp (hpid hsuccess)
    rw [exec_lock os table hProcess credentials request initial hsuccess, toPidT_toDwordPtr]
    exact ⟨daemon, hdaemon, heq.symm, heq.symm⟩

/-- Both forks succeed and the daemon is 4711; its handle names 0. -/
theorem exec_names_no_daemon :
    ∃ (os : Os) (initial : Locals),
      let execution := ofcProcessExecImpl os { record := fun _ => none } 7 { uid := 0, gid := 0 }
        { name := "/usr/libexec/daemon", uname := none, argv := ["daemon"] } initial
      execution.hProcess = some 7 ∧
        execution.daemon.map (fun daemon => daemon.pid.val) = some 4711 ∧
        ofcProcessGetIdImpl execution.table 7 = 0 ∧
        (ofcProcessTermImpl execution.table 7).1 = 0 :=
  ⟨{ firstFork := some ⟨4710, by decide⟩
     secondFork := some ⟨4711, by decide⟩
     kill := none
     crash := none
     waitpid := true
     getpwnam := fun _ => none
     setgid := fun _ => false
     setuid := fun _ => false
     execve := true },
    { pid := 0, pid2 := 0, ret := 0 }, by decide⟩

end OfcDarwin.Process
