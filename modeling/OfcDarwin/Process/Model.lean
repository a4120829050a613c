import Mathlib.Logic.Function.Basic
import OfcDarwin.Handle

/-!
# Starting a daemon

`ofc_process_exec_impl` forks twice.  Three processes then run different ends
of the one function, each over its own copy of the locals: the original process
waits for the first child, the first child starts the second and exits, and the
second child becomes the daemon.  Below each of the three has its own function,
from the locals it starts with.

What the system calls answer during one call is an `Os`.  A local that the
source does not initialise has whatever value it has in the `Locals` the call
starts with.
-/

namespace OfcDarwin.Process

/-- `pid_t`. -/
abbrev PidT := Int32

/-- What `fork` returns to the caller when it succeeds. -/
abbrev ChildPid := { pid : PidT // 0 < pid }

/-- `EX_OK`. -/
def exOk : Int32 := 0

/-- `EX_SOFTWARE`. -/
def exSoftware : Int32 := 70

/-- The status `waitpid` stores for a process that called `_Exit(code)`. -/
def exitStatus (code : Int32) : Int32 := (code &&& 255) <<< 8

/-- The status of a process that a signal or `ofc_process_crash` has ended. -/
abbrev AbnormalStatus := { status : Int32 // status ≠ exOk }

/-- The fields of `struct passwd` that are used. -/
structure Passwd where
  pwUid : UInt32
  pwGid : UInt32
deriving DecidableEq, Repr

/-- The identity a process runs under. -/
structure Credentials where
  uid : UInt32
  gid : UInt32
deriving DecidableEq, Repr

/-- An early end of the first child, before or after it has forked. -/
inductive Kill where
  | beforeFork (status : AbnormalStatus)
  | afterFork (status : AbnormalStatus)

/-- The answers of the system during one call.  A fork that fails is `none`;
`crash` is how a process ends in `ofc_process_crash`, or `none` when that
function returns. -/
structure Os where
  firstFork : Option ChildPid
  secondFork : Option ChildPid
  kill : Option Kill
  crash : Option AbnormalStatus
  waitpid : Bool
  getpwnam : String → Option Passwd
  setgid : UInt32 → Bool
  setuid : UInt32 → Bool
  execve : Bool

/-- The locals of `ofc_process_exec_impl` that a fork copies and a process
assigns. -/
structure Locals where
  pid : PidT
  pid2 : PidT
  ret : Int32
deriving DecidableEq

/-- The arguments of `ofc_process_exec_impl`; `uname` is `none` for `OFC_NULL`. -/
structure Request where
  name : String
  uname : Option String
  argv : List String

/-! ## The second child -/

/-- A call of `execve`, with the identity of the calling process. -/
structure Exec where
  path : String
  argv : List String
  credentials : Credentials
deriving DecidableEq, Repr

/-- The second child: its pid, and the `execve` it reaches. -/
structure Daemon where
  pid : ChildPid
  locals : Locals
  exec : Exec
  running : Bool

/-- The identity after the `setgid` and the `setuid` to `user`. -/
def Credentials.become (os : Os) (credentials : Credentials) (user : Passwd) : Credentials :=
  { gid := if os.setgid user.pwGid then user.pwGid else credentials.gid
    uid := if os.setuid user.pwUid then user.pwUid else credentials.uid }

/-- The second child, from the `fork` on. -/
def secondChild (os : Os) (request : Request) (credentials : Credentials) (pid : ChildPid)
    (locals : Locals) : Daemon :=
  let credentials :=
    match request.uname with
    | none => credentials
    | some cuname =>
        match os.getpwnam cuname with
        | none => credentials
        | some user => credentials.become os user
  { pid := pid
    locals := { locals with pid2 := 0 }
    exec := { path := request.name, argv := request.argv, credentials := credentials }
    running := os.execve }

/-! ## The first child -/

/-- What the first child leaves behind: its locals when it exits, the status
for its parent, and the process it started. -/
structure FirstChild where
  locals : Locals
  status : Int32
  daemon : Option Daemon

/-- The first child, from the `fork` on.  The assignment of `pid2` is to its own
copy of the locals. -/
def firstChild (os : Os) (request : Request) (credentials : Credentials) (locals : Locals) :
    FirstChild :=
  match os.kill with
  | some (.beforeFork status) => { locals := locals, status := status, daemon := none }
  | kill =>
      match os.secondFork with
      | none =>
          { locals := { locals with pid2 := -1 }
            status :=
              match kill, os.crash with
              | some (.afterFork status), _ => status
              | _, some status => status
              | _, none => exitStatus exSoftware
            daemon := none }
      | some pid2 =>
          { locals := { locals with pid2 := pid2 }
            status :=
              match kill with
              | some (.afterFork status) => status
              | _ => exitStatus exOk
            daemon := some (secondChild os request credentials pid2 locals) }

/-! ## The original process -/

/-- The process handles: the `OFC_VOID *` a handle was created with. -/
structure HandleTable where
  record : Handle → Option UInt64

/-- `ofc_handle_lock`, with `OFC_NULL` for a handle that does not resolve. -/
def HandleTable.lock (table : HandleTable) (hProcess : Handle) : UInt64 :=
  (table.record hProcess).getD 0

/-- `ofc_handle_create` of the handle `fresh`. -/
def HandleTable.create (table : HandleTable) (fresh : Handle) (record : UInt64) : HandleTable :=
  { record := Function.update table.record fresh (some record) }

/-- `ofc_handle_destroy`. -/
def HandleTable.destroy (table : HandleTable) (hProcess : Handle) : HandleTable :=
  { record := Function.update table.record hProcess none }

/-- A `pid_t` as an `OFC_DWORD_PTR`, and back. -/
def toDwordPtr (pid : PidT) : UInt64 := pid.toInt64.toUInt64

def toPidT (word : UInt64) : PidT := word.toInt64.toInt32

/-- The outcome of a call: the handle, with `none` for
`OFC_INVALID_HANDLE_VALUE`, the handles afterwards, the processes it ran, and how the
original process has ended, if `ofc_process_crash` has ended it. -/
structure Execution where
  hProcess : Option Handle
  table : HandleTable
  locals : Locals
  child : Option FirstChild
  crashed : Option AbnormalStatus

/-- The daemon a call started. -/
def Execution.daemon (execution : Execution) : Option Daemon :=
  execution.child.bind FirstChild.daemon

/-- `ofc_process_exec_impl`.  `fresh` is the handle that `ofc_handle_create`
would return. -/
def ofcProcessExecImpl (os : Os) (table : HandleTable) (fresh : Handle)
    (credentials : Credentials) (request : Request) (initial : Locals) : Execution :=
  match os.firstFork with
  | none =>
      { hProcess := none
        table := table
        locals := { initial with pid := -1 }
        child := none
        crashed := os.crash }
  | some pid =>
      let child := firstChild os request credentials { initial with pid := 0 }
      let locals := { initial with pid := pid }
      let locals := if os.waitpid then { locals with ret := child.status } else locals
      if locals.ret = exOk then
        { hProcess := some fresh
          table := table.create fresh (toDwordPtr locals.pid2)
          locals := locals
          child := some child
          crashed := none }
      else
        { hProcess := none
          table := table
          locals := locals
          child := some child
          crashed := none }

/-! ## Using the handle -/

/-- `ofc_process_get_id_impl`. -/
def ofcProcessGetIdImpl (table : HandleTable) (hProcess : Handle) : PidT :=
  toPidT (table.lock hProcess)

/-- `ofc_process_term_impl`: the pid it sends `SIGTERM` to, and the handles
afterwards. -/
def ofcProcessTermImpl (table : HandleTable) (hProcess : Handle) : PidT × HandleTable :=
  (toPidT (table.lock hProcess), table.destroy hProcess)

@[simp] theorem toPidT_toDwordPtr (pid : PidT) : toPidT (toDwordPtr pid) = pid := by
  rw [toPidT, toDwordPtr, Int64.toInt64_toUInt64, Int32.toInt32_toInt64]

@[simp] theorem HandleTable.lock_create (table : HandleTable) (fresh : Handle) (record : UInt64) :
    (table.create fresh record).lock fresh = record := by
  unfold HandleTable.lock HandleTable.create
  simp only [Function.update_self, Option.getD_some]

end OfcDarwin.Process
