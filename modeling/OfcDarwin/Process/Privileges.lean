import OfcDarwin.Process.Terminate

/-!
# The identity of the daemon

The second child looks the user up, sets its group and then its user, and calls
`execve`.  It does not look at what these calls answer: the `execve` follows whatever
they did, and the first child has reported success by then.  So a daemon for a user runs
as that user only when the lookup and both calls succeed (`runsOnlyAs_iff`), and
otherwise it runs with a part of the identity of the caller (`daemon_credentials`).
-/

namespace OfcDarwin.Process

/-- The identity of a user. -/
def Passwd.identity (user : Passwd) : Credentials := { uid := user.pwUid, gid := user.pwGid }

variable (os : Os) (table : HandleTable) (fresh : Handle) (credentials : Credentials)
  (name uname : String) (argv : List String) (initial : Locals)

/-- The user that `uname` names, when the lookup and both changes of identity succeed. -/
def Os.becomes (os : Os) (uname : String) : Option Passwd :=
  (os.getpwnam uname).filter fun user => os.setgid user.pwGid && os.setuid user.pwUid

/-- A call for the user `uname`. -/
def execAs : Execution :=
  ofcProcessExecImpl os table fresh credentials
    { name := name, uname := some uname, argv := argv } initial

/-- A process handle for a daemon that runs with the identity of the caller. -/
def Execution.HandleWithPrivileges (execution : Execution) (credentials : Credentials) : Prop :=
  execution.hProcess.isSome = true ∧
    ∃ daemon, execution.daemon = some daemon ∧ daemon.exec.credentials = credentials

/-- A call for a user reaches `execve` only as that user, after a lookup and two changes
of identity that succeeded; if one of these fails it does not reach `execve`, and gives
no handle for a daemon that runs as the caller. -/
structure RunsOnlyAs (os : Os) (credentials : Credentials) (uname : String)
    (execution : Execution) : Prop where
  user : ∀ daemon, execution.daemon = some daemon →
    ∃ user, os.getpwnam uname = some user ∧ os.setgid user.pwGid = true ∧
      os.setuid user.pwUid = true ∧ daemon.exec.credentials = user.identity
  otherwise : os.becomes uname = none →
    execution.daemon = none ∧ ¬ execution.HandleWithPrivileges credentials

theorem becomes_eq_some_iff {user : Passwd} :
    os.becomes uname = some user ↔
      os.getpwnam uname = some user ∧ os.setgid user.pwGid = true ∧
        os.setuid user.pwUid = true := by
  rw [Os.becomes, Option.filter_eq_some_iff, Bool.and_eq_true]

/-- The identity the daemon reaches `execve` with. -/
theorem daemon_credentials {daemon : Daemon}
    (hdaemon : (execAs os table fresh credentials name uname argv initial).daemon = some daemon) :
    daemon.exec.credentials =
      (os.getpwnam uname).elim credentials (credentials.become os) := by
  rw [execAs, exec_secondChild] at hdaemon
  obtain ⟨pid, -, rfl⟩ := Option.map_eq_some_iff.mp hdaemon
  cases hlookup : os.getpwnam uname with
  | none => simp only [secondChild, hlookup, Option.elim_none]
  | some user => simp only [secondChild, hlookup, Option.elim_some]

/-- When all goes well it is that of the user. -/
theorem credentials_of_becomes {user : Passwd} (hbecomes : os.becomes uname = some user) :
    (os.getpwnam uname).elim credentials (credentials.become os) = user.identity := by
  obtain ⟨hlookup, hgid, huid⟩ := (becomes_eq_some_iff os uname).mp hbecomes
  rw [hlookup, Option.elim_some, Credentials.become, if_pos hgid, if_pos huid]
  rfl

/-- There is a second child exactly when there is a pid for it. -/
theorem execAs_daemon_eq_none_iff :
    (execAs os table fresh credentials name uname argv initial).daemon = none ↔
      os.secondPid = none := by
  rw [execAs, exec_secondChild, Option.map_eq_none_iff]

/-- A call for a user runs the daemon only as that user exactly when it starts no second
child, or the lookup and both changes of identity succeed. -/
theorem runsOnlyAs_iff :
    RunsOnlyAs os credentials uname (execAs os table fresh credentials name uname argv initial) ↔
      os.secondPid = none ∨ (os.becomes uname).isSome = true := by
  constructor
  · rintro ⟨-, hotherwise⟩
    cases hbecomes : os.becomes uname with
    | none =>
        left
        rw [← execAs_daemon_eq_none_iff os table fresh credentials name uname argv initial]
        exact (hotherwise hbecomes).1
    | some user => exact Or.inr rfl
  · rintro (hnone | hsome)
    · have hdaemon := (execAs_daemon_eq_none_iff os table fresh credentials name uname argv
        initial).mpr hnone
      refine ⟨fun daemon hsome => ?_, fun _ => ⟨hdaemon, ?_⟩⟩
      · rw [hdaemon] at hsome
        cases hsome
      · rintro ⟨-, daemon, hsome, -⟩
        rw [hdaemon] at hsome
        cases hsome
    · obtain ⟨user, hbecomes⟩ := Option.isSome_iff_exists.mp hsome
      refine ⟨fun daemon hdaemon => ?_, fun hfails => ?_⟩
      · obtain ⟨hlookup, hgid, huid⟩ := (becomes_eq_some_iff os uname).mp hbecomes
        refine ⟨user, hlookup, hgid, huid, ?_⟩
        rw [daemon_credentials os table fresh credentials name uname argv initial hdaemon,
          credentials_of_becomes os credentials uname hbecomes]
      · rw [hfails] at hbecomes
        cases hbecomes

/-- Both forks succeed and the user is not found: the daemon reaches `execve` as root, and
the caller gets a handle. -/
theorem daemon_runs_as_root :
    let execution := execAs luckyCall.os { record := fun _ => none } 7 { uid := 0, gid := 0 }
      "/usr/libexec/daemon" "daemon" ["daemon"] { pid := 0, pid2 := 0, ret := 0 }
    execution.hProcess = some 7 ∧
      execution.daemon.map (fun daemon => daemon.exec.credentials) =
        some { uid := 0, gid := 0 } ∧
      execution.HandleWithPrivileges { uid := 0, gid := 0 } ∧
      ¬ RunsOnlyAs luckyCall.os { uid := 0, gid := 0 } "daemon" execution := by
  intro execution
  refine ⟨rfl, rfl, ⟨rfl, _, rfl, rfl⟩, ?_⟩
  rintro ⟨-, hotherwise⟩
  obtain ⟨hnone, -⟩ := hotherwise rfl
  cases hnone

end OfcDarwin.Process
