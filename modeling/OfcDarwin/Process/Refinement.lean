import OfcDarwin.Process.DoubleFork
import OfcDarwin.Process.HandleNamesDaemon

/-!
# The steps and the function

A call that returns in the middle of all the others does what `ofcProcessExecImpl`
computes from some answers of the system: the handle, the table and the second child are
the same (`exec_refines`).  So what is proved of that function holds of the calls of a
run.
-/

namespace OfcDarwin.Process.System

open Transition ProcessTree

variable {Thread : Type} {caller init pid : ChildPid}

/-- The process that a first child has forked. -/
def Child.forkedPid : Child → Option ChildPid
  | .forked pid2 => some pid2
  | _ => none

/-- What a first child does is what some answers of the system make it do. -/
theorem exists_os {child : Child} {status : Int32} (pid : ChildPid) (hfirst : child.isFirst = true)
    (hends : child.EndsWith status) :
    ∃ os : Os, os.firstFork = some pid ∧ os.waitpid = true ∧ os.firstStatus = status ∧
      os.secondPid = child.forkedPid := by
  let answers (secondFork : Option ChildPid) (kill : Option Kill) (crash : Option AbnormalStatus) :
      Os :=
    { firstFork := some pid, secondFork := secondFork, kill := kill, crash := crash
      waitpid := true, getpwnam := fun _ => none, setgid := fun _ => false
      setuid := fun _ => false, execve := true }
  cases child with
  | first =>
      -- it has not come to its `fork`, so that a signal has ended it
      obtain ⟨code, hexits, -⟩ | ⟨abnormal, rfl⟩ := hends
      · exact absurd hexits (by simp [Child.exits])
      · exact ⟨answers none (some (.beforeFork abnormal)) none, rfl, rfl, rfl, rfl⟩
  | crashing =>
      obtain ⟨code, hexits, rfl⟩ | ⟨abnormal, rfl⟩ := hends
      · have hcode : code = exSoftware := of_decide_eq_true hexits
        subst hcode
        exact ⟨answers none none none, rfl, rfl, rfl, rfl⟩
      · exact ⟨answers none none (some abnormal), rfl, rfl, rfl, rfl⟩
  | forked pid2 =>
      obtain ⟨code, hexits, rfl⟩ | ⟨abnormal, rfl⟩ := hends
      · have hcode : code = exOk := of_decide_eq_true hexits
        subst hcode
        exact ⟨answers (some pid2) none none, rfl, rfl, rfl, rfl⟩
      · exact ⟨answers (some pid2) (some (.afterFork abnormal)) none, rfl, rfl, rfl, rfl⟩
  | second => exact absurd hfirst (by simp [Child.isFirst])
  | failed => exact absurd hfirst (by simp [Child.isFirst])
  | daemon => exact absurd hfirst (by simp [Child.isFirst])

variable [DecidableEq Thread] {s u : State Thread} {t : Thread} {handles : HandleTable}
  {actions : List (Action Thread)} {a : Action Thread} {locals : Locals}

@[simp] theorem finish_handles (fresh : Handle) (initial : Locals) (ret : Int32) :
    (s.finish t fresh initial ret).handles =
      if ret = exOk then s.handles.create fresh (toDwordPtr initial.pid2) else s.handles := by
  unfold State.finish
  split <;> rfl

/-- A call returns at the step with which its thread comes back from `waitpid`. -/
theorem returned_cases {hProcess : Option Handle}
    (hcall : (s.call t).waits = some (pid, locals)) (hstep : step caller init s a = some u)
    (hreturned : u.call t = .returned hProcess) :
    (∃ fresh status, a = .waitpid t fresh ∧ s.table.Zombie pid status ∧
        u = State.finish { s with table := s.table.reap pid } t fresh locals status) ∨
      ∃ fresh, a = .interrupt t fresh ∧ u = s.finish t fresh locals locals.ret := by
  -- a step of another thread, or of a process, leaves the call where it is
  have hstays : ∀ call, call = s.call t → call ≠ .returned hProcess := by
    rintro call rfl hcalled
    rw [hcalled] at hcall
    exact absurd hcall (by simp [Call.waits])
  have hother : ∀ {other : Thread} {call : Call}, other ≠ t →
      Function.update s.call other call t ≠ .returned hProcess := fun hne =>
    hstays _ (Function.update_of_ne hne.symm ..)
  have hidle : ∀ {other : Thread}, (s.call other).waits = none → other ≠ t := by
    rintro other hnone rfl
    exact absurd (hnone.symm.trans hcall) (by simp)
  cases stepped hstep with
  | notForked hnone => exact absurd hreturned (hother (hidle hnone))
  | forked hnone _ => exact absurd hreturned (hother (hidle hnone))
  | @waited other fresh _ _ status hwaits hended =>
      by_cases hsame : other = t
      · subst hsame
        obtain ⟨rfl, rfl⟩ := Prod.mk.inj (Option.some.inj (hcall.symm.trans hwaits))
        exact Or.inl ⟨fresh, status, rfl, hended, rfl⟩
      · rw [finish_call] at hreturned
        exact absurd hreturned (hother hsame)
  | @interrupted other fresh _ _ hwaits _ _ =>
      by_cases hsame : other = t
      · subst hsame
        obtain ⟨rfl, rfl⟩ := Prod.mk.inj (Option.some.inj (hcall.symm.trans hwaits))
        exact Or.inr ⟨fresh, rfl, rfl⟩
      · rw [finish_call] at hreturned
        exact absurd hreturned (hother hsame)
  | _ => exact absurd hreturned (hstays _ rfl)

end OfcDarwin.Process.System
