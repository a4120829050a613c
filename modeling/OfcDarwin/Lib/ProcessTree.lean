import Mathlib.Data.Set.Insert
import Mathlib.Logic.Function.Basic

/-!
# Process trees

The processes of a system and their parents.  A process that has ended stays in the
table as a zombie, with its status, until its parent waits for it.  The children of a
process that ends go to `init`.

What the proofs go by is how the set of children of a process changes: `children_fork`,
`children_exit` and `children_reap`.
-/

namespace ProcessTree

/-- A process: its parent, and its status once it has ended. -/
structure Entry (Pid Status : Type*) where
  parent : Pid
  status : Option Status

/-- The processes that exist, by pid. -/
abbrev Table (Pid Status : Type*) := Pid → Option (Entry Pid Status)

variable {Pid Status : Type*}

namespace Table

/-- The process exists and has not ended. -/
def Running (table : Table Pid Status) (pid : Pid) : Prop :=
  ∃ entry, table pid = some entry ∧ entry.status = none

/-- The process has ended and has not been waited for. -/
def Zombie (table : Table Pid Status) (pid : Pid) (status : Status) : Prop :=
  ∃ entry, table pid = some entry ∧ entry.status = some status

/-- The processes whose parent a process is. -/
def children (table : Table Pid Status) (parent : Pid) : Set Pid :=
  {pid | ∃ entry, table pid = some entry ∧ entry.parent = parent}

theorem mem_children {table : Table Pid Status} {pid parent : Pid} :
    pid ∈ table.children parent ↔ ∃ entry, table pid = some entry ∧ entry.parent = parent :=
  Iff.rfl

theorem Running.not_zombie {table : Table Pid Status} {pid : Pid} (hrunning : table.Running pid)
    (status : Status) : ¬ table.Zombie pid status := by
  rintro ⟨other, hother, hended⟩
  obtain ⟨entry, hentry, hrunning⟩ := hrunning
  obtain rfl := Option.some.inj (hentry.symm.trans hother)
  exact absurd (hrunning.symm.trans hended) (by simp)

theorem Running.status_eq {table : Table Pid Status} {pid : Pid} {entry : Entry Pid Status}
    (hrunning : table.Running pid) (hentry : table pid = some entry) : entry.status = none := by
  obtain ⟨other, hother, hstatus⟩ := hrunning
  obtain rfl := Option.some.inj (hentry.symm.trans hother)
  exact hstatus

theorem Running.ne_none {table : Table Pid Status} {pid : Pid} (hrunning : table.Running pid) :
    table pid ≠ none := by
  obtain ⟨entry, hentry, -⟩ := hrunning
  rw [hentry]
  exact Option.some_ne_none entry

theorem Zombie.not_running {table : Table Pid Status} {pid : Pid} {status : Status}
    (hzombie : table.Zombie pid status) : ¬ table.Running pid :=
  fun hrunning => hrunning.not_zombie status hzombie

variable [DecidableEq Pid]

/-- `parent` forks, and `child` is the pid of the new process. -/
def fork (table : Table Pid Status) (parent child : Pid) : Table Pid Status :=
  Function.update table child (some { parent := parent, status := none })

/-- `pid` ends. -/
def exit (table : Table Pid Status) (init pid : Pid) (status : Status) : Table Pid Status :=
  fun other => (table other).map fun entry =>
    { parent := if entry.parent = pid then init else entry.parent
      status := if other = pid then some status else entry.status }

/-- The parent of `pid` has waited for it. -/
def reap (table : Table Pid Status) (pid : Pid) : Table Pid Status :=
  Function.update table pid none

variable {table : Table Pid Status} {init parent child pid other : Pid} {status : Status}

/-! ## Fork -/

@[simp] theorem fork_self : table.fork parent child child =
    some { parent := parent, status := none } :=
  Function.update_self ..

theorem fork_of_ne (hne : other ≠ child) : table.fork parent child other = table other :=
  Function.update_of_ne hne ..

theorem Running.fork (hrunning : table.Running pid) (hfresh : table child = none) :
    (table.fork parent child).Running pid := by
  obtain ⟨entry, hentry, hstatus⟩ := hrunning
  refine ⟨entry, ?_, hstatus⟩
  rwa [fork_of_ne]
  rintro rfl
  exact absurd (hfresh.symm.trans hentry) (by simp)

theorem children_fork (hfresh : table child = none) :
    (table.fork parent child).children pid =
      if pid = parent then insert child (table.children pid) else table.children pid := by
  ext other
  by_cases hother : other = child
  · subst hother
    have hno : other ∉ table.children pid := by
      rintro ⟨entry, hentry, -⟩
      exact absurd (hfresh.symm.trans hentry) (by simp)
    constructor
    · rintro ⟨entry, hentry, rfl⟩
      obtain rfl := Option.some.inj (fork_self.symm.trans hentry)
      rw [if_pos rfl]
      exact Set.mem_insert _ _
    · intro hmem
      split at hmem
      · rename_i heq
        exact ⟨_, fork_self, heq.symm⟩
      · exact absurd hmem hno
  · have hsame : other ∈ (table.fork parent child).children pid ↔ other ∈ table.children pid := by
      rw [mem_children, mem_children, fork_of_ne hother]
    rw [hsame]
    split
    · rw [Set.mem_insert_iff, or_iff_right hother]
    · rfl

/-! ## Exit -/

theorem exit_eq_none : table.exit init pid status other = none ↔ table other = none :=
  Option.map_eq_none_iff

theorem exit_of_some {entry : Entry Pid Status} (hentry : table other = some entry) :
    table.exit init pid status other = some
      { parent := if entry.parent = pid then init else entry.parent
        status := if other = pid then some status else entry.status } := by
  rw [exit, hentry]
  rfl

theorem Running.exit (hrunning : table.Running other) (hne : other ≠ pid) :
    (table.exit init pid status).Running other := by
  obtain ⟨entry, hentry, hstatus⟩ := hrunning
  exact ⟨_, exit_of_some hentry, (if_neg hne).trans hstatus⟩

/-- The process that ends is a zombie. -/
theorem zombie_exit_self (hrunning : table.Running pid) :
    (table.exit init pid status).Zombie pid status := by
  obtain ⟨entry, hentry, -⟩ := hrunning
  exact ⟨_, exit_of_some hentry, if_pos rfl⟩

/-- The children of a process that ends go to `init`. -/
theorem children_exit (hinit : init ≠ pid) :
    (table.exit init pid status).children parent =
      if parent = pid then ∅
      else if parent = init then table.children init ∪ table.children pid
      else table.children parent := by
  ext other
  cases hentry : table other with
  | none =>
      have hnone : ∀ parent, other ∉ table.children parent := by
        rintro parent ⟨entry, hsome, -⟩
        exact absurd (hentry.symm.trans hsome) (by simp)
      have hexit : other ∉ (table.exit init pid status).children parent := by
        rintro ⟨entry, hsome, -⟩
        exact absurd ((exit_eq_none.mpr hentry).symm.trans hsome) (by simp)
      refine iff_of_false hexit ?_
      split
      · exact Set.notMem_empty other
      · split
        · rintro (hmem | hmem) <;> exact hnone _ hmem
        · exact hnone parent
  | some entry =>
      have hbefore : ∀ parent, other ∈ table.children parent ↔ entry.parent = parent := by
        intro parent
        refine ⟨?_, fun heq => ⟨entry, hentry, heq⟩⟩
        rintro ⟨found, hfound, rfl⟩
        rw [Option.some.inj (hentry.symm.trans hfound)]
      have hafter : other ∈ (table.exit init pid status).children parent ↔
          (if entry.parent = pid then init else entry.parent) = parent := by
        constructor
        · rintro ⟨found, hfound, rfl⟩
          rw [← Option.some.inj ((exit_of_some hentry).symm.trans hfound)]
        · exact fun heq => ⟨_, exit_of_some hentry, heq⟩
      rw [hafter]
      by_cases hended : parent = pid
      · rw [if_pos hended]
        refine iff_of_false (fun heq => ?_) (Set.notMem_empty other)
        by_cases hchild : entry.parent = pid
        · rw [if_pos hchild] at heq
          exact hinit (heq.trans hended)
        · rw [if_neg hchild] at heq
          exact hchild (heq.trans hended)
      · rw [if_neg hended]
        by_cases htaken : parent = init
        · rw [if_pos htaken, Set.mem_union, hbefore, hbefore, htaken]
          by_cases hchild : entry.parent = pid
          · rw [if_pos hchild]
            exact iff_of_true rfl (Or.inr hchild)
          · rw [if_neg hchild, or_iff_left hchild]
        · rw [if_neg htaken, hbefore]
          by_cases hchild : entry.parent = pid
          · rw [if_pos hchild, hchild]
            exact iff_of_false (fun heq => htaken heq.symm) (fun heq => hended heq.symm)
          · rw [if_neg hchild]

/-! ## Waiting -/

@[simp] theorem reap_self : table.reap pid pid = none := Function.update_self ..

theorem reap_of_ne (hne : other ≠ pid) : table.reap pid other = table other :=
  Function.update_of_ne hne ..

theorem Running.reap (hrunning : table.Running other) (hne : other ≠ pid) :
    (table.reap pid).Running other := by
  obtain ⟨entry, hentry, hstatus⟩ := hrunning
  exact ⟨entry, (reap_of_ne hne).trans hentry, hstatus⟩

theorem children_reap : (table.reap pid).children parent = table.children parent \ {pid} := by
  ext other
  by_cases hother : other = pid
  · subst hother
    refine iff_of_false ?_ fun hmem => hmem.2 rfl
    rintro ⟨entry, hentry, -⟩
    exact absurd (reap_self.symm.trans hentry) (by simp)
  · rw [Set.mem_sdiff, mem_children, mem_children, reap_of_ne hother]
    exact (and_iff_left hother).symm

end Table

end ProcessTree
