import OfcDarwin.Process.System

/-!
# Who is whose child

What holds of the processes of `Process/System.lean` in every state: the caller and
`init` run, a first child has the caller as its parent, and a second child has `init`, or
the first child that has forked it as long as that has not ended.  There is one lemma
for each way in which the processes change.
-/

namespace OfcDarwin.Process.System

open ProcessTree

variable {caller init pid pid2 : ChildPid} {program : ChildPid → Option Child}
  {table : Table ChildPid Int32} {child : Child} {status : Int32}

/-- The programs that a child of the caller runs. -/
def Child.isFirst : Child → Bool
  | .first | .crashing | .forked _ => true
  | .second | .failed | .daemon => false

/-- What the entry of a process says, by the program it runs. -/
inductive Placed (caller init : ChildPid) (table : Table ChildPid Int32)
    (program : ChildPid → Option Child) (pid : ChildPid) : Entry ChildPid Int32 → Prop where
  /-- The caller or `init`. -/
  | own (hprogram : program pid = none) :
      Placed caller init table program pid { parent := init, status := none }
  | first {child : Child} {status : Option Int32} (hprogram : program pid = some child)
      (hfirst : child.isFirst = true)
      (hstatus : ∀ ended, status = some ended → child.EndsWith ended) :
      Placed caller init table program pid { parent := caller, status := status }
  /-- A second child whose parent has exited. -/
  | orphan {child : Child} {status : Option Int32} (hprogram : program pid = some child)
      (hsecond : child.isFirst = false)
      (hstatus : ∀ ended, status = some ended → child.EndsWith ended) :
      Placed caller init table program pid { parent := init, status := status }
  | second {child : Child} {status : Option Int32} {parent : ChildPid}
      (hprogram : program pid = some child) (hsecond : child.isFirst = false)
      (hstatus : ∀ ended, status = some ended → child.EndsWith ended)
      (hparent : program parent = some (.forked pid)) (hrunning : table.Running parent) :
      Placed caller init table program pid { parent := parent, status := status }

/-- The caller and `init` run, and every process is where its program says. -/
structure Family (caller init : ChildPid) (table : Table ChildPid Int32)
    (program : ChildPid → Option Child) : Prop where
  caller_exists : table caller ≠ none
  init_exists : table init ≠ none
  caller_program : program caller = none
  init_program : program init = none
  placed : ∀ pid entry, table pid = some entry → Placed caller init table program pid entry

/-- A process stays where it is when its program does, and when a first child that forks
it goes on. -/
theorem Placed.frame {table' : Table ChildPid Int32} {program' : ChildPid → Option Child}
    {entry : Entry ChildPid Int32} (hplaced : Placed caller init table program pid entry)
    (hsame : program' pid = program pid)
    (hparents : ∀ parent, program parent = some (.forked pid) → table.Running parent →
      program' parent = some (.forked pid) ∧ table'.Running parent) :
    Placed caller init table' program' pid entry := by
  cases hplaced with
  | own hprogram => exact .own (hsame.trans hprogram)
  | first hprogram hfirst hstatus => exact .first (hsame.trans hprogram) hfirst hstatus
  | orphan hprogram hsecond hstatus => exact .orphan (hsame.trans hprogram) hsecond hstatus
  | second hprogram hsecond hstatus hparent hrunning =>
      obtain ⟨hparent', hrunning'⟩ := hparents _ hparent hrunning
      exact .second (hsame.trans hprogram) hsecond hstatus hparent' hrunning'

namespace Family

variable (hfamily : Family caller init table program)
include hfamily

theorem ne_caller (hprogram : program pid = some child) : pid ≠ caller := by
  rintro rfl
  exact absurd (hfamily.caller_program.symm.trans hprogram) (by simp)

theorem ne_init (hprogram : program pid = some child) : pid ≠ init := by
  rintro rfl
  exact absurd (hfamily.init_program.symm.trans hprogram) (by simp)

/-- A process that has ended ran a program with which it may end so. -/
theorem program_of_zombie (hzombie : table.Zombie pid status) :
    ∃ child, program pid = some child ∧ child.EndsWith status := by
  obtain ⟨entry, hentry, hstatus⟩ := hzombie
  cases hfamily.placed pid entry hentry with
  | own hprogram => exact absurd hstatus (by simp)
  | first hprogram _ hends => exact ⟨_, hprogram, hends status hstatus⟩
  | orphan hprogram _ hends => exact ⟨_, hprogram, hends status hstatus⟩
  | second hprogram _ hends _ _ => exact ⟨_, hprogram, hends status hstatus⟩

/-- The children of the caller are first children. -/
theorem isFirst_of_mem_children (hne : caller ≠ init) (hmem : pid ∈ table.children caller) :
    ∃ child, program pid = some child ∧ child.isFirst = true := by
  obtain ⟨entry, hentry, hparent⟩ := hmem
  cases hfamily.placed pid entry hentry with
  | own hprogram => exact absurd hparent.symm hne
  | first hprogram hfirst _ => exact ⟨_, hprogram, hfirst⟩
  | orphan _ _ _ => exact absurd hparent.symm hne
  | second _ _ _ hforked _ =>
      subst hparent
      exact absurd (hfamily.caller_program.symm.trans hforked) (by simp)

theorem mem_children_of_isFirst {entry : Entry ChildPid Int32}
    (hprogram : program pid = some child) (hfirst : child.isFirst = true) (hentry : table pid = some entry) :
    pid ∈ table.children caller := by
  refine ⟨entry, hentry, ?_⟩
  cases hfamily.placed pid entry hentry with
  | own hnone => exact absurd (hnone.symm.trans hprogram) (by simp)
  | first _ _ _ => rfl
  | orphan hchild hsecond _ =>
      obtain rfl := Option.some.inj (hchild.symm.trans hprogram)
      exact absurd (hfirst.symm.trans hsecond) (by simp)
  | second hchild hsecond _ _ _ =>
      obtain rfl := Option.some.inj (hchild.symm.trans hprogram)
      exact absurd (hfirst.symm.trans hsecond) (by simp)

/-- The caller forks a first child. -/
theorem forkFirst (hfresh : table pid = none) :
    Family caller init (table.fork caller pid) (Function.update program pid (some .first)) := by
  have hne : ∀ other, table other ≠ none → other ≠ pid := by
    rintro other hexists rfl
    exact hexists hfresh
  have hcaller := hne caller hfamily.caller_exists
  have hinit := hne init hfamily.init_exists
  refine ⟨?_, ?_, ?_, ?_, fun other entry hentry => ?_⟩
  · rw [Table.fork_of_ne hcaller]
    exact hfamily.caller_exists
  · rw [Table.fork_of_ne hinit]
    exact hfamily.init_exists
  · rw [Function.update_of_ne hcaller]
    exact hfamily.caller_program
  · rw [Function.update_of_ne hinit]
    exact hfamily.init_program
  by_cases hother : other = pid
  · subst hother
    obtain rfl := Option.some.inj (Table.fork_self.symm.trans hentry)
    exact .first (Function.update_self ..) rfl fun _ hended => absurd hended (by simp)
  · rw [Table.fork_of_ne hother] at hentry
    apply (hfamily.placed other entry hentry).frame
    · exact Function.update_of_ne hother ..
    · intro parent hparent hrunning
      rw [Function.update_of_ne (hne parent hrunning.ne_none)]
      exact ⟨hparent, hrunning.fork hfresh⟩

/-- A first child forks. -/
theorem forkSecond (hprogram : program pid = some .first) (hrunning : table.Running pid)
    (hfresh : table pid2 = none) :
    Family caller init (table.fork pid pid2)
      (Function.update (Function.update program pid (some (.forked pid2))) pid2
        (some .second)) := by
  have hne : ∀ other, table other ≠ none → other ≠ pid2 := by
    rintro other hexists rfl
    exact hexists hfresh
  have hcaller := hne caller hfamily.caller_exists
  have hinit := hne init hfamily.init_exists
  have hpid := hne pid hrunning.ne_none
  have hforked : Function.update (Function.update program pid (some (.forked pid2))) pid2
      (some .second) pid = some (.forked pid2) := by
    rw [Function.update_of_ne hpid, Function.update_self]
  refine ⟨?_, ?_, ?_, ?_, fun other entry hentry => ?_⟩
  · rw [Table.fork_of_ne hcaller]
    exact hfamily.caller_exists
  · rw [Table.fork_of_ne hinit]
    exact hfamily.init_exists
  · rw [Function.update_of_ne hcaller, Function.update_of_ne (hfamily.ne_caller hprogram).symm]
    exact hfamily.caller_program
  · rw [Function.update_of_ne hinit, Function.update_of_ne (hfamily.ne_init hprogram).symm]
    exact hfamily.init_program
  by_cases hnew : other = pid2
  · subst hnew
    obtain rfl := Option.some.inj (Table.fork_self.symm.trans hentry)
    exact .second (Function.update_self ..) rfl (fun _ hended => absurd hended (by simp)) hforked
      (hrunning.fork hfresh)
  rw [Table.fork_of_ne hnew] at hentry
  by_cases hparent : other = pid
  · subst hparent
    have hstatus := hrunning.status_eq hentry
    cases hfamily.placed other entry hentry with
    | own hnone => exact absurd (hnone.symm.trans hprogram) (by simp)
    | first _ _ _ =>
        exact .first hforked rfl fun _ hended => absurd (hstatus.symm.trans hended) (by simp)
    | orphan hchild hsecond _ =>
        obtain rfl := Option.some.inj (hchild.symm.trans hprogram)
        exact absurd hsecond (by simp [Child.isFirst])
    | second hchild hsecond _ _ _ =>
        obtain rfl := Option.some.inj (hchild.symm.trans hprogram)
        exact absurd hsecond (by simp [Child.isFirst])
  · apply (hfamily.placed other entry hentry).frame
    · rw [Function.update_of_ne hnew, Function.update_of_ne hparent]
    · intro parent hforks hgoes
      have hother : parent ≠ pid := by
        rintro rfl
        exact absurd (hprogram.symm.trans hforks) (by simp)
      rw [Function.update_of_ne (hne parent hgoes.ne_none), Function.update_of_ne hother]
      exact ⟨hforks, hgoes.fork hfresh⟩

/-- A child goes on to another program of its generation. -/
theorem become {next : Child} (hprogram : program pid = some child)
    (hrunning : table.Running pid) (hgeneration : next.isFirst = child.isFirst)
    (hforked : ∀ pid2, child ≠ .forked pid2) :
    Family caller init table (Function.update program pid (some next)) := by
  refine ⟨hfamily.caller_exists, hfamily.init_exists, ?_, ?_, fun other entry hentry => ?_⟩
  · rw [Function.update_of_ne (hfamily.ne_caller hprogram).symm]
    exact hfamily.caller_program
  · rw [Function.update_of_ne (hfamily.ne_init hprogram).symm]
    exact hfamily.init_program
  have hparents : ∀ parent, program parent = some (.forked other) → table.Running parent →
      Function.update program pid (some next) parent = some (.forked other) ∧
        table.Running parent := by
    intro parent hforks hgoes
    have hne : parent ≠ pid := by
      rintro rfl
      exact hforked other (Option.some.inj (hprogram.symm.trans hforks))
    rw [Function.update_of_ne hne]
    exact ⟨hforks, hgoes⟩
  by_cases hother : other = pid
  · subst hother
    have hstatus := hrunning.status_eq hentry
    have hends : ∀ ended, entry.status = some ended → next.EndsWith ended := fun _ hended =>
      absurd (hstatus.symm.trans hended) (by simp)
    have hnext : Function.update program other (some next) other = some next :=
      Function.update_self ..
    cases hfamily.placed other entry hentry with
    | own hnone => exact absurd (hnone.symm.trans hprogram) (by simp)
    | first hchild hfirst _ =>
        obtain rfl := Option.some.inj (hchild.symm.trans hprogram)
        exact .first hnext (hgeneration.trans hfirst) hends
    | orphan hchild hsecond _ =>
        obtain rfl := Option.some.inj (hchild.symm.trans hprogram)
        exact .orphan hnext (hgeneration.trans hsecond) hends
    | second hchild hsecond _ hforks hgoes =>
        obtain rfl := Option.some.inj (hchild.symm.trans hprogram)
        obtain ⟨hforks, hgoes⟩ := hparents _ hforks hgoes
        exact .second hnext (hgeneration.trans hsecond) hends hforks hgoes
  · exact (hfamily.placed other entry hentry).frame (Function.update_of_ne hother ..) hparents

/-- A child ends. -/
theorem ends (hprogram : program pid = some child) (hends : child.EndsWith status) :
    Family caller init (table.exit init pid status) program := by
  refine ⟨?_, ?_, hfamily.caller_program, hfamily.init_program, fun other after hafter => ?_⟩
  · rw [Ne, Table.exit_eq_none]
    exact hfamily.caller_exists
  · rw [Ne, Table.exit_eq_none]
    exact hfamily.init_exists
  obtain ⟨entry, hentry, rfl⟩ := Option.map_eq_some_iff.mp hafter
  have hstatus : ∀ {c : Child} {before : Option Int32}, program other = some c →
      (∀ ended, before = some ended → c.EndsWith ended) →
      ∀ ended, (if other = pid then some status else before) = some ended → c.EndsWith ended := by
    intro c before hc hbefore ended hended
    split at hended
    · rename_i heq
      subst heq
      obtain rfl := Option.some.inj (hc.symm.trans hprogram)
      exact Option.some.inj hended ▸ hends
    · exact hbefore ended hended
  cases hfamily.placed other entry hentry with
  | own hnone =>
      rw [if_neg (hfamily.ne_init hprogram).symm, if_neg]
      · exact .own hnone
      · rintro rfl
        exact absurd (hnone.symm.trans hprogram) (by simp)
  | first hchild hfirst hbefore =>
      rw [if_neg (hfamily.ne_caller hprogram).symm]
      exact .first hchild hfirst (hstatus hchild hbefore)
  | orphan hchild hsecond hbefore =>
      rw [if_neg (hfamily.ne_init hprogram).symm]
      exact .orphan hchild hsecond (hstatus hchild hbefore)
  | @second c before parent hchild hsecond hbefore hforks hgoes =>
      by_cases hparent : parent = pid
      · rw [if_pos hparent]
        exact .orphan hchild hsecond (hstatus hchild hbefore)
      · rw [if_neg hparent]
        exact .second hchild hsecond (hstatus hchild hbefore) hforks (hgoes.exit hparent)

/-- The parent of a process that has ended has waited for it. -/
theorem reaped (hzombie : table.Zombie pid status) :
    Family caller init (table.reap pid) program := by
  obtain ⟨child, hprogram, -⟩ := hfamily.program_of_zombie hzombie
  refine ⟨?_, ?_, hfamily.caller_program, hfamily.init_program, fun other entry hentry => ?_⟩
  · rw [Table.reap_of_ne (hfamily.ne_caller hprogram).symm]
    exact hfamily.caller_exists
  · rw [Table.reap_of_ne (hfamily.ne_init hprogram).symm]
    exact hfamily.init_exists
  have hother : other ≠ pid := by
    rintro rfl
    exact absurd (Table.reap_self.symm.trans hentry) (by simp)
  rw [Table.reap_of_ne hother] at hentry
  apply (hfamily.placed other entry hentry).frame rfl
  intro parent hforks hgoes
  refine ⟨hforks, hgoes.reap ?_⟩
  rintro rfl
  exact hzombie.not_running hgoes

end Family

end OfcDarwin.Process.System
