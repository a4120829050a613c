import OfcDarwin.Lib.Transition

/-!
# Counting along a run

`tally step cost s actions` is the sum of the costs of the steps of a run from `s`,
where a step may cost what the state it is taken from says.

A bound on such a sum is an amortised one: a potential, read off the state, pays for
the costs, and what raises it is counted as a gain.

* `tally_add_le`: every step pays, so the run pays.
* `tally_add_le_along`: the same bound for the runs whose steps meet a condition.
* `run_induction_tally`: an invariant that speaks of the count.
-/

namespace Transition

variable {σ α : Type*}

/-- The sum of the costs of the steps of a run. -/
def tally (step : σ → α → Option σ) (cost : σ → α → ℕ) : σ → List α → ℕ
  | _, [] => 0
  | s, a :: rest => cost s a + (step s a).elim 0 fun t => tally step cost t rest

/-- The cost of a step that is counted or not. -/
def charge (counted : Bool) : ℕ := if counted then 1 else 0

@[simp] theorem charge_true : charge true = 1 := rfl

@[simp] theorem charge_false : charge false = 0 := rfl

variable {step : σ → α → Option σ} {cost gain : σ → α → ℕ} {I : σ → Prop}

@[simp] theorem tally_nil (s : σ) : tally step cost s [] = 0 := rfl

theorem tally_cons {s t : σ} {a : α} (hstep : step s a = some t) (rest : List α) :
    tally step cost s (a :: rest) = cost s a + tally step cost t rest := by
  rw [tally, hstep]
  rfl

/-- Two stretches of a run are counted one after the other. -/
theorem tally_append {s t : σ} {first : List α} (hrun : run step s first = some t)
    (second : List α) :
    tally step cost s (first ++ second) = tally step cost s first + tally step cost t second := by
  induction first generalizing s with
  | nil =>
      cases hrun
      rw [List.nil_append, tally_nil, Nat.zero_add]
  | cons a rest ih =>
      obtain ⟨u, hstep, hrest⟩ := run_cons_eq_some.mp hrun
      rw [List.cons_append, tally_cons hstep, tally_cons hstep, ih hrest, Nat.add_assoc]

/-- If no step is counted, none meets what is counted. -/
theorem along_of_tally_eq_zero {counted : σ → α → Bool} {s u : σ} {actions : List α}
    (hrun : run step s actions = some u)
    (hzero : tally step (fun s a => charge (counted s a)) s actions = 0) :
    Along step (fun s a => counted s a = false) s actions := by
  induction actions generalizing s with
  | nil => trivial
  | cons a rest ih =>
      obtain ⟨t, hstep, hrest⟩ := run_cons_eq_some.mp hrun
      rw [tally_cons hstep, Nat.add_eq_zero_iff] at hzero
      refine ⟨?_, fun v hv => ?_⟩
      · show counted s a = false
        cases hcounted : counted s a with
        | false => rfl
        | true => exact absurd hzero.1 (by simp [hcounted])
      · obtain rfl : t = v := Option.some.inj (hstep.symm.trans hv)
        exact ih hrest hzero.2

/-- The steps that are counted, when whether a step counts is up to its action. -/
theorem tally_charge {counted : α → Bool} {s u : σ} {actions : List α}
    (hrun : run step s actions = some u) :
    tally step (fun _ a => charge (counted a)) s actions = actions.countP counted := by
  induction actions generalizing s with
  | nil => rfl
  | cons a rest ih =>
      obtain ⟨t, hstep, hrest⟩ := run_cons_eq_some.mp hrun
      rw [tally_cons hstep, ih hrest, List.countP_cons, Nat.add_comm]
      rfl

/-- What holds at the start of the number `n`, and is preserved by every step when the
number grows by the cost of the step, holds at the end of the number and the tally. -/
theorem run_induction_tally {I : σ → ℕ → Prop}
    (hkeep : ∀ s a t n, I s n → step s a = some t → I t (n + cost s a))
    {s u : σ} {n : ℕ} {actions : List α} (hinit : I s n) (hrun : run step s actions = some u) :
    I u (n + tally step cost s actions) := by
  induction actions generalizing s n with
  | nil =>
      cases hrun
      exact hinit
  | cons a rest ih =>
      obtain ⟨t, hstep, hrest⟩ := run_cons_eq_some.mp hrun
      rw [tally_cons hstep, ← Nat.add_assoc]
      exact ih (hkeep s a t n hinit hstep) hrest

section Potential

variable {potential : σ → ℕ} {P : σ → α → Prop}

/-- In a run whose steps meet `P`, the potential and the gains pay for the costs, if
they pay for the cost of each such step. -/
theorem tally_add_le_along (hinv : ∀ s a t, I s → P s a → step s a = some t → I t)
    (hpay : ∀ s a t, I s → P s a → step s a = some t →
      cost s a + potential t ≤ potential s + gain s a)
    {s u : σ} {actions : List α} (hI : I s) (halong : Along step P s actions)
    (hrun : run step s actions = some u) :
    tally step cost s actions + potential u ≤ potential s + tally step gain s actions := by
  induction actions generalizing s with
  | nil =>
      cases hrun
      simp
  | cons a rest ih =>
      obtain ⟨t, hstep, hrest⟩ := run_cons_eq_some.mp hrun
      have hfirst := hpay s a t hI halong.1 hstep
      have hothers := ih (hinv s a t hI halong.1 hstep) (halong.2 t hstep) hrest
      rw [tally_cons hstep, tally_cons hstep]
      omega

/-- The potential and the gains pay for the costs of a run, if they pay for the cost
of each step. -/
theorem tally_add_le (hinv : ∀ s a t, I s → step s a = some t → I t)
    (hpay : ∀ s a t, I s → step s a = some t → cost s a + potential t ≤ potential s + gain s a)
    {s u : σ} {actions : List α} (hI : I s) (hrun : run step s actions = some u) :
    tally step cost s actions + potential u ≤ potential s + tally step gain s actions :=
  tally_add_le_along (fun s a t hI _ => hinv s a t hI) (fun s a t hI _ => hpay s a t hI) hI
    (along_true s actions) hrun

end Potential

end Transition
