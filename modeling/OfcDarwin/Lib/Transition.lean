import Mathlib.Data.List.Basic

/-!
# Runs of a transition system

A system is a partial step function `step : σ → α → Option σ`: the action names
the party that moves and resolves every choice it has, and `none` means that the
action is not enabled.  An interleaving is then just a list of actions, so a
statement about every interleaving is a statement about every list.

Two rules carry the safety proofs built on top of this file.

* `run_induction`: what one step preserves, a run preserves.
* `run_induction_along`: the same under a condition `P` that every step of the
  run meets in the state it is taken from (`Along step P`).
-/

namespace Transition

variable {σ α : Type*}

/-- The state after a list of actions, or `none` if one of them is not enabled. -/
def run (step : σ → α → Option σ) (s : σ) (actions : List α) : Option σ :=
  actions.foldlM step s

/-- Every action of a run meets `P` in the state it is taken from. -/
def Along (step : σ → α → Option σ) (P : σ → α → Prop) : σ → List α → Prop
  | _, [] => True
  | s, a :: rest => P s a ∧ ∀ t, step s a = some t → Along step P t rest

variable {step : σ → α → Option σ} {P Q : σ → α → Prop}

/-- Whether a condition holds along a run is decided by taking the run. -/
def Along.decide [∀ s a, Decidable (P s a)] : ∀ (s : σ) (actions : List α),
    Decidable (Along step P s actions)
  | _, [] => isTrue trivial
  | s, a :: rest =>
      match hstep : step s a with
      | none => decidable_of_iff (P s a) (by simp [Along, hstep])
      | some t =>
          have := Along.decide t rest
          decidable_of_iff (P s a ∧ Along step P t rest) (by simp [Along, hstep])

instance [∀ s a, Decidable (P s a)] (s : σ) (actions : List α) :
    Decidable (Along step P s actions) :=
  Along.decide s actions

/-! ## Runs -/

@[simp] theorem run_nil (s : σ) : run step s [] = some s := rfl

@[simp] theorem run_cons (s : σ) (a : α) (rest : List α) :
    run step s (a :: rest) = (step s a).bind fun t => run step t rest := rfl

theorem run_cons_eq_some {s u : σ} {a : α} {rest : List α} :
    run step s (a :: rest) = some u ↔ ∃ t, step s a = some t ∧ run step t rest = some u := by
  rw [run_cons, Option.bind_eq_some_iff]

theorem run_append (s : σ) (first second : List α) :
    run step s (first ++ second) = (run step s first).bind fun t => run step t second := by
  induction first generalizing s with
  | nil => rfl
  | cons a rest ih =>
      rw [List.cons_append, run_cons, run_cons, Option.bind_assoc]
      exact Option.bind_congr fun t _ => ih t

/-- A run splits at every prefix of its actions. -/
theorem run_prefix {s u : σ} {first second : List α}
    (hrun : run step s (first ++ second) = some u) :
    ∃ t, run step s first = some t ∧ run step t second = some u := by
  rwa [run_append, Option.bind_eq_some_iff] at hrun

/-- What some continuation of a state leads to, some continuation of the state before
leads to. -/
theorem exists_run_of_step {s t : σ} {a : α} {good : σ → Prop} (hstep : step s a = some t)
    (hcan : ∃ rest u, run step t rest = some u ∧ good u) :
    ∃ rest u, run step s rest = some u ∧ good u := by
  obtain ⟨rest, u, hrun, hgood⟩ := hcan
  exact ⟨a :: rest, u, run_cons_eq_some.mpr ⟨t, hstep, hrun⟩, hgood⟩

theorem run_concat_eq_some {s u : σ} {first : List α} {a : α} :
    run step s (first ++ [a]) = some u ↔ ∃ t, run step s first = some t ∧ step t a = some u := by
  rw [run_append, Option.bind_eq_some_iff]
  simp [run_cons]

/-- The places at which a list splits, when it grows by one element at its end. -/
theorem concat_eq_split {actions before after : List α} {last a : α} :
    actions ++ [last] = before ++ a :: after ↔
      (before = actions ∧ a = last ∧ after = []) ∨
        ∃ rest, after = rest ++ [last] ∧ actions = before ++ a :: rest := by
  constructor
  · intro hsplit
    rcases List.eq_nil_or_concat' after with rfl | ⟨rest, x, rfl⟩
    · obtain ⟨rfl, hlast⟩ := List.append_inj' hsplit rfl
      exact Or.inl ⟨rfl, (List.singleton_inj.mp hlast).symm, rfl⟩
    · have hinit : actions ++ [last] = (before ++ a :: rest) ++ [x] := by simpa using hsplit
      obtain ⟨hactions, hlast⟩ := List.append_inj' hinit rfl
      exact Or.inr ⟨rest, by rw [List.singleton_inj.mp hlast], hactions⟩
  · rintro (⟨rfl, rfl, rfl⟩ | ⟨rest, rfl, rfl⟩)
    · rfl
    · simp

/-! ## Invariants -/

/-- What holds at the start and is preserved by every step that meets `P` holds
at the end of every run whose steps all meet `P`. -/
theorem run_induction_along {I : σ → Prop}
    (hstep : ∀ s a t, I s → P s a → step s a = some t → I t) {s u : σ} {actions : List α}
    (hinit : I s) (halong : Along step P s actions) (hrun : run step s actions = some u) :
    I u := by
  induction actions generalizing s with
  | nil =>
      cases hrun
      exact hinit
  | cons a rest ih =>
      obtain ⟨t, hst, hrest⟩ := run_cons_eq_some.mp hrun
      exact ih (hstep s a t hinit halong.1 hst) (halong.2 t hst) hrest

/-- A condition holds along a run exactly when every action of it meets the
condition in the state that the actions before it lead to. -/
theorem along_iff_splits {s : σ} {actions : List α} :
    Along step P s actions ↔
      ∀ (before after : List α) (a : α), actions = before ++ a :: after →
        ∀ t, run step s before = some t → P t a := by
  induction actions generalizing s with
  | nil => simp [Along]
  | cons first rest ih =>
      constructor
      · rintro ⟨hfirst, hrest⟩ before after a hsplit t hrun
        cases before with
        | nil =>
            obtain ⟨rfl, rfl⟩ := List.cons.inj hsplit
            cases hrun
            exact hfirst
        | cons b before =>
            obtain ⟨rfl, hrest'⟩ := List.cons.inj hsplit
            obtain ⟨v, hstep, hbefore⟩ := run_cons_eq_some.mp hrun
            exact ih.mp (hrest v hstep) before after a hrest' t hbefore
      · intro hall
        refine ⟨hall [] rest first rfl s rfl, fun v hstep => ih.mpr ?_⟩
        intro before after a hsplit t hrun
        exact hall (first :: before) after a (by rw [hsplit, List.cons_append]) t
          (run_cons_eq_some.mpr ⟨v, hstep, hrun⟩)

theorem along_true (s : σ) (actions : List α) : Along step (fun _ _ => True) s actions := by
  induction actions generalizing s with
  | nil => trivial
  | cons a rest ih => exact ⟨trivial, fun t _ => ih t⟩

/-- A condition on the actions alone. -/
theorem along_of_forall {P : α → Prop} {s : σ} {actions : List α} (hall : ∀ a ∈ actions, P a) :
    Along step (fun _ a => P a) s actions := by
  induction actions generalizing s with
  | nil => trivial
  | cons a rest ih =>
      exact ⟨hall a List.mem_cons_self, fun t _ => ih fun b hb => hall b (List.mem_cons_of_mem a hb)⟩

/-- Two conditions that hold along a run hold together. -/
theorem Along.and {s : σ} {actions : List α} (hP : Along step P s actions)
    (hQ : Along step Q s actions) : Along step (fun s a => P s a ∧ Q s a) s actions := by
  induction actions generalizing s with
  | nil => trivial
  | cons a rest ih => exact ⟨⟨hP.1, hQ.1⟩, fun t hstep => ih (hP.2 t hstep) (hQ.2 t hstep)⟩

/-- A condition that holds along a run, and along one that goes on from its end, holds
along both. -/
theorem Along.append {s t : σ} {first second : List α} (hfirst : Along step P s first)
    (hrun : run step s first = some t) (hsecond : Along step P t second) :
    Along step P s (first ++ second) := by
  induction first generalizing s with
  | nil =>
      cases hrun
      exact hsecond
  | cons a rest ih =>
      obtain ⟨u, hstep, hrest⟩ := run_cons_eq_some.mp hrun
      refine ⟨hfirst.1, fun v hv => ?_⟩
      obtain rfl : u = v := Option.some.inj (hstep.symm.trans hv)
      exact ih (hfirst.2 u hstep) hrest

/-- What holds at the start and is preserved by every step holds at the end of
every run. -/
theorem run_induction {I : σ → Prop} (hstep : ∀ s a t, I s → step s a = some t → I t)
    {s u : σ} {actions : List α} (hinit : I s) (hrun : run step s actions = some u) : I u :=
  run_induction_along (fun s a t hI _ hst => hstep s a t hI hst) hinit
    (along_true s actions) hrun

/-! ## Simulations -/

section Simulation

variable {τ : Type*} {I : σ → Prop} {R : σ → τ → Prop}

/-- `spec` is simulated at every point of a run exactly when every step of the run
meets `P`, if that is the condition for one step to be simulated. -/
theorem simulates_iff_along (spec : τ → α → τ)
    (hinv : ∀ s a u, I s → step s a = some u → I u)
    (hstep : ∀ s a u t, I s → R s t → step s a = some u → (R u (spec t a) ↔ P s a))
    {s u : σ} {t : τ} {actions : List α} (hI : I s) (hR : R s t)
    (hrun : run step s actions = some u) :
    (∀ before after : List α, actions = before ++ after → ∀ v, run step s before = some v →
        R v (before.foldl spec t)) ↔
      Along step P s actions := by
  induction actions generalizing s t with
  | nil =>
      refine ⟨fun _ => trivial, fun _ before after hsplit v hv => ?_⟩
      obtain ⟨rfl, -⟩ := List.append_eq_nil_iff.mp hsplit.symm
      cases hv
      exact hR
  | cons a rest ih =>
      obtain ⟨v, hv, hrest⟩ := run_cons_eq_some.mp hrun
      have hone := hstep s a v t hI hR hv
      constructor
      · intro hall
        have hRv : R v (spec t a) :=
          hall [a] rest rfl v (run_cons_eq_some.mpr ⟨v, hv, rfl⟩)
        refine ⟨hone.mp hRv, fun w hw => ?_⟩
        obtain rfl : v = w := Option.some.inj (hv.symm.trans hw)
        refine (ih (hinv s a v hI hv) hRv hrest).mp fun before after hsplit x hx => ?_
        exact hall (a :: before) after (by rw [hsplit, List.cons_append]) x
          (run_cons_eq_some.mpr ⟨v, hv, hx⟩)
      · rintro ⟨hP, halong⟩ before after hsplit x hx
        cases before with
        | nil =>
            cases hx
            exact hR
        | cons b before =>
            obtain ⟨rfl, hsplit'⟩ := List.cons.inj hsplit
            obtain ⟨w, hw, hx'⟩ := run_cons_eq_some.mp hx
            obtain rfl : v = w := Option.some.inj (hv.symm.trans hw)
            exact (ih (hinv s a v hI hv) (hone.mpr hP) hrest).mpr (halong v hv) before after
              hsplit' x hx'

end Simulation

end Transition
