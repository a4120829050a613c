import Mathlib.Data.Nat.Notation
import Mathlib.Tactic.TypeStar

/-!
# While loops

`Runs cond body s t` says that the loop `while (cond) body` ends, from the state `s`
in the state `t`.  A definition has to be total, so it counts rounds down instead:
`bounded` is the loop for at most `fuel` rounds.  With a variant that every round
lowers, `bounded_runs` takes the one to the other: enough fuel makes no difference.

`DoRuns cond body s t` says the same of `do body while (cond)`, which tests after each
round.
-/

namespace While

variable {σ : Type*}

/-- The runs of a loop that end. -/
inductive Runs (cond : σ → Prop) (body : σ → σ) : σ → σ → Prop where
  | exit {s : σ} (hcond : ¬ cond s) : Runs cond body s s
  | round {s t : σ} (hcond : cond s) (hrest : Runs cond body (body s) t) : Runs cond body s t

/-- The loop for at most `fuel` rounds. -/
def bounded (cond : σ → Prop) [DecidablePred cond] (body : σ → σ) : ℕ → σ → σ
  | 0, s => s
  | fuel + 1, s => if cond s then bounded cond body fuel (body s) else s

variable {cond : σ → Prop} {body : σ → σ}

/-- A loop whose rounds lower `variant` ends before its fuel does. -/
theorem bounded_runs [DecidablePred cond] (variant : σ → ℕ)
    (hround : ∀ s, cond s → variant (body s) < variant s) {fuel : ℕ} {s : σ}
    (hfuel : variant s ≤ fuel) : Runs cond body s (bounded cond body fuel s) := by
  induction fuel generalizing s with
  | zero =>
      rw [bounded]
      refine .exit fun hcond => ?_
      have hlower := hround s hcond
      omega
  | succ fuel ih =>
      rw [bounded]
      split
      · rename_i hcond
        have hlower := hround s hcond
        exact .round hcond (ih (by omega))
      · rename_i hcond
        exact .exit hcond

/-- A loop ends in one state. -/
theorem Runs.unique {s t u : σ} (hruns : Runs cond body s t) (hother : Runs cond body s u) :
    t = u := by
  induction hruns with
  | exit hcond =>
      cases hother with
      | exit => rfl
      | round hgoes => exact absurd hgoes hcond
  | round hcond hrest ih =>
      cases hother with
      | exit hends => exact absurd hcond hends
      | round hgoes hrest' => exact ih hrest'

/-- The runs of `do body while (cond)` that end. -/
def DoRuns (cond : σ → Prop) (body : σ → σ) (s t : σ) : Prop := Runs cond body (body s) t

theorem DoRuns.last {s : σ} (hcond : ¬ cond (body s)) : DoRuns cond body s (body s) :=
  Runs.exit hcond

theorem DoRuns.round {s t : σ} (hcond : cond (body s)) (hrest : DoRuns cond body (body s) t) :
    DoRuns cond body s t :=
  Runs.round hcond hrest

theorem DoRuns.unique {s t u : σ} (hruns : DoRuns cond body s t)
    (hother : DoRuns cond body s u) : t = u :=
  Runs.unique hruns hother

end While
