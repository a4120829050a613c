import OfcDarwin.Lib.Transition

/-!
# The lifetime of what handles resolve to

A table resolves handles to records.  A thread that has resolved a handle may have
accesses to the record left to make, and a record may be released.  `Life` is what a
state says about these three things, and `Safe` that no released record is resolved
to or about to be accessed.

`Change` is what a step may do to a `Life` in any system whose handles stop resolving
for good and whose threads come to a record only by resolving a handle.  In such a
system safety is decided where records are released (`Change.safe_iff`): the handle
must not resolve, and no thread may have accesses left.
-/

namespace Lifetime

variable {Handle Thread : Type*}

/-- The handles that resolve, the records that are released, and the accesses that
threads have left to make. -/
structure Life (Handle Thread : Type*) where
  resolves : Handle → Prop
  released : Handle → Prop
  pending : Thread → Handle → Prop

/-- No released record can be reached. -/
structure Safe (l : Life Handle Thread) : Prop where
  /-- A handle that resolves has a live record. -/
  resolved : ∀ h, l.resolves h → ¬l.released h
  /-- So has one that a thread has accesses left to. -/
  held : ∀ t h, l.pending t h → ¬l.released h

/-- A step that releases the records in `freed`. -/
structure Change (l l' : Life Handle Thread) (freed : Handle → Prop) : Prop where
  released : ∀ h, l'.released h ↔ l.released h ∨ freed h
  resolves : ∀ h, l'.resolves h → l.resolves h
  pending : ∀ t h, l'.pending t h → l.pending t h ∨ l.resolves h

section Change

variable {l l' : Life Handle Thread} {freed : Handle → Prop}

/-- A step keeps safety exactly when nothing reaches what it releases. -/
theorem Change.safe_iff (hchange : Change l l' freed) (hsafe : Safe l) :
    Safe l' ↔ ∀ h, freed h → ¬l'.resolves h ∧ ∀ t, ¬l'.pending t h := by
  constructor
  · intro hsafe' h hfreed
    have hreleased : l'.released h := (hchange.released h).mpr (Or.inr hfreed)
    exact ⟨fun hresolves => hsafe'.resolved h hresolves hreleased,
      fun t hpending => hsafe'.held t h hpending hreleased⟩
  · intro hquiet
    constructor
    · intro h hresolves hreleased
      rcases (hchange.released h).mp hreleased with hbefore | hfreed
      · exact hsafe.resolved h (hchange.resolves h hresolves) hbefore
      · exact (hquiet h hfreed).1 hresolves
    · intro t h hpending hreleased
      rcases (hchange.released h).mp hreleased with hbefore | hfreed
      · rcases hchange.pending t h hpending with hheld | hresolved
        · exact hsafe.held t h hheld hbefore
        · exact hsafe.resolved h hresolved hbefore
      · exact (hquiet h hfreed).2 t hpending

/-- Where what is released still resolves, safety is kept exactly when nothing is
released. -/
theorem Change.safe_iff_of_resolves (hchange : Change l l' freed) (hsafe : Safe l)
    (hresolves : ∀ h, freed h → l'.resolves h) : Safe l' ↔ ∀ h, ¬freed h := by
  rw [hchange.safe_iff hsafe]
  constructor
  · intro hquiet h hfreed
    exact (hquiet h hfreed).1 (hresolves h hfreed)
  · intro hnone h hfreed
    exact absurd hfreed (hnone h)

end Change

/-! ## Runs -/

section Run

open Transition

variable {σ α : Type*} {step : σ → α → Option σ} {life : σ → Life Handle Thread}
  {frees : σ → α → Handle → Prop} {I : σ → Prop}

/-- A run is safe at every point exactly when it releases nothing, in a system that
releases records while their handles resolve. -/
theorem safe_iff_along (hinv : ∀ s a u, I s → step s a = some u → I u)
    (hchange : ∀ s a u, step s a = some u → Change (life s) (life u) (frees s a))
    (hresolves : ∀ s a u, I s → Safe (life s) → step s a = some u →
      ∀ h, frees s a h → (life u).resolves h)
    {s u : σ} {actions : List α} (hI : I s) (hsafe : Safe (life s))
    (hrun : run step s actions = some u) :
    (∀ before after : List α, actions = before ++ after → ∀ v, run step s before = some v →
        Safe (life v)) ↔
      Along step (fun v a => ∀ h, ¬frees v a h) s actions :=
  simulates_iff_along (R := fun v (_ : Unit) => Safe (life v)) (fun t _ => t) hinv
    (fun v a w _ hIv hv hstep =>
      (hchange v a w hstep).safe_iff_of_resolves hv (hresolves v a w hIv hv hstep))
    (t := ()) hI hsafe hrun

end Run

end Lifetime
