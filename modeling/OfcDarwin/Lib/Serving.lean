import Mathlib.Data.List.Basic

/-!
# Serving the first that is ready

A server that looks through a queue from its head, turn after turn, and serves the first
element that is ready.  Serving an element may make elements unready, itself among them,
but makes none ready.  Then the server never has to go back: what it serves in its turns
is what a single pass over the queue finds, up to an element that stays ready, which it
serves for ever (`find_stateAt`).
-/

namespace Serving

variable {σ α : Type*} (ready : σ → α → Bool) (serve : σ → α → σ)

/-- The state before each turn. -/
def stateAt (queue : List α) (s : σ) : ℕ → σ
  | 0 => s
  | i + 1 =>
      match queue.find? (ready (stateAt queue s i)) with
      | none => stateAt queue s i
      | some a => serve (stateAt queue s i) a

/-- One pass over a queue: the elements that are ready as it comes to them and not any
more once they are served, and the element that stays ready, at which it stops. -/
def pass : List α → σ → List α × Option α
  | [], _ => ([], none)
  | a :: rest, s =>
      if ready s a then
        if ready (serve s a) a then ([], some a)
        else (a :: (pass rest (serve s a)).1, (pass rest (serve s a)).2)
      else pass rest s

variable {ready serve} {queue before rest : List α} {s : σ} {a : α}

theorem stateAt_succ_of_none (hnone : queue.find? (ready s) = none) (i : ℕ) :
    stateAt ready serve queue s i = s := by
  induction i with
  | zero => rfl
  | succ i ih => rw [stateAt, ih, hnone]

/-- The first turn, and the turns after it. -/
theorem stateAt_succ_of_some (hsome : queue.find? (ready s) = some a) (i : ℕ) :
    stateAt ready serve queue s (i + 1) = stateAt ready serve queue (serve s a) i := by
  induction i with
  | zero => rw [stateAt, stateAt, stateAt, hsome]
  | succ i ih => rw [stateAt, ih, stateAt]

/-- Elements that are not ready are passed over. -/
theorem find_append_of_quiet (hquiet : ∀ b ∈ before, ready s b = false) :
    (before ++ rest).find? (ready s) = rest.find? (ready s) := by
  have hnone : before.find? (ready s) = none := by simpa using hquiet
  rw [List.find?_append, hnone, Option.none_or]

theorem quiet_concat (hquiet : ∀ b ∈ before, ready s b = false) (ha : ready s a = false) :
    ∀ b ∈ before ++ [a], ready s b = false := by
  intro b hb
  rcases List.mem_append.mp hb with hb | hb
  · exact hquiet b hb
  · rw [List.mem_singleton.mp hb]
    exact ha

section Serve

variable (hserve : ∀ s a b, ready (serve s a) b = true → ready s b = true)
  (hstuck : ∀ s a, ready (serve s a) a = true → serve (serve s a) a = serve s a)

include hserve

/-- What is not ready stays so. -/
theorem quiet_serve (hquiet : ∀ b ∈ before, ready s b = false) (a : α) :
    ∀ b ∈ before, ready (serve s a) b = false := by
  intro b hb
  have hbefore := hquiet b hb
  rw [← Bool.not_eq_true] at hbefore ⊢
  exact fun hready => hbefore (hserve s a b hready)

include hstuck

/-- The element served in each turn, when the queue is known to start with elements that
are not ready. -/
theorem find_stateAt_append (hquiet : ∀ b ∈ before, ready s b = false) (i : ℕ) :
    (before ++ rest).find? (ready (stateAt ready serve (before ++ rest) s i)) =
      ((pass ready serve rest s).1[i]?).or (pass ready serve rest s).2 := by
  induction rest generalizing before s i with
  | nil =>
      have hnone : (before ++ []).find? (ready s) = none := by
        rw [find_append_of_quiet hquiet, List.find?_nil]
      rw [stateAt_succ_of_none hnone, hnone]
      rfl
  | cons a rest ih =>
      have hsplit : before ++ a :: rest = (before ++ [a]) ++ rest := by
        rw [List.append_assoc, List.singleton_append]
      cases hready : ready s a with
      | false =>
          rw [hsplit, ih (quiet_concat hquiet hready), pass, hready]
          rfl
      | true =>
          have hfind : (before ++ a :: rest).find? (ready s) = some a := by
            rw [find_append_of_quiet hquiet, List.find?_cons_of_pos hready]
          have hquiet' := quiet_serve hserve hquiet a
          rw [pass, if_pos hready]
          cases hagain : ready (serve s a) a with
          | true =>
              -- from the second turn on the state stays the same
              have hfind' : (before ++ a :: rest).find? (ready (serve s a)) = some a := by
                rw [find_append_of_quiet hquiet', List.find?_cons_of_pos hagain]
              have hstays : ∀ i, stateAt ready serve (before ++ a :: rest) (serve s a) i =
                  serve s a := by
                intro i
                induction i with
                | zero => rfl
                | succ i ihi =>
                    rw [stateAt, ihi, hfind']
                    exact hstuck s a hagain
              rw [if_pos rfl]
              cases i with
              | zero => exact hfind
              | succ i =>
                  rw [stateAt_succ_of_some hfind, hstays, hfind']
                  rfl
          | false =>
              rw [if_neg Bool.false_ne_true]
              cases i with
              | zero => exact hfind
              | succ i =>
                  rw [stateAt_succ_of_some hfind, hsplit, ih (quiet_concat hquiet' hagain),
                    List.getElem?_cons_succ]

/-- The turns serve what one pass finds, and then the element at which it stopped. -/
theorem find_stateAt (queue : List α) (s : σ) (i : ℕ) :
    queue.find? (ready (stateAt ready serve queue s i)) =
      ((pass ready serve queue s).1[i]?).or (pass ready serve queue s).2 :=
  @find_stateAt_append σ α ready serve [] queue s hserve hstuck nofun i

end Serve

end Serving
