import Mathlib.Order.Bounds.Basic

/-!
# The least value so far

A loop over a list that keeps the least of some values, starting from a cap, and the
element it belongs to.  `LeastSoFar` is its invariant: after a part of the list, the
least value is that of the cap and the values passed, and the element is the first
that attains it, if any of them beats the cap.  The three ways a round can go are
`skip`, `keep` and `lower`; a comparison with `<` makes the first element win a tie.
-/

namespace LeastSoFar

variable {α β : Type*}

/-- The values of the elements of a list. -/
def values (f : α → Option β) (passed : List α) : Set β := {b | ∃ a ∈ passed, f a = some b}

theorem values_concat (f : α → Option β) (passed : List α) (a : α) :
    values f (passed ++ [a]) = values f passed ∪ {b | f a = some b} := by
  ext b
  simp [values, or_and_right, exists_or]

variable [LinearOrder β]

/-- `a` has the value `b`, and every value before it is greater. -/
def First (f : α → Option β) (passed : List α) (a : α) (b : β) : Prop :=
  ∃ before after, passed = before ++ a :: after ∧ f a = some b ∧
    ∀ earlier ∈ before, ∀ value, f earlier = some value → b < value

end LeastSoFar

open LeastSoFar in
/-- After the elements `passed`, a loop has kept their least value below `cap`, and
the first element that has it. -/
structure LeastSoFar {α β : Type*} [LinearOrder β] (f : α → Option β) (cap : β) (passed : List α)
    (least : β) (first : Option α) : Prop where
  isLeast : IsLeast (insert cap (values f passed)) least
  attained : first = none ∧ least = cap ∨
    ∃ a, first = some a ∧ least < cap ∧ First f passed a least

namespace LeastSoFar

variable {α β : Type*} [LinearOrder β] {f : α → Option β} {cap least value : β} {passed : List α}
  {first : Option α} {a : α}

theorem First.concat {b : β} (hfirst : First f passed a b) (c : α) :
    First f (passed ++ [c]) a b := by
  obtain ⟨before, after, rfl, hvalue, hearlier⟩ := hfirst
  exact ⟨before, after ++ [c], by simp, hvalue, hearlier⟩

theorem nil (f : α → Option β) (cap : β) : LeastSoFar f cap [] cap none := by
  refine ⟨⟨Set.mem_insert _ _, ?_⟩, Or.inl ⟨rfl, rfl⟩⟩
  rintro b (rfl | ⟨a, hmem, -⟩)
  · exact le_rfl
  · exact absurd hmem List.not_mem_nil

/-- The kept element stays the first one. -/
theorem attained_concat (hleast : LeastSoFar f cap passed least first) (c : α) :
    first = none ∧ least = cap ∨
      ∃ a, first = some a ∧ least < cap ∧ First f (passed ++ [c]) a least := by
  refine hleast.attained.imp_right ?_
  rintro ⟨a, hfirst, hbeats, hattains⟩
  exact ⟨a, hfirst, hbeats, hattains.concat c⟩

/-- An element without a value. -/
theorem skip (hleast : LeastSoFar f cap passed least first) (hvalue : f a = none) :
    LeastSoFar f cap (passed ++ [a]) least first := by
  refine ⟨?_, hleast.attained_concat a⟩
  have hsame : values f (passed ++ [a]) = values f passed := by
    rw [values_concat, hvalue]
    simp
  rw [hsame]
  exact hleast.isLeast

theorem isLeast_concat (hleast : LeastSoFar f cap passed least first) (hvalue : f a = some value) :
    IsLeast (insert cap (values f (passed ++ [a]))) (min least value) := by
  have hinsert : insert cap (values f (passed ++ [a])) =
      insert value (insert cap (values f passed)) := by
    rw [values_concat, hvalue, Set.insert_comm]
    congr 1
    ext b
    simp [eq_comm]
  rw [hinsert, min_comm]
  exact hleast.isLeast.insert value

/-- An element whose value is not less. -/
theorem keep (hleast : LeastSoFar f cap passed least first) (hvalue : f a = some value)
    (hnot : ¬ value < least) : LeastSoFar f cap (passed ++ [a]) least first := by
  refine ⟨?_, hleast.attained_concat a⟩
  have hmin := hleast.isLeast_concat hvalue
  rwa [min_eq_left (not_lt.mp hnot)] at hmin

/-- An element whose value is less takes over. -/
theorem lower (hleast : LeastSoFar f cap passed least first) (hvalue : f a = some value)
    (hless : value < least) : LeastSoFar f cap (passed ++ [a]) value (some a) := by
  have hmin := hleast.isLeast_concat hvalue
  rw [min_eq_right (le_of_lt hless)] at hmin
  refine ⟨hmin, Or.inr ⟨a, rfl, ?_, passed, [], rfl, hvalue, ?_⟩⟩
  · exact lt_of_lt_of_le hless (hleast.isLeast.2 (Set.mem_insert _ _))
  · intro earlier hmem b hb
    exact lt_of_lt_of_le hless (hleast.isLeast.2 (Set.mem_insert_of_mem _ ⟨earlier, hmem, hb⟩))

end LeastSoFar
