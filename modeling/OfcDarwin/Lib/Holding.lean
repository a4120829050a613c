import Mathlib.Data.List.Nodup
import Mathlib.Data.Set.Insert
import Mathlib.Logic.Function.Basic

/-!
# Who holds what

Parties take items from the outside and give them back, each party at most one at a
time.  An item that a party drops without giving it back is left behind, and nobody
holds it again.  `Accounted` says that there are no other items; taking, giving back and
dropping keep it.
-/

namespace Holding

variable {ι κ : Type*}

/-- The items are those that a party holds, each held by one party, and those that are
left behind. -/
structure Accounted (items : Set ι) (holds : κ → Option ι) (left : List ι) : Prop where
  nodup : left.Nodup
  mem_items : ∀ i, i ∈ items ↔ (∃ k, holds k = some i) ∨ i ∈ left
  apart : ∀ k i, holds k = some i → i ∉ left
  distinct : ∀ k l i, holds k = some i → holds l = some i → k = l

theorem Accounted.empty : Accounted (∅ : Set ι) (fun _ : κ => none) [] where
  nodup := List.nodup_nil
  mem_items i := by simp
  apart k i hholds := absurd hholds (by simp)
  distinct k l i hholds := absurd hholds (by simp)

variable [DecidableEq κ] {items : Set ι} {holds : κ → Option ι} {left : List ι} {k l : κ} {i j : ι}

theorem update_some_iff :
    Function.update holds k (some i) l = some j ↔ (l = k ∧ i = j) ∨ (l ≠ k ∧ holds l = some j) := by
  by_cases heq : l = k
  · subst heq
    simp
  · simp [heq]

theorem update_none_iff :
    Function.update holds k none l = some j ↔ l ≠ k ∧ holds l = some j := by
  by_cases heq : l = k
  · subst heq
    simp
  · simp [heq]

/-- The party takes a new item. -/
theorem Accounted.take (haccounted : Accounted items holds left) (hidle : holds k = none)
    (hnew : i ∉ items) : Accounted (insert i items) (Function.update holds k (some i)) left := by
  have hnobody : ∀ l, holds l ≠ some i := fun l hholds =>
    hnew ((haccounted.mem_items i).mpr (Or.inl ⟨l, hholds⟩))
  have hnotleft : i ∉ left := fun hmem => hnew ((haccounted.mem_items i).mpr (Or.inr hmem))
  refine ⟨haccounted.nodup, fun j => ?_, fun l j hholds => ?_, fun l m j hl hm => ?_⟩
  · rw [Set.mem_insert_iff, haccounted.mem_items]
    constructor
    · rintro (rfl | ⟨l, hholds⟩ | hmem)
      · exact Or.inl ⟨k, Function.update_self ..⟩
      · refine Or.inl ⟨l, update_some_iff.mpr (Or.inr ⟨?_, hholds⟩)⟩
        rintro rfl
        exact absurd (hidle.symm.trans hholds) (by simp)
      · exact Or.inr hmem
    · rintro (⟨l, hholds⟩ | hmem)
      · rcases update_some_iff.mp hholds with ⟨-, rfl⟩ | ⟨-, hholds⟩
        · exact Or.inl rfl
        · exact Or.inr (Or.inl ⟨l, hholds⟩)
      · exact Or.inr (Or.inr hmem)
  · rcases update_some_iff.mp hholds with ⟨-, rfl⟩ | ⟨-, hholds⟩
    · exact hnotleft
    · exact haccounted.apart l j hholds
  · rcases update_some_iff.mp hl with ⟨rfl, rfl⟩ | ⟨-, hbefore⟩ <;>
      rcases update_some_iff.mp hm with ⟨rfl, hj⟩ | ⟨-, hbefore'⟩
    · rfl
    · exact absurd hbefore' (hnobody m)
    · exact absurd (hj ▸ hbefore) (hnobody l)
    · exact haccounted.distinct l m j hbefore hbefore'

/-- The party gives its item back. -/
theorem Accounted.giveBack (haccounted : Accounted items holds left) (hholds : holds k = some i) :
    Accounted (items \ {i}) (Function.update holds k none) left := by
  refine ⟨haccounted.nodup, fun j => ?_, fun l j hl => ?_, fun l m j hl hm => ?_⟩
  · rw [Set.mem_sdiff, haccounted.mem_items]
    constructor
    · rintro ⟨⟨l, hl⟩ | hmem, hne⟩
      · refine Or.inl ⟨l, update_none_iff.mpr ⟨?_, hl⟩⟩
        rintro rfl
        exact hne (Option.some.inj (hl.symm.trans hholds))
      · exact Or.inr hmem
    · rintro (⟨l, hl⟩ | hmem)
      · obtain ⟨hne, hl⟩ := update_none_iff.mp hl
        refine ⟨Or.inl ⟨l, hl⟩, ?_⟩
        rintro rfl
        exact hne (haccounted.distinct l k j hl hholds)
      · refine ⟨Or.inr hmem, ?_⟩
        rintro rfl
        exact haccounted.apart k j hholds hmem
  · exact haccounted.apart l j (update_none_iff.mp hl).2
  · exact haccounted.distinct l m j (update_none_iff.mp hl).2 (update_none_iff.mp hm).2

/-- The party drops its item. -/
theorem Accounted.drop (haccounted : Accounted items holds left) (hholds : holds k = some i) :
    Accounted items (Function.update holds k none) (i :: left) := by
  refine ⟨haccounted.nodup.cons (haccounted.apart k i hholds), fun j => ?_, fun l j hl => ?_,
    fun l m j hl hm => ?_⟩
  · rw [haccounted.mem_items, List.mem_cons]
    constructor
    · rintro (⟨l, hl⟩ | hmem)
      · by_cases heq : l = k
        · subst heq
          exact Or.inr (Or.inl (Option.some.inj (hl.symm.trans hholds)))
        · exact Or.inl ⟨l, update_none_iff.mpr ⟨heq, hl⟩⟩
      · exact Or.inr (Or.inr hmem)
    · rintro (⟨l, hl⟩ | rfl | hmem)
      · exact Or.inl ⟨l, (update_none_iff.mp hl).2⟩
      · exact Or.inl ⟨k, hholds⟩
      · exact Or.inr hmem
  · obtain ⟨hne, hl⟩ := update_none_iff.mp hl
    rw [List.mem_cons, not_or]
    refine ⟨?_, haccounted.apart l j hl⟩
    rintro rfl
    exact hne (haccounted.distinct l k j hl hholds)
  · exact haccounted.distinct l m j (update_none_iff.mp hl).2 (update_none_iff.mp hm).2

end Holding
