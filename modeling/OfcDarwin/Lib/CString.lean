import Mathlib.Algebra.Notation.Defs
import Mathlib.Data.Nat.Notation
import Mathlib.Tactic.TypeStar

/-!
# Terminated strings

A string in memory ends before the first zero at or after its start.  Memory from that
start on is a list; without a zero in it the search runs off its end.

`strncpy` is the bounded copy: it fills up with zeros behind a string that is shorter
than the bound, and puts no zero behind one that is not (`text?_strncpy_iff`).
-/

namespace CString

variable {α : Type*} [Zero α]

/-! ## The bounded copy -/

/-- `strncpy(memory, text, n)`, for the string `text`. -/
def strncpy : ℕ → List α → List α → List α
  | 0, _, memory => memory
  | n + 1, [], memory => 0 :: strncpy n [] memory.tail
  | n + 1, a :: text, memory => a :: strncpy n text memory.tail

theorem strncpy_of_le {n : ℕ} {text : List α} (hlong : n ≤ text.length) (memory : List α) :
    strncpy n text memory = text.take n ++ memory.drop n := by
  induction n generalizing text memory with
  | zero => rfl
  | succ n ih =>
      cases text with
      | nil => exact absurd hlong (Nat.not_succ_le_zero n)
      | cons a text =>
          rw [strncpy, ih (Nat.le_of_succ_le_succ hlong), List.drop_tail]
          rfl

theorem strncpy_of_lt {n : ℕ} {text : List α} (hshort : text.length < n) (memory : List α) :
    ∃ rest, strncpy n text memory = text ++ 0 :: rest := by
  induction n generalizing text memory with
  | zero => exact absurd hshort (Nat.not_lt_zero _)
  | succ n ih =>
      cases text with
      | nil => exact ⟨_, rfl⟩
      | cons a text =>
          obtain ⟨rest, hrest⟩ := ih (Nat.lt_of_succ_lt_succ hshort) memory.tail
          exact ⟨rest, congrArg (a :: ·) hrest⟩

/-- The copy leaves the memory behind its bound alone. -/
theorem set_strncpy {n index : ℕ} (hindex : n ≤ index) (text memory : List α) (a : α) :
    (strncpy n text memory).set index a = strncpy n text (memory.set index a) := by
  induction n generalizing index text memory with
  | zero => rfl
  | succ n ih =>
      obtain ⟨index, rfl⟩ := Nat.exists_eq_succ_of_ne_zero (Nat.ne_zero_of_lt hindex)
      have hrest := Nat.le_of_succ_le_succ hindex
      have htail : (memory.set (index + 1) a).tail = memory.tail.set index a := by
        cases memory <;> rfl
      cases text with
      | nil => rw [strncpy, strncpy, List.set_cons_succ, ih hrest, htail]
      | cons b text => rw [strncpy, strncpy, List.set_cons_succ, ih hrest, htail]

/-! ## Strings -/

variable [DecidableEq α]

/-- The length of the string, if it ends. -/
def length? (memory : List α) : Option ℕ := memory.findIdx? (· = 0)

/-- The string, if it ends. -/
def text? (memory : List α) : Option (List α) := (length? memory).map memory.take

/-- A string followed by a zero. -/
theorem length?_append {text : List α} (hzero : 0 ∉ text) (rest : List α) :
    length? (text ++ 0 :: rest) = some text.length := by
  induction text with
  | nil => simp [length?, List.findIdx?_cons]
  | cons a text ih =>
      have ha : a ≠ 0 := fun heq => hzero (heq ▸ List.mem_cons_self)
      have htext := ih fun hmem => hzero (List.mem_cons_of_mem _ hmem)
      rw [length?] at htext ⊢
      rw [List.cons_append, List.findIdx?_cons, if_neg (by simp [ha]), htext]
      rfl

theorem text?_append {text : List α} (hzero : 0 ∉ text) (rest : List α) :
    text? (text ++ 0 :: rest) = some text := by
  rw [text?, length?_append hzero, Option.map_some, List.take_left]

/-- Memory with a string in it. -/
theorem exists_of_length? {memory : List α} {length : ℕ} (hlength : length? memory = some length) :
    ∃ text rest, memory = text ++ 0 :: rest ∧ 0 ∉ text ∧ text.length = length := by
  obtain ⟨hlt, hzero, hearlier⟩ := List.findIdx?_eq_some_iff_getElem.mp hlength
  refine ⟨memory.take length, memory.drop (length + 1), ?_, ?_, ?_⟩
  · have helement : memory[length] = 0 := by simpa using hzero
    rw [← helement, ← List.drop_eq_getElem_cons hlt, List.take_append_drop]
  · intro hmem
    obtain ⟨index, hindex, hat⟩ := List.mem_iff_getElem.mp hmem
    rw [List.getElem_take] at hat
    rw [List.length_take] at hindex
    exact hearlier index (by omega) (by simpa using hat)
  · rw [List.length_take]
    omega

theorem exists_of_text? {memory text : List α} (htext : text? memory = some text) :
    ∃ rest, memory = text ++ 0 :: rest := by
  obtain ⟨length, hlength, rfl⟩ := Option.map_eq_some_iff.mp htext
  obtain ⟨text, rest, rfl, -, rfl⟩ := exists_of_length? hlength
  exact ⟨rest, by rw [List.take_left]⟩

/-- A string ends behind some elements that are not zero exactly when there is a zero
there. -/
theorem text?_append_eq_iff {text : List α} (hzero : 0 ∉ text) (rest : List α) :
    text? (text ++ rest) = some text ↔ rest.head? = some 0 := by
  constructor
  · intro htext
    obtain ⟨rest', hmemory⟩ := exists_of_text? htext
    rw [List.append_cancel_left hmemory, List.head?_cons]
  · intro hhead
    obtain ⟨rest', rfl⟩ := List.head?_eq_some_iff.mp hhead
    exact text?_append hzero rest'

theorem length?_lt {memory : List α} {length : ℕ} (hlength : length? memory = some length) :
    length < memory.length := by
  obtain ⟨text, rest, rfl, -, rfl⟩ := exists_of_length? hlength
  rw [List.length_append, List.length_cons]
  omega

/-- A zero stored inside a string cuts it there. -/
theorem text?_set {memory : List α} {length index : ℕ} (hlength : length? memory = some length)
    (hindex : index < length) : text? (memory.set index 0) = some (memory.take index) := by
  obtain ⟨text, rest, rfl, hzero, rfl⟩ := exists_of_length? hlength
  have hcut : (text ++ 0 :: rest).set index 0 =
      text.take index ++ 0 :: (text.drop (index + 1) ++ 0 :: rest) := by
    rw [List.set_append_left _ _ hindex, List.set_eq_take_append_cons_drop, if_pos hindex,
      List.append_assoc, List.cons_append]
  have hbefore : (0 : α) ∉ text.take index := fun hmem => hzero (List.mem_of_mem_take hmem)
  rw [hcut, text?_append hbefore, List.take_append_of_le_length (Nat.le_of_lt hindex)]

/-- The copy is a string, cut to the bound, exactly when the string is shorter than the
bound or the memory has a zero behind it already. -/
theorem text?_strncpy_iff {text : List α} (hzero : 0 ∉ text) (n : ℕ) (memory : List α) :
    text? (strncpy n text memory) = some (text.take n) ↔
      text.length < n ∨ memory[n]? = some 0 := by
  by_cases hshort : text.length < n
  · obtain ⟨rest, hrest⟩ := strncpy_of_lt hshort memory
    rw [hrest, text?_append hzero, List.take_of_length_le (Nat.le_of_lt hshort)]
    exact iff_of_true rfl (Or.inl hshort)
  · have hcut : (0 : α) ∉ text.take n := fun hmem => hzero (List.mem_of_mem_take hmem)
    rw [strncpy_of_le (Nat.not_lt.mp hshort), text?_append_eq_iff hcut, List.head?_drop]
    exact (or_iff_right hshort).symm

end CString
