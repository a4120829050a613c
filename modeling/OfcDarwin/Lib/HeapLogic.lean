import Mathlib.Algebra.BigOperators.Group.Finset.Basic
import Mathlib.Logic.Function.Basic
import Mathlib.Order.Nat

/-!
# Programs over a heap

A heap holds blocks of cells at addresses.  `malloc`, `realloc`, `free`, `load` and
`store` are programs over it, and a program that goes outside a block, uses one that has
been freed, or reads a cell that has not been written has no result.

An `Assertion` says what some blocks hold.  Assertions multiply: `P * Q` holds of blocks
of which some meet `P` and the others `Q`, and `1` holds of no blocks.  The product is
commutative and associative, so that what a proof does with it is `ac_rfl`.

`Triple P c Q` says that `c`, from blocks that meet `P`, has a result, with blocks that
meet `Q` of it, and touches no others.  A program with `Returns 1 c v 1` thus frees what
it allocates (`Returns.run`).  `Faults P c` says that it has no result.

`each P` is for blocks with many owners, such as the records of a table: the owner `i` has
what `P i` says, and all but finitely many have nothing.  What a program does to the
blocks of one owner it does to the whole (`Triple.each`).
-/

namespace HeapLogic

/-- A block.  A cell that has not been written is `none`. -/
abbrev Block (Cell : Type) := List (Option Cell)

/-- Some blocks, by address. -/
abbrev Blocks (Cell : Type) := ℕ → Option (Block Cell)

/-- The blocks that have been allocated, the freed ones as `none`. -/
abbrev Heap (Cell : Type) := List (Option (Block Cell))

/-- The blocks that may be used. -/
def Heap.blocks {Cell : Type} (heap : Heap Cell) : Blocks Cell := fun p => heap[p]?.join

/-- A program over the heap. -/
abbrev Program (Cell : Type) := StateT (Heap Cell) Option

variable {Cell α β : Type}

/-! ## The programs -/

/-- A block of `n` cells. -/
def malloc (n : ℕ) : Program Cell ℕ := fun heap =>
  some (heap.length, heap ++ [some (List.replicate n none)])

/-- The first `n` cells of a block, and new ones if it has fewer. -/
def resize (n : ℕ) (block : Block Cell) : Block Cell :=
  block.take n ++ List.replicate (n - block.length) none

/-- A block of `n` cells in place of another, with its first cells. -/
def realloc (p n : ℕ) : Program Cell ℕ := fun heap =>
  (heap.blocks p).map fun block => (heap.length, heap.set p none ++ [some (resize n block)])

def free (p : ℕ) : Program Cell Unit := fun heap =>
  (heap.blocks p).map fun _ => ((), heap.set p none)

/-- The cell `i` of a block, read at one of the types of the cells. -/
def load (read : Cell → Option α) (p i : ℕ) : Program Cell α := fun heap =>
  (heap.blocks p).bind fun block =>
    block[i]?.join.bind fun cell => (read cell).map fun value => (value, heap)

def store (p i : ℕ) (cell : Cell) : Program Cell Unit := fun heap =>
  (heap.blocks p).bind fun block =>
    if i < block.length then some ((), heap.set p (some (block.set i (some cell)))) else none

/-- A block that grows by one cell. -/
theorem resize_succ (block : Block Cell) : resize (block.length + 1) block = block ++ [none] := by
  rw [resize, List.take_of_length_le (Nat.le_succ _), Nat.add_sub_cancel_left]
  rfl

/-! ## Assertions -/

/-- What some blocks hold. -/
def Assertion (Cell : Type) : Type := Blocks Cell → Prop

namespace Assertion

theorem ext {P Q : Assertion Cell} (h : ∀ part, P part ↔ Q part) : P = Q :=
  funext fun part => propext (h part)

/-- There are no blocks. -/
instance : One (Assertion Cell) := ⟨fun part => part = fun _ => none⟩

/-- Some of the blocks meet the one assertion, and the others the other. -/
instance : Mul (Assertion Cell) := ⟨fun P Q part => ∃ first second, P first ∧ Q second ∧
  (∀ p, first p = none ∨ second p = none) ∧ part = fun p => (first p).or (second p)⟩

theorem one_iff {part : Blocks Cell} : (1 : Assertion Cell) part ↔ part = fun _ => none := Iff.rfl

theorem mul_iff {P Q : Assertion Cell} {part : Blocks Cell} : (P * Q) part ↔
    ∃ first second, P first ∧ Q second ∧ (∀ p, first p = none ∨ second p = none) ∧
      part = fun p => (first p).or (second p) := Iff.rfl

theorem mul_comm' (P Q : Assertion Cell) : P * Q = Q * P := by
  have hhalf : ∀ (P Q : Assertion Cell) part, (P * Q) part → (Q * P) part := by
    rintro P Q part ⟨first, second, hP, hQ, hapart, rfl⟩
    refine ⟨second, first, hQ, hP, fun p => (hapart p).symm, ?_⟩
    funext p
    rcases hapart p with hp | hp <;> rw [hp] <;> simp
  exact ext fun part => ⟨hhalf P Q part, hhalf Q P part⟩

theorem mul_assoc' (P Q R : Assertion Cell) : P * Q * R = P * (Q * R) := by
  apply ext
  intro part
  constructor
  · rintro ⟨_, third, ⟨first, second, hP, hQ, hapart, rfl⟩, hR, hapart', rfl⟩
    have hnone : ∀ p, (first p = none ∧ second p = none) ∨ third p = none := fun p =>
      (hapart' p).imp_left Option.or_eq_none_iff.mp
    refine ⟨first, _, hP, ⟨second, third, hQ, hR, fun p => (hnone p).imp_left And.right, rfl⟩,
      fun p => ?_, ?_⟩
    · rcases hnone p with ⟨hp, -⟩ | hthird
      · exact Or.inl hp
      · exact (hapart p).imp_right fun hp => Option.or_eq_none_iff.mpr ⟨hp, hthird⟩
    · funext p
      exact Option.or_assoc
  · rintro ⟨first, _, hP, ⟨second, third, hQ, hR, hapart, rfl⟩, hapart', rfl⟩
    have hnone : ∀ p, first p = none ∨ (second p = none ∧ third p = none) := fun p =>
      (hapart' p).imp_right Option.or_eq_none_iff.mp
    refine ⟨_, third, ⟨first, second, hP, hQ, fun p => (hnone p).imp_right And.left, rfl⟩, hR,
      fun p => ?_, ?_⟩
    · rcases hnone p with hp | ⟨-, hthird⟩
      · exact (hapart p).imp_left fun hsecond => Option.or_eq_none_iff.mpr ⟨hp, hsecond⟩
      · exact Or.inr hthird
    · funext p
      exact Option.or_assoc.symm

theorem one_mul' (P : Assertion Cell) : 1 * P = P := by
  apply ext
  intro part
  constructor
  · rintro ⟨_, second, rfl, hP, -, rfl⟩
    exact hP
  · intro hP
    exact ⟨_, part, rfl, hP, fun _ => Or.inl rfl, rfl⟩

instance : CommMonoid (Assertion Cell) where
  mul_assoc := mul_assoc'
  one_mul := one_mul'
  mul_one P := (mul_comm' P 1).trans (one_mul' P)
  mul_comm := mul_comm'

/-- These blocks. -/
def exactly (blocks : Blocks Cell) : Assertion Cell := fun part => part = blocks

/-- A fact, of no blocks. -/
def lift (φ : Prop) : Assertion Cell := fun part => φ ∧ (1 : Assertion Cell) part

theorem lift_mul_iff {φ : Prop} {P : Assertion Cell} {part : Blocks Cell} :
    (lift φ * P : Assertion Cell) part ↔ φ ∧ P part := by
  constructor
  · rintro ⟨first, second, ⟨hφ, hnone⟩, hP, hapart, rfl⟩
    refine ⟨hφ, ?_⟩
    rw [one_iff.mp hnone]
    exact hP
  · rintro ⟨hφ, hP⟩
    exact ⟨_, part, ⟨hφ, rfl⟩, hP, fun _ => Or.inl rfl, rfl⟩

/-- Some assertion of a family. -/
def any {ι : Type} (P : ι → Assertion Cell) : Assertion Cell := fun part => ∃ x, P x part

theorem any_mul_iff {ι : Type} {P : ι → Assertion Cell} {Q : Assertion Cell}
    {part : Blocks Cell} : (any P * Q) part ↔ ∃ x, (P x * Q) part := by
  constructor
  · rintro ⟨first, second, ⟨x, hP⟩, hQ, hrest⟩
    exact ⟨x, first, second, hP, hQ, hrest⟩
  · rintro ⟨x, first, second, hP, hQ, hrest⟩
    exact ⟨first, second, ⟨x, hP⟩, hQ, hrest⟩

end Assertion

open Assertion

/-- One block. -/
def pointsTo (p : ℕ) (block : Block Cell) : Assertion Cell :=
  exactly (Function.update (fun _ => none) p (some block))

/-- The block is one of the blocks. -/
theorem pointsTo_mul_iff {p : ℕ} {block : Block Cell} {frame : Assertion Cell}
    {part : Blocks Cell} : (pointsTo p block * frame) part ↔
      part p = some block ∧ frame (Function.update part p none) := by
  constructor
  · rintro ⟨_, rest, rfl, hframe, hapart, rfl⟩
    have hp : rest p = none := (hapart p).resolve_left (by simp)
    refine ⟨by simp, ?_⟩
    have hrest : Function.update (fun q => (Function.update (fun _ => none) p (some block) q).or
        (rest q)) p none = rest := by
      funext q
      by_cases hq : q = p
      · subst hq
        rw [Function.update_self, hp]
      · simp [hq]
    rwa [hrest]
  · rintro ⟨hp, hframe⟩
    refine ⟨_, Function.update part p none, rfl, hframe, fun q => ?_, ?_⟩
    · by_cases hq : q = p
      · subst hq
        exact Or.inr (Function.update_self ..)
      · exact Or.inl (by simp [hq])
    · funext q
      by_cases hq : q = p
      · subst hq
        simp [hp]
      · simp [hq]

/-! ## The blocks of a heap -/

theorem blocks_append (heap : Heap Cell) (block : Block Cell) :
    Heap.blocks (heap ++ [some block]) =
      Function.update heap.blocks heap.length (some block) := by
  funext p
  rcases lt_trichotomy p heap.length with hlt | rfl | hgt
  · rw [Function.update_of_ne hlt.ne, Heap.blocks, Heap.blocks, List.getElem?_append_left hlt]
  · simp [Heap.blocks]
  · rw [Function.update_of_ne hgt.ne', Heap.blocks, Heap.blocks,
      List.getElem?_eq_none (by simpa using Nat.succ_le_of_lt hgt),
      List.getElem?_eq_none hgt.le]

theorem blocks_length (heap : Heap Cell) : heap.blocks heap.length = none := by
  simp [Heap.blocks]

theorem lt_length {heap : Heap Cell} {p : ℕ} {block : Block Cell}
    (hblock : heap.blocks p = some block) : p < heap.length := by
  by_contra hout
  rw [Heap.blocks, List.getElem?_eq_none (not_lt.mp hout)] at hblock
  exact absurd hblock (by simp)

theorem blocks_set {heap : Heap Cell} {p : ℕ} (hp : p < heap.length)
    (block : Option (Block Cell)) :
    Heap.blocks (heap.set p block) = Function.update heap.blocks p block := by
  funext q
  by_cases hq : q = p
  · subst hq
    simp [Heap.blocks, hp]
  · rw [Function.update_of_ne hq, Heap.blocks, Heap.blocks, List.getElem?_set_ne (Ne.symm hq)]

/-! ## Triples -/

/-- From blocks that meet `P`, among any others, the program has a result, and its blocks
then meet `Q`, among the same others. -/
def Triple (P : Assertion Cell) (c : Program Cell α) (Q : α → Assertion Cell) : Prop :=
  ∀ (frame : Assertion Cell) (heap : Heap Cell), (P * frame) heap.blocks →
    ∃ r heap', c heap = some (r, heap') ∧ (Q r * frame) heap'.blocks

/-- The program returns `v`, and leaves blocks that meet `Q`. -/
def Returns (P : Assertion Cell) (c : Program Cell α) (v : α) (Q : Assertion Cell) : Prop :=
  Triple P c fun r => lift (r = v) * Q

namespace Triple

variable {P F : Assertion Cell} {Q R : α → Assertion Cell} {c : Program Cell α}

theorem value {v : α} (hQ : ∀ part, P part → Q v part) : Triple P (pure v) Q := by
  rintro frame heap ⟨first, second, hP, hrest⟩
  exact ⟨v, heap, rfl, first, second, hQ first hP, hrest⟩

theorem frame (htriple : Triple P c Q) (F : Assertion Cell) :
    Triple (P * F) c fun r => Q r * F := by
  intro frame heap hbefore
  rw [mul_assoc] at hbefore
  obtain ⟨r, heap', hrun, hafter⟩ := htriple (F * frame) heap hbefore
  exact ⟨r, heap', hrun, by rwa [mul_assoc]⟩

theorem weaken (htriple : Triple P c Q) (hpost : ∀ r part, Q r part → R r part) :
    Triple P c R := by
  intro frame heap hbefore
  obtain ⟨r, heap', hrun, first, second, hQ, hframe, hapart, hpart⟩ := htriple frame heap hbefore
  exact ⟨r, heap', hrun, first, second, hpost r first hQ, hframe, hapart, hpart⟩

/-- A fact of the precondition is a hypothesis. -/
theorem lift {φ : Prop} (htriple : φ → Triple P c Q) : Triple (Assertion.lift φ * P) c Q := by
  intro frame heap hbefore
  rw [mul_assoc, lift_mul_iff] at hbefore
  exact htriple hbefore.1 frame heap hbefore.2

theorem any {ι : Type} {P : ι → Assertion Cell} (htriple : ∀ x, Triple (P x) c Q) :
    Triple (Assertion.any P) c Q := by
  intro frame heap hbefore
  obtain ⟨x, hbefore⟩ := any_mul_iff.mp hbefore
  exact htriple x frame heap hbefore

variable {S : β → Assertion Cell} {f : α → Program Cell β} {P' : Assertion Cell}

/-- One program after another.  The first needs the blocks `P`, and the blocks `F` wait
for the second. -/
theorem bind (hP : P' = P * F) (hfirst : Triple P c Q)
    (hsecond : ∀ a, Triple (Q a * F) (f a) S) : Triple P' (c >>= f) S := by
  subst hP
  intro frame heap hbefore
  rw [mul_assoc] at hbefore
  obtain ⟨r, heap', hrun, hbetween⟩ := hfirst (F * frame) heap hbefore
  rw [← mul_assoc] at hbetween
  obtain ⟨r', heap'', hrun', hafter⟩ := hsecond r frame heap' hbetween
  refine ⟨r', heap'', ?_, hafter⟩
  show (c heap).bind (fun next => f next.1 next.2) = _
  rw [hrun]
  exact hrun'

/-- One program after another that leaves it all its blocks. -/
theorem seq (hfirst : Triple P c Q) (hsecond : ∀ a, Triple (Q a) (f a) S) :
    Triple P (c >>= f) S :=
  bind (mul_one P).symm hfirst fun a => (mul_one (Q a)).symm ▸ hsecond a

/-- The same, after a program whose result is known. -/
theorem bindReturns {v : α} {Q : Assertion Cell} (hP : P' = P * F) (hfirst : Returns P c v Q)
    (hsecond : Triple (Q * F) (f v) S) : Triple P' (c >>= f) S := by
  refine bind hP hfirst fun a => ?_
  rw [mul_assoc]
  exact lift fun heq => heq ▸ hsecond

theorem seqReturns {v : α} {Q : Assertion Cell} (hfirst : Returns P c v Q)
    (hsecond : Triple Q (f v) S) : Triple P (c >>= f) S :=
  bindReturns (mul_one P).symm hfirst ((mul_one Q).symm ▸ hsecond)

end Triple

theorem Returns.value {P : Assertion Cell} {v w : α} (heq : v = w) : Returns P (pure v) w P :=
  Triple.value fun _ hP => lift_mul_iff.mpr ⟨heq, hP⟩

/-- A program that needs no blocks and leaves none leaves the heap as it was. -/
theorem Returns.run {c : Program Cell α} {v : α} (htriple : Returns 1 c v 1) (heap : Heap Cell) :
    ∃ heap', c heap = some (v, heap') ∧ heap'.blocks = heap.blocks := by
  have hbefore : (1 * exactly heap.blocks) heap.blocks := by
    rw [one_mul]
    rfl
  obtain ⟨r, heap', hrun, hafter⟩ := htriple (exactly heap.blocks) heap hbefore
  rw [mul_assoc, lift_mul_iff, one_mul] at hafter
  exact ⟨heap', by rw [hrun, hafter.1], hafter.2⟩

theorem Returns.frame {P Q : Assertion Cell} {c : Program Cell α} {v : α}
    (hreturns : Returns P c v Q) (F : Assertion Cell) : Returns (P * F) c v (Q * F) :=
  (Triple.frame hreturns F).weaken fun r part hpart => by rwa [mul_assoc] at hpart

/-! ## The rules of the programs -/

theorem malloc_triple (n : ℕ) :
    Triple (1 : Assertion Cell) (malloc n) fun p => pointsTo p (List.replicate n none) := by
  intro frame heap hbefore
  rw [one_mul] at hbefore
  refine ⟨heap.length, _, rfl, ?_⟩
  rw [blocks_append, pointsTo_mul_iff, Function.update_self, Function.update_idem]
  refine ⟨rfl, ?_⟩
  rwa [Function.update_eq_self_iff.mpr (blocks_length heap).symm]

theorem free_triple (p : ℕ) (block : Block Cell) :
    Triple (pointsTo p block) (free p) fun _ => 1 := by
  intro frame heap hbefore
  obtain ⟨hblock, hframe⟩ := pointsTo_mul_iff.mp hbefore
  refine ⟨(), heap.set p none, ?_, ?_⟩
  · rw [free, hblock]
    rfl
  · rwa [one_mul, blocks_set (lt_length hblock)]

theorem realloc_triple (p n : ℕ) (block : Block Cell) :
    Triple (pointsTo p block) (realloc p n) fun q => pointsTo q (resize n block) := by
  intro frame heap hbefore
  obtain ⟨hblock, hframe⟩ := pointsTo_mul_iff.mp hbefore
  have hp := lt_length hblock
  refine ⟨heap.length, heap.set p none ++ [some (resize n block)], ?_, ?_⟩
  · rw [realloc, hblock]
    rfl
  · have hlength : heap.length = (heap.set p none).length := by rw [List.length_set]
    rw [blocks_append, pointsTo_mul_iff, hlength, Function.update_self, Function.update_idem]
    refine ⟨rfl, ?_⟩
    rwa [Function.update_eq_self_iff.mpr (blocks_length _).symm, blocks_set hp]

theorem store_triple {p i : ℕ} {block : Block Cell} (hi : i < block.length) (cell : Cell) :
    Triple (pointsTo p block) (store p i cell) fun _ =>
      pointsTo p (block.set i (some cell)) := by
  intro frame heap hbefore
  obtain ⟨hblock, hframe⟩ := pointsTo_mul_iff.mp hbefore
  refine ⟨(), heap.set p (some (block.set i (some cell))), ?_, ?_⟩
  · rw [store, hblock, Option.bind_some, if_pos hi]
  · rw [blocks_set (lt_length hblock), pointsTo_mul_iff, Function.update_self,
      Function.update_idem]
    exact ⟨rfl, hframe⟩

theorem load_returns {read : Cell → Option α} {p i : ℕ} {block : Block Cell} {cell : Cell}
    {value : α} (hcell : block[i]? = some (some cell)) (hread : read cell = some value) :
    Returns (pointsTo p block) (load read p i) value (pointsTo p block) := by
  intro frame heap hbefore
  obtain ⟨hblock, -⟩ := pointsTo_mul_iff.mp hbefore
  refine ⟨value, heap, ?_, ?_⟩
  · rw [load, hblock, Option.bind_some, hcell]
    show (read cell).map _ = _
    rw [hread]
    rfl
  · rw [mul_assoc, lift_mul_iff]
    exact ⟨rfl, hbefore⟩

/-! ## Programs that go wrong -/

/-- From blocks that meet `P`, among any others, the program has no result. -/
def Faults (P : Assertion Cell) (c : Program Cell α) : Prop :=
  ∀ (frame : Assertion Cell) (heap : Heap Cell), (P * frame) heap.blocks → c heap = none

namespace Faults

variable {P P' F : Assertion Cell} {Q : α → Assertion Cell} {c : Program Cell α}
  {f : α → Program Cell β}

theorem frame (hfaults : Faults P c) (F : Assertion Cell) : Faults (P * F) c := by
  intro frame heap hbefore
  rw [mul_assoc] at hbefore
  exact hfaults (F * frame) heap hbefore

/-- A fact of the precondition is a hypothesis. -/
theorem lift {φ : Prop} (hfaults : φ → Faults P c) : Faults (Assertion.lift φ * P) c := by
  intro frame heap hbefore
  rw [mul_assoc, lift_mul_iff] at hbefore
  exact hfaults hbefore.1 frame heap hbefore.2

theorem any {ι : Type} {P : ι → Assertion Cell} (hfaults : ∀ x, Faults (P x) c) :
    Faults (Assertion.any P) c := by
  intro frame heap hbefore
  obtain ⟨x, hbefore⟩ := any_mul_iff.mp hbefore
  exact hfaults x frame heap hbefore

/-- The first of two programs goes wrong. -/
theorem first (hfaults : Faults P c) : Faults P (c >>= f) := by
  intro frame heap hbefore
  show (c heap).bind _ = none
  rw [hfaults frame heap hbefore]
  rfl

/-- The second of two programs goes wrong. -/
theorem bind (hP : P' = P * F) (hfirst : Triple P c Q)
    (hsecond : ∀ a, Faults (Q a * F) (f a)) : Faults P' (c >>= f) := by
  subst hP
  intro frame heap hbefore
  rw [mul_assoc] at hbefore
  obtain ⟨r, heap', hrun, hbetween⟩ := hfirst (F * frame) heap hbefore
  rw [← mul_assoc] at hbetween
  show (c heap).bind (fun next => f next.1 next.2) = none
  rw [hrun]
  exact hsecond r frame heap' hbetween

theorem seq (hfirst : Triple P c Q) (hsecond : ∀ a, Faults (Q a) (f a)) : Faults P (c >>= f) :=
  bind (mul_one P).symm hfirst fun a => (mul_one (Q a)).symm ▸ hsecond a

end Faults

theorem load_faults {read : Cell → Option α} {p i : ℕ} {block : Block Cell}
    (hcell : block[i]?.join.bind read = none) : Faults (pointsTo p block) (load read p i) := by
  intro frame heap hbefore
  rw [load, (pointsTo_mul_iff.mp hbefore).1, Option.bind_some]
  cases hjoin : block[i]?.join with
  | none => rfl
  | some cell =>
      rw [hjoin, Option.bind_some] at hcell
      rw [Option.bind_some, hcell]
      rfl

theorem store_faults {p i : ℕ} {block : Block Cell} (hi : block.length ≤ i) (cell : Cell) :
    Faults (pointsTo p block) (store p i cell) := by
  intro frame heap hbefore
  rw [store, (pointsTo_mul_iff.mp hbefore).1, Option.bind_some, if_neg (Nat.not_lt.mpr hi)]

/-! ## Copies of the heap -/

/-- A program that runs on a copy of the heap, as a child process does. -/
def onCopy (c : Program Cell α) : Program Cell α := fun heap =>
  (c heap).map fun result => (result.1, heap)

/-- Whatever becomes of the copy, the heap stays as it was. -/
theorem onCopy_returns {P Q : Assertion Cell} {c : Program Cell α} {v : α}
    (hreturns : Returns P c v Q) : Returns P (onCopy c) v P := by
  intro frame heap hbefore
  obtain ⟨r, heap', hrun, hafter⟩ := hreturns frame heap hbefore
  rw [mul_assoc, lift_mul_iff] at hafter
  refine ⟨r, heap, ?_, ?_⟩
  · rw [onCopy, hrun, Option.map_some]
  · rw [mul_assoc, lift_mul_iff]
    exact ⟨hafter.1, hbefore⟩

/-! ## Owners -/

section Owners

variable {ι : Type} [DecidableEq ι] {P : ι → Assertion Cell}

/-- Every owner has its blocks, and all but finitely many have none. -/
def each (P : ι → Assertion Cell) : Assertion Cell :=
  any fun owners : Finset ι => Assertion.lift (∀ i ∉ owners, P i = 1) * ∏ i ∈ owners, P i

omit [DecidableEq ι] in
theorem each_iff {part : Blocks Cell} : each P part ↔
    ∃ owners : Finset ι, (∀ i ∉ owners, P i = 1) ∧ (∏ i ∈ owners, P i) part := by
  constructor
  · rintro ⟨owners, hpart⟩
    exact ⟨owners, lift_mul_iff.mp hpart⟩
  · rintro ⟨owners, hpart⟩
    exact ⟨owners, lift_mul_iff.mpr hpart⟩

omit [DecidableEq ι] in
theorem each_one : each (fun _ : ι => (1 : Assertion Cell)) = 1 := by
  apply Assertion.ext
  intro part
  rw [each_iff]
  constructor
  · rintro ⟨owners, -, hpart⟩
    rwa [Finset.prod_const_one] at hpart
  · intro hpart
    exact ⟨∅, fun _ _ => rfl, hpart⟩

/-- The blocks of one owner, and those of the others. -/
theorem prod_eq_mul_update (P : ι → Assertion Cell) (a : ι) {owners : Finset ι}
    (ha : a ∉ owners → P a = 1) :
    ∏ i ∈ owners, P i = P a * ∏ i ∈ owners, Function.update P a 1 i := by
  by_cases hmem : a ∈ owners
  · have hothers : ∏ i ∈ owners.erase a, Function.update P a 1 i = ∏ i ∈ owners.erase a, P i :=
      Finset.prod_congr rfl fun i hi => Function.update_of_ne (Finset.ne_of_mem_erase hi) ..
    rw [← Finset.mul_prod_erase owners P hmem, ← Finset.mul_prod_erase owners _ hmem,
      Function.update_self, one_mul, hothers]
  · rw [ha hmem, one_mul]
    refine Finset.prod_congr rfl fun i hi => (Function.update_of_ne ?_ ..).symm
    rintro rfl
    exact hmem hi

theorem each_eq_mul (P : ι → Assertion Cell) (a : ι) :
    each P = P a * each (Function.update P a 1) := by
  apply Assertion.ext
  intro part
  rw [each_iff, mul_iff]
  constructor
  · rintro ⟨owners, hnone, hpart⟩
    rw [prod_eq_mul_update P a (hnone a)] at hpart
    obtain ⟨first, second, hfirst, hsecond, hrest⟩ := hpart
    refine ⟨first, second, hfirst, each_iff.mpr ⟨owners, fun i hi => ?_, hsecond⟩, hrest⟩
    rw [Function.update_apply]
    split
    · rfl
    · exact hnone i hi
  · rintro ⟨first, second, hfirst, hsecond, hrest⟩
    obtain ⟨owners, hnone, hsecond⟩ := each_iff.mp hsecond
    refine ⟨insert a owners, fun i hi => ?_, ?_⟩
    · rw [Finset.mem_insert, not_or] at hi
      have hothers := hnone i hi.2
      rwa [Function.update_of_ne hi.1] at hothers
    · have hone : Function.update P a 1 a = 1 := Function.update_self ..
      rw [prod_eq_mul_update P a fun hout => absurd (Finset.mem_insert_self a owners) hout,
        Finset.prod_insert_one hone]
      exact ⟨first, second, hfirst, hsecond, hrest⟩

/-- The blocks of an owner are replaced. -/
theorem each_update (P : ι → Assertion Cell) (a : ι) (Q : Assertion Cell) :
    each (Function.update P a Q) = Q * each (Function.update P a 1) := by
  rw [each_eq_mul _ a, Function.update_self, Function.update_idem]

/-- A program that needs the blocks of one owner, and leaves them as they are. -/
theorem Returns.each {a : ι} {c : Program Cell α} {v : α} (hlocal : Returns (P a) c v (P a)) :
    Returns (each P) c v (each P) := by
  rw [each_eq_mul P a]
  exact hlocal.frame _

/-- One block, or none. -/
def held : Option (ℕ × Block Cell) → Assertion Cell
  | none => 1
  | some owned => pointsTo owned.1 owned.2

omit [DecidableEq ι] in
theorem held_eq_one {owned : Option (ℕ × Block Cell)} (hone : held owned = 1) : owned = none := by
  cases owned with
  | none => rfl
  | some owned =>
      have hpart : (1 : Assertion Cell)
          (Function.update (fun _ => none) owned.1 (some owned.2)) := hone ▸ rfl
      have hblock := congrFun (one_iff.mp hpart) owned.1
      rw [Function.update_self] at hblock
      cases hblock

/-- The blocks of some of the owners: each has one of them, and no two have the same. -/
theorem prod_held {owned : ι → Option (ℕ × Block Cell)} {owners : Finset ι} {part : Blocks Cell}
    (hpart : (∏ i ∈ owners, held (owned i)) part) :
    (∀ p block, part p = some block ↔ ∃ i ∈ owners, owned i = some (p, block)) ∧
      ∀ i ∈ owners, ∀ j ∈ owners, ∀ p first second,
        owned i = some (p, first) → owned j = some (p, second) → i = j := by
  induction owners using Finset.induction_on generalizing part with
  | empty =>
      rw [Finset.prod_empty] at hpart
      rw [one_iff.mp hpart]
      exact ⟨fun p block => by simp, fun i hi => absurd hi (Finset.notMem_empty i)⟩
  | insert a owners hnew ih =>
      rw [Finset.prod_insert hnew] at hpart
      simp only [Finset.exists_mem_insert, Finset.forall_mem_insert]
      cases hblock : owned a with
      | none =>
          rw [hblock, held, one_mul] at hpart
          obtain ⟨hblocks, hapart⟩ := ih hpart
          refine ⟨fun p block => (hblocks p block).trans ?_, ⟨nofun, nofun⟩, fun i hi => ?_⟩
          · rw [or_iff_right (by simp)]
          · exact ⟨nofun, hapart i hi⟩
      | some ownedBlock =>
          obtain ⟨q, own⟩ := ownedBlock
          rw [hblock, held, pointsTo_mul_iff] at hpart
          obtain ⟨hown, hothers⟩ := hpart
          obtain ⟨hblocks, hapart⟩ := ih hothers
          -- the others have their blocks elsewhere
          have helsewhere : ∀ i ∈ owners, ∀ block, owned i ≠ some (q, block) := by
            intro i hi block howned
            have hnone := (hblocks q block).mpr ⟨i, hi, howned⟩
            rw [Function.update_self] at hnone
            cases hnone
          refine ⟨fun p block => ?_, ⟨fun _ _ _ _ _ => trivial, ?_⟩, fun i hi => ⟨?_, ?_⟩⟩
          · by_cases hsame : p = q
            · subst hsame
              rw [hown, or_iff_left (by rintro ⟨i, hi, howned⟩; exact helsewhere i hi block howned)]
              simp
            · have hrest := hblocks p block
              rw [Function.update_of_ne hsame] at hrest
              rw [hrest, or_iff_right (by simp [Ne.symm hsame])]
          · intro j hj p first second hfirst hsecond
            obtain ⟨rfl, -⟩ := Prod.mk.inj (Option.some.inj hfirst)
            exact absurd hsecond (helsewhere j hj second)
          · intro p first second hfirst hsecond
            obtain ⟨rfl, -⟩ := Prod.mk.inj (Option.some.inj hsecond)
            exact absurd hfirst (helsewhere i hi first)
          · exact hapart i hi

/-- The blocks are those that have an owner, and no two owners have the same. -/
theorem each_held {owned : ι → Option (ℕ × Block Cell)} {part : Blocks Cell}
    (hpart : each (fun i => held (owned i)) part) :
    (∀ p block, part p = some block ↔ ∃ i, owned i = some (p, block)) ∧
      ∀ i j p first second, owned i = some (p, first) → owned j = some (p, second) → i = j := by
  obtain ⟨owners, hnone, hpart⟩ := each_iff.mp hpart
  have howner : ∀ {i ownedBlock}, owned i = some ownedBlock → i ∈ owners := by
    intro i ownedBlock howned
    by_contra hout
    rw [held_eq_one (hnone i hout)] at howned
    cases howned
  obtain ⟨hblocks, hapart⟩ := prod_held hpart
  refine ⟨fun p block => (hblocks p block).trans ?_, fun i j p first second hi hj => ?_⟩
  · exact ⟨fun ⟨i, _, hi⟩ => ⟨i, hi⟩, fun ⟨i, hi⟩ => ⟨i, howner hi, hi⟩⟩
  · exact hapart i (howner hi) j (howner hj) p first second hi hj

end Owners

end HeapLogic
