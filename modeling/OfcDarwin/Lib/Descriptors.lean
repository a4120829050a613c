import Mathlib.Algebra.Order.Group.Int
import Mathlib.Data.Int.Init
import Mathlib.Logic.Function.Basic

/-!
# Descriptor numbers and what is open on them

A process names what it has open by numbers that the kernel hands out and takes
back, so one number may stand for several things in the course of a run.  Every
open gets a serial number of its own here, which is never used again; `closes`
counts the successful closes of a serial.

What a kernel guarantees is `Sound`: what is open on different numbers is
different, and has not been closed.  `install` and `close` keep it.
-/

namespace Descriptors

/-- What is open on a number: which open it came from, and its state `α`. -/
structure Open (α : Type*) where
  serial : ℕ
  state : α

/-- The descriptors of a process, and the history of its opens and closes. -/
structure Table (α : Type*) where
  slot : ℤ → Option (Open α)
  next : ℕ
  closes : ℕ → ℕ

variable {α : Type*}

namespace Table

/-- No number is open. -/
def empty : Table α := { slot := fun _ => none, next := 0, closes := fun _ => 0 }

/-- An open that the kernel gives the number `fd`. -/
def install (t : Table α) (fd : ℤ) (state : α) : Table α :=
  { t with
    slot := Function.update t.slot fd (some { serial := t.next, state := state })
    next := t.next + 1 }

/-- A close of the number `fd`, which fails if nothing is open on it. -/
def close (t : Table α) (fd : ℤ) : Table α :=
  match t.slot fd with
  | none => t
  | some file =>
      { t with
        slot := Function.update t.slot fd none
        closes := Function.update t.closes file.serial (t.closes file.serial + 1) }

/-- A change of the state of what is open on `fd`. -/
def modify (t : Table α) (fd : ℤ) (f : α → α) : Table α :=
  { t with
    slot := Function.update t.slot fd
      ((t.slot fd).map fun file => { file with state := f file.state }) }

/-- The serial of what is open on a number. -/
def serial? (t : Table α) (fd : ℤ) : Option ℕ := (t.slot fd).map Open.serial

/-! ## The fields after an operation -/

@[simp] theorem install_next (t : Table α) (fd : ℤ) (state : α) :
    (t.install fd state).next = t.next + 1 := rfl

theorem install_slot_of_ne {t : Table α} {fd other : ℤ} (hne : other ≠ fd) (state : α) :
    (t.install fd state).slot other = t.slot other := Function.update_of_ne hne ..

theorem install_slot_self (t : Table α) (fd : ℤ) (state : α) :
    (t.install fd state).slot fd = some { serial := t.next, state := state } :=
  Function.update_self ..

theorem serial_install (t : Table α) (fd other : ℤ) (state : α) :
    (t.install fd state).serial? other =
      if other = fd then some t.next else t.serial? other := by
  unfold serial?
  split
  · rename_i hsame
    rw [hsame, install_slot_self]
    rfl
  · rename_i hne
    rw [install_slot_of_ne hne]

@[simp] theorem close_next (t : Table α) (fd : ℤ) : (t.close fd).next = t.next := by
  unfold close
  split <;> rfl

theorem close_slot_of_ne {t : Table α} {fd other : ℤ} (hne : other ≠ fd) :
    (t.close fd).slot other = t.slot other := by
  unfold close
  split
  · rfl
  · exact Function.update_of_ne hne ..

theorem close_slot_self (t : Table α) (fd : ℤ) : (t.close fd).slot fd = none := by
  unfold close
  split
  · assumption
  · exact Function.update_self ..

theorem serial_close (t : Table α) (fd other : ℤ) :
    (t.close fd).serial? other = if other = fd then none else t.serial? other := by
  unfold serial?
  split
  · rename_i hsame
    rw [hsame, close_slot_self]
    rfl
  · rename_i hne
    rw [close_slot_of_ne hne]

/-- A close counts for the serial on its number, and for no other. -/
theorem close_closes (t : Table α) (fd : ℤ) (serial : ℕ) :
    (t.close fd).closes serial =
      if t.serial? fd = some serial then t.closes serial + 1 else t.closes serial := by
  unfold close serial?
  cases t.slot fd with
  | none => simp
  | some file =>
      simp only [Option.map_some, Option.some.injEq, Function.update_apply, eq_comm]
      split
      · rename_i hsame
        rw [hsame]
      · rfl

theorem modify_slot_of_ne {t : Table α} {fd other : ℤ} (hne : other ≠ fd) (f : α → α) :
    (t.modify fd f).slot other = t.slot other := Function.update_of_ne hne ..

theorem modify_slot_self (t : Table α) (fd : ℤ) (f : α → α) :
    (t.modify fd f).slot fd =
      (t.slot fd).map fun file => { file with state := f file.state } :=
  Function.update_self ..

@[simp] theorem serial_modify (t : Table α) (fd other : ℤ) (f : α → α) :
    (t.modify fd f).serial? other = t.serial? other := by
  unfold serial?
  by_cases hsame : other = fd
  · rw [hsame, modify_slot_self, Option.map_map]
    rfl
  · rw [modify_slot_of_ne hsame]

end Table

/-! ## What a kernel guarantees -/

/-- The open numbers stand for different opens, none of them closed. -/
structure Sound (t : Table α) : Prop where
  nonneg : ∀ fd serial, t.serial? fd = some serial → 0 ≤ fd
  issued : ∀ fd serial, t.serial? fd = some serial → serial < t.next
  distinct : ∀ fd fd' serial, t.serial? fd = some serial → t.serial? fd' = some serial → fd = fd'
  not_closed : ∀ fd serial, t.serial? fd = some serial → t.closes serial = 0
  unused : ∀ serial, t.next ≤ serial → t.closes serial = 0

theorem empty_sound : Sound (Table.empty : Table α) :=
  ⟨nofun, nofun, nofun, nofun, fun _ _ => rfl⟩

theorem Sound.install {t : Table α} (ht : Sound t) {fd : ℤ} (hfd : 0 ≤ fd)
    (state : α) : Sound (t.install fd state) := by
  refine ⟨?_, ?_, ?_, ?_, ?_⟩
  · intro other serial hother
    rw [Table.serial_install] at hother
    split at hother
    · rename_i hsame
      rwa [hsame]
    · exact ht.nonneg other serial hother
  · intro other serial hother
    rw [Table.serial_install] at hother
    rw [Table.install_next]
    split at hother
    · obtain rfl := Option.some.inj hother
      omega
    · have hissued := ht.issued other serial hother
      omega
  · intro first second serial hfirst hsecond
    rw [Table.serial_install] at hfirst hsecond
    -- the new serial is on no other number
    split at hfirst <;> split at hsecond
    · rename_i h1 h2
      rw [h1, h2]
    · obtain rfl := Option.some.inj hfirst
      exact absurd (ht.issued second _ hsecond) (lt_irrefl _)
    · obtain rfl := Option.some.inj hsecond
      exact absurd (ht.issued first _ hfirst) (lt_irrefl _)
    · exact ht.distinct first second serial hfirst hsecond
  · intro other serial hother
    rw [Table.serial_install] at hother
    split at hother
    · obtain rfl := Option.some.inj hother
      exact ht.unused _ le_rfl
    · exact ht.not_closed other serial hother
  · intro serial hserial
    rw [Table.install_next] at hserial
    exact ht.unused serial (by omega)

theorem Sound.close {t : Table α} (ht : Sound t) (fd : ℤ) : Sound (t.close fd) := by
  have hother : ∀ {other : ℤ} {serial : ℕ}, (t.close fd).serial? other = some serial →
      other ≠ fd ∧ t.serial? other = some serial := by
    intro other serial hopen
    rw [Table.serial_close] at hopen
    split at hopen
    · cases hopen
    · rename_i hne
      exact ⟨hne, hopen⟩
  refine ⟨?_, ?_, ?_, ?_, ?_⟩
  · intro other serial hopen
    exact ht.nonneg other serial (hother hopen).2
  · intro other serial hopen
    rw [Table.close_next]
    exact ht.issued other serial (hother hopen).2
  · intro first second serial hfirst hsecond
    exact ht.distinct first second serial (hother hfirst).2 (hother hsecond).2
  · intro other serial hopen
    obtain ⟨hne, hold⟩ := hother hopen
    rw [Table.close_closes, if_neg]
    · exact ht.not_closed other serial hold
    · exact fun hsame => hne (ht.distinct other fd serial hold hsame)
  · intro serial hserial
    rw [Table.close_next] at hserial
    rw [Table.close_closes, if_neg]
    · exact ht.unused serial hserial
    · exact fun hopen => absurd (ht.issued fd serial hopen) (by omega)

end Descriptors
