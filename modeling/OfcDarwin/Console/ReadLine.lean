import OfcDarwin.Console.Model

/-!
# What a line of input becomes

After `fgets`, `ofc_read_stdin_impl` overwrites the last byte of the string with a zero.
That byte is the newline when the line fits with it.  In every other case it is a byte
of the line, or of what the buffer held before, or there is none and the store is in
front of the buffer.

* `lastStore_spec`: the store, for any string in the buffer;
* `takeLine_eq`: the bytes `fgets` reads;
* `lineContract_iff`: exactly when the buffer ends up with the line.
-/

namespace OfcDarwin.Console

/-- The first line of the input, without its newline. -/
def firstLine (stdin : List UInt8) : List UInt8 := stdin.takeWhile (· ≠ newline)

/-- The bytes of the first line that a buffer of `len` bytes can hold. -/
def lineCut (stdin : List UInt8) (len : UInt64) : List UInt8 :=
  (firstLine stdin).take (len.toNat - 1)

/-- A call writes inside the buffer only and leaves the first line in it, without its
newline and cut to what fits. -/
def LineContract (stdin inbuf : List UInt8) (len : UInt64) : Prop :=
  ∃ read, ofcReadStdinImpl stdin inbuf len = some read ∧
    (∀ index ∈ read.written, index < len.toNat) ∧
    CString.text? read.inbuf = some (lineCut stdin len)

/-! ## The sizes -/

theorem toInt_le (len : UInt64) : toInt len ≤ len.toNat := by
  unfold toInt
  have hpos : (0 : ℤ) ≤ len.toNat := Int.natCast_nonneg _
  rw [Int.bmod_def]
  split <;> omega

/-- The index of the last byte of a string, below `2 ^ 64`, wraps when there is none. -/
theorem lastIndex_eq {length : ℕ} (hlength : length < 2 ^ 64) :
    (UInt64.ofNat length - 1).toNat = if length = 0 then 2 ^ 64 - 1 else length - 1 := by
  rw [UInt64.toNat_sub, UInt64.toNat_ofNat', UInt64.toNat_one]
  split <;> omega

/-! ## The last store -/

/-- A string whose last byte, in the buffer, is overwritten leaves the bytes before it;
an empty string makes the store miss the buffer. -/
theorem lastStore_spec {inbuf : List UInt8} {written : List ℕ} {len : UInt64} {length : ℕ}
    (hlen : 1 ≤ len.toNat) (hlength : CString.length? inbuf = some length)
    (hwritten : ∀ index ∈ written, index < len.toNat) (text : List UInt8) :
    (∃ read, lastStore inbuf written len = some read ∧
      (∀ index ∈ read.written, index < len.toNat) ∧ CString.text? read.inbuf = some text) ↔
    1 ≤ length ∧ inbuf.take (min length len.toNat - 1) = text := by
  have hrange := len.toNat_lt
  have hstored : lastStore inbuf written len =
      let last := ((if length < len.toNat then UInt64.ofNat length else len) - 1).toNat
      some { inbuf := inbuf.set last 0, written := written ++ [last] } := by
    rw [lastStore, hlength]
    rfl
  have hlast : ((if length < len.toNat then UInt64.ofNat length else len) - 1).toNat =
      if length = 0 then 2 ^ 64 - 1 else min length len.toNat - 1 := by
    split
    · rename_i hshort
      rw [lastIndex_eq (by omega), min_eq_left (le_of_lt hshort)]
    · rename_i hlong
      have hback : UInt64.ofNat len.toNat = len := UInt64.ofNat_toNat
      rw [← hback, lastIndex_eq (by omega), hback, if_neg (by omega), if_neg (by omega),
        min_eq_right (not_lt.mp hlong)]
  simp only [hlast] at hstored
  rw [hstored]
  constructor
  · rintro ⟨read, hread, hinside, htext⟩
    obtain rfl := Option.some.inj hread
    by_cases hempty : length = 0
    · -- the store is at the index 2 ^ 64 - 1
      have hmiss := hinside (2 ^ 64 - 1) (by simp [hempty])
      omega
    · simp only [if_neg hempty] at htext
      rw [CString.text?_set hlength (by omega), Option.some.injEq] at htext
      exact ⟨by omega, htext⟩
  · rintro ⟨hpos, rfl⟩
    rw [if_neg (by omega)]
    refine ⟨_, rfl, ?_, CString.text?_set hlength (by omega)⟩
    intro index hmem
    rcases List.mem_append.mp hmem with hmem | hmem
    · exact hwritten index hmem
    · rw [List.mem_singleton.mp hmem]
      omega

/-! ## The bytes that are read -/

theorem firstLine_newline (stream : List UInt8) : firstLine (newline :: stream) = [] := by
  rw [firstLine, List.takeWhile_cons, if_neg (by simp)]

theorem firstLine_cons {c : UInt8} (hc : c ≠ newline) (stream : List UInt8) :
    firstLine (c :: stream) = c :: firstLine stream := by
  rw [firstLine, List.takeWhile_cons, if_pos (by simpa using hc)]
  rfl

/-- `fgets` reads the first line with its newline if there is room for both, and
otherwise as much of the line as there is room for. -/
theorem takeLine_eq (room : ℕ) (stdin : List UInt8) :
    takeLine room stdin =
      if newline ∈ stdin ∧ (firstLine stdin).length < room then firstLine stdin ++ [newline]
      else (firstLine stdin).take room := by
  induction stdin generalizing room with
  | nil =>
      rw [if_neg (fun hboth => absurd hboth.1 List.not_mem_nil)]
      cases room <;> rfl
  | cons c stream ih =>
      cases room with
      | zero => rw [if_neg (by omega), List.take_zero, takeLine]
      | succ room =>
          rw [takeLine]
          by_cases hc : c = newline
          · rw [if_pos hc, hc, firstLine_newline, if_pos ⟨List.mem_cons_self, Nat.succ_pos room⟩]
            rfl
          · have hmem : newline ∈ c :: stream ↔ newline ∈ stream := by
              rw [List.mem_cons]
              exact or_iff_right (Ne.symm hc)
            rw [if_neg hc, ih room, firstLine_cons hc]
            simp only [hmem, List.length_cons, Nat.add_lt_add_iff_right]
            split
            · rfl
            · rfl

theorem takeLine_length_le (room : ℕ) (stdin : List UInt8) :
    (takeLine room stdin).length ≤ room := by
  rw [takeLine_eq]
  split
  · rw [List.length_append, List.length_singleton]
    omega
  · rw [List.length_take]
    omega

/-- Without its last byte, what is read is the first line exactly when the line was read
with its newline. -/
theorem takeLine_dropLast_iff {room : ℕ} {stdin : List UInt8} {len : UInt64} (hpos : 1 ≤ room)
    (hroom : room + 1 ≤ len.toNat) (hinput : stdin ≠ []) :
    (takeLine room stdin).dropLast = lineCut stdin len ↔
      newline ∈ stdin ∧ (firstLine stdin).length < room := by
  rw [takeLine_eq]
  constructor
  · intro hcut
    by_contra hnot
    rw [if_neg hnot] at hcut
    have hlengths := congrArg List.length hcut
    rw [List.length_dropLast, List.length_take, lineCut, List.length_take] at hlengths
    have hnonempty : 1 ≤ (firstLine stdin).length := by
      by_contra hempty
      have hnil : firstLine stdin = [] := List.length_eq_zero_iff.mp (by omega)
      obtain ⟨c, stream, rfl⟩ := List.exists_cons_of_ne_nil hinput
      by_cases hc : c = newline
      · exact hnot ⟨hc ▸ List.mem_cons_self, by omega⟩
      · rw [firstLine_cons hc] at hnil
        cases hnil
    omega
  · intro hfits
    rw [if_pos hfits, List.dropLast_concat, lineCut, List.take_of_length_le (by omega)]

/-! ## The contract -/

/-- `fgets` stores nothing: there is no room, or no input. -/
theorem fgets_nothing {size : ℤ} {stdin : List UInt8}
    (hnothing : size ≤ 0 ∨ 2 ≤ size ∧ stdin = []) (inbuf : List UInt8) :
    fgets size stdin inbuf = (inbuf, []) := by
  rw [fgets]
  rcases hnothing with hroom | ⟨hroom, hend⟩
  · rw [if_pos hroom]
  · rw [if_neg (by omega), if_pos ⟨by omega, hend⟩]

theorem fgets_line {size : ℤ} {stdin : List UInt8} (hroom : 0 < size)
    (hinput : size = 1 ∨ stdin ≠ []) (inbuf : List UInt8) :
    fgets size stdin inbuf =
      (takeLine (size - 1).toNat stdin ++
          0 :: inbuf.drop ((takeLine (size - 1).toNat stdin).length + 1),
        List.range ((takeLine (size - 1).toNat stdin).length + 1)) := by
  rw [fgets, if_neg (by omega), if_neg]
  rintro ⟨hsize, hend⟩
  rcases hinput with hone | hnonempty
  · omega
  · exact hnonempty hend

/-- The contract in terms of the string that `fgets` leaves in the buffer. -/
theorem lineContract_of_length? {stdin inbuf inbuf' : List UInt8} {written : List ℕ}
    {len : UInt64} {length : ℕ} (hlen : 1 ≤ len.toNat)
    (hfgets : fgets (toInt len) stdin inbuf = (inbuf', written))
    (hwritten : ∀ index ∈ written, index < len.toNat)
    (hlength : CString.length? inbuf' = some length) :
    LineContract stdin inbuf len ↔
      1 ≤ length ∧ inbuf'.take (min length len.toNat - 1) = lineCut stdin len := by
  rw [LineContract, ofcReadStdinImpl, hfgets]
  exact lastStore_spec hlen hlength hwritten _

/-- The contract when `fgets` stores nothing: what was in the buffer is taken for the
line. -/
theorem lineContract_of_nothing {stdin inbuf : List UInt8} {len : UInt64} (hlen : 1 ≤ len.toNat)
    (hnothing : toInt len ≤ 0 ∨ 2 ≤ toInt len ∧ stdin = []) :
    LineContract stdin inbuf len ↔
      ∃ length, CString.length? inbuf = some length ∧ 1 ≤ length ∧
        inbuf.take (min length len.toNat - 1) = lineCut stdin len := by
  have hfgets := fgets_nothing hnothing inbuf
  cases hlength : CString.length? inbuf with
  | none =>
      refine iff_of_false ?_ (by simp)
      rintro ⟨read, hread, -⟩
      rw [ofcReadStdinImpl, hfgets, lastStore, hlength] at hread
      cases hread
  | some length =>
      rw [lineContract_of_length? hlen hfgets (by simp) hlength]
      simp

/-- The contract when `fgets` reads a line: the byte that goes has to be the newline. -/
theorem lineContract_of_line {stdin inbuf : List UInt8} {len : UInt64} (hlen : 1 ≤ len.toNat)
    (hstdin : 0 ∉ stdin) (hroom : 0 < toInt len) (hinput : toInt len = 1 ∨ stdin ≠ []) :
    LineContract stdin inbuf len ↔
      newline ∈ stdin ∧ ((firstLine stdin).length : ℤ) + 2 ≤ toInt len := by
  have hsize := toInt_le len
  have hread := takeLine_length_le (toInt len - 1).toNat stdin
  have hzero : (0 : UInt8) ∉ takeLine (toInt len - 1).toNat stdin := by
    have hline : (0 : UInt8) ∉ firstLine stdin := fun hmem =>
      hstdin ((List.takeWhile_sublist _).subset hmem)
    rw [takeLine_eq]
    split
    · simp only [List.mem_append, List.mem_singleton, not_or]
      exact ⟨hline, by decide⟩
    · exact fun hmem => hline (List.mem_of_mem_take hmem)
  rw [lineContract_of_length? hlen (fgets_line hroom hinput inbuf) (by
    intro index hmem
    have hindex := List.mem_range.mp hmem
    omega) (CString.length?_append hzero _), min_eq_left (by omega),
    List.take_append_of_le_length (by omega), ← List.dropLast_eq_take]
  by_cases hone : toInt len = 1
  · -- no room for a byte: the string is empty
    refine iff_of_false ?_ (by omega)
    rintro ⟨hpos, -⟩
    omega
  · have hnonempty := hinput.resolve_left hone
    rw [takeLine_dropLast_iff (by omega) (by omega) hnonempty]
    constructor
    · rintro ⟨-, hmem, hfits⟩
      exact ⟨hmem, by omega⟩
    · rintro ⟨hmem, hfits⟩
      refine ⟨?_, hmem, by omega⟩
      rw [takeLine_eq, if_pos ⟨hmem, by omega⟩, List.length_append, List.length_singleton]
      omega

/-- The line and its newline fit in the `int` that `fgets` is given as its size; or the
input has ended and the buffer held a string of one byte; or there is no room in the
`int`, and the buffer held the line and one byte more. -/
def LineFits (stdin inbuf : List UInt8) (len : UInt64) : Prop :=
  newline ∈ stdin ∧ ((firstLine stdin).length : ℤ) + 2 ≤ toInt len ∨
    stdin = [] ∧ 2 ≤ toInt len ∧ CString.length? inbuf = some 1 ∨
    toInt len ≤ 0 ∧ ∃ length, CString.length? inbuf = some length ∧ 1 ≤ length ∧
      inbuf.take (min length len.toNat - 1) = lineCut stdin len

/-- The buffer ends up with the first line exactly in these cases. -/
theorem lineContract_iff {stdin inbuf : List UInt8} {len : UInt64} (hlen : 1 ≤ len)
    (hstdin : 0 ∉ stdin) :
    LineContract stdin inbuf len ↔ LineFits stdin inbuf len := by
  have hlen' : 1 ≤ len.toNat := UInt64.le_iff_toNat_le.mp hlen
  unfold LineFits
  by_cases hroom : toInt len ≤ 0
  · rw [lineContract_of_nothing hlen' (Or.inl hroom)]
    constructor
    · exact fun hheld => Or.inr (Or.inr ⟨hroom, hheld⟩)
    · rintro (⟨-, hfits⟩ | ⟨-, hsize, -⟩ | ⟨-, hheld⟩)
      · omega
      · omega
      · exact hheld
  · by_cases hend : 2 ≤ toInt len ∧ stdin = []
    · rw [lineContract_of_nothing hlen' (Or.inr hend)]
      obtain ⟨hsize, rfl⟩ := hend
      have hsize' := toInt_le len
      have hcut : lineCut [] len = [] := by
        rw [lineCut, firstLine, List.takeWhile_nil, List.take_nil]
      rw [hcut]
      constructor
      · rintro ⟨length, hlength, hpos, htake⟩
        have hinside := CString.length?_lt hlength
        have hshort := congrArg List.length htake
        rw [List.length_take, List.length_nil] at hshort
        obtain rfl : length = 1 := by omega
        exact Or.inr (Or.inl ⟨rfl, hsize, hlength⟩)
      · rintro (⟨hmem, -⟩ | ⟨-, -, hlength⟩ | ⟨hnone, -⟩)
        · exact absurd hmem List.not_mem_nil
        · refine ⟨1, hlength, le_rfl, ?_⟩
          rw [min_eq_left hlen', Nat.sub_self, List.take_zero]
        · omega
    · have hinput : toInt len = 1 ∨ stdin ≠ [] := by
        by_cases hone : toInt len = 1
        · exact Or.inl hone
        · exact Or.inr fun hnil => hend ⟨by omega, hnil⟩
      rw [lineContract_of_line hlen' hstdin (by omega) hinput]
      constructor
      · exact Or.inl
      · rintro (hfits | ⟨hnil, hsize, -⟩ | ⟨hnone, -⟩)
        · exact hfits
        · exact absurd ⟨hsize, hnil⟩ hend
        · omega

/-- "hi" and a newline, in a buffer of eight bytes. -/
theorem lineContract_fits :
    LineContract [104, 105, 10] [0, 0, 0, 0, 0, 0, 0, 0] 8 :=
  (@lineContract_iff [104, 105, 10] [0, 0, 0, 0, 0, 0, 0, 0] 8 (by decide) (by decide)).mpr
    (Or.inl ⟨by decide, by decide⟩)

/-- A last line "hi" without a newline, in a buffer with room to spare, loses its "i"; at
the end of the input a cleared buffer is written in front. -/
theorem line_loses_byte :
    ofcReadStdinImpl [104, 105] [0, 0, 0, 0, 0, 0, 0, 0] 8 =
        some { inbuf := [104, 0, 0, 0, 0, 0, 0, 0], written := [0, 1, 2, 1] } ∧
      ¬ LineContract [104, 105] [0, 0, 0, 0, 0, 0, 0, 0] 8 ∧
      ofcReadStdinImpl [] [0, 0, 0, 0, 0, 0, 0, 0] 8 =
        some { inbuf := [0, 0, 0, 0, 0, 0, 0, 0], written := [2 ^ 64 - 1] } ∧
      ¬ LineContract [] [0, 0, 0, 0, 0, 0, 0, 0] 8 := by
  have hread : ofcReadStdinImpl [104, 105] [0, 0, 0, 0, 0, 0, 0, 0] 8 =
      some { inbuf := [104, 0, 0, 0, 0, 0, 0, 0], written := [0, 1, 2, 1] } := by decide
  have hend : ofcReadStdinImpl [] [0, 0, 0, 0, 0, 0, 0, 0] 8 =
      some { inbuf := [0, 0, 0, 0, 0, 0, 0, 0], written := [2 ^ 64 - 1] } := by decide
  refine ⟨hread, ?_, hend, ?_⟩
  · rintro ⟨read, hreturns, -, htext⟩
    rw [hread] at hreturns
    obtain rfl := Option.some.inj hreturns
    revert htext
    decide
  · rintro ⟨read, hreturns, hinside, -⟩
    rw [hend] at hreturns
    obtain rfl := Option.some.inj hreturns
    revert hinside
    decide

end OfcDarwin.Console
