import OfcDarwin.Console.Model

/-!
# What becomes of a password

`ofc_read_password_impl` copies at most `len - 1` bytes and then stores a zero at the
index `len`, the first behind the buffer.  The last byte of the buffer, at `len - 1`, is
written by neither.  So the call always writes outside of the buffer
(`len_mem_written`); the buffer holds the right string all the same when the copy is
shorter than its bound, or when that last byte was zero before
(`readPassword_text_iff`).
-/

namespace OfcDarwin.Console

variable {pass inbuf : List UInt8} {len : UInt64}

/-- The bytes of the password that a buffer of `len` bytes can hold. -/
def passwordCut (pass : List UInt8) (len : UInt64) : List UInt8 := pass.take (len.toNat - 1)

/-- A call writes inside the buffer only and leaves the password in it, cut to what
fits. -/
structure PasswordContract (pass inbuf : List UInt8) (len : UInt64) : Prop where
  inside : ∀ index ∈ (ofcReadPasswordImpl pass inbuf len).written, index < len.toNat
  text : CString.text? (ofcReadPasswordImpl pass inbuf len).inbuf = some (passwordCut pass len)

theorem bound_eq (hlen : 1 ≤ len.toNat) : (len - 1).toNat = len.toNat - 1 :=
  UInt64.toNat_sub_of_le len 1 (UInt64.le_iff_toNat_le.mpr hlen)

theorem len_mem_written (pass inbuf : List UInt8) (len : UInt64) :
    len.toNat ∈ (ofcReadPasswordImpl pass inbuf len).written :=
  List.mem_append_right _ (List.mem_singleton_self _)

/-- The bytes written are those below `len - 1` and the one at `len`. -/
theorem mem_written_iff (hlen : 1 ≤ len.toNat) {index : ℕ} :
    index ∈ (ofcReadPasswordImpl pass inbuf len).written ↔
      index + 1 < len.toNat ∨ index = len.toNat := by
  rw [ofcReadPasswordImpl, bound_eq hlen, List.mem_append, List.mem_range, List.mem_singleton,
    Nat.lt_sub_iff_add_lt]

/-- The string in memory is the right one exactly when the copy ended it, or the byte
behind the copy was zero. -/
theorem readPassword_text_iff (hlen : 1 ≤ len.toNat) (hpass : 0 ∉ pass) :
    CString.text? (ofcReadPasswordImpl pass inbuf len).inbuf = some (passwordCut pass len) ↔
      pass.length + 1 < len.toNat ∨ inbuf[len.toNat - 1]? = some 0 := by
  rw [ofcReadPasswordImpl, passwordCut, bound_eq hlen, CString.set_strncpy (Nat.sub_le _ _),
    CString.text?_strncpy_iff hpass, List.getElem?_set_ne (by omega), Nat.lt_sub_iff_add_lt]

/-- No call stays inside the buffer: each writes at `len`.  What it leaves in the
buffer is right exactly when the password is shorter than `len - 1`, or the last byte of
the buffer was zero. -/
theorem readPassword_overruns (hlen : 1 ≤ len) (hpass : 0 ∉ pass) (inbuf : List UInt8) :
    ¬ PasswordContract pass inbuf len ∧
      (∀ index, index ∈ (ofcReadPasswordImpl pass inbuf len).written ↔
        index + 1 < len.toNat ∨ index = len.toNat) ∧
      (CString.text? (ofcReadPasswordImpl pass inbuf len).inbuf = some (passwordCut pass len) ↔
        pass.length + 1 < len.toNat ∨ inbuf[len.toNat - 1]? = some 0) := by
  have hlen' : 1 ≤ len.toNat := UInt64.le_iff_toNat_le.mp hlen
  refine ⟨fun hcontract => ?_, fun index => mem_written_iff hlen',
    readPassword_text_iff hlen' hpass⟩
  exact lt_irrefl _ (hcontract.inside _ (len_mem_written pass inbuf len))

/-- "hi" in a buffer of eight cleared bytes, which holds it afterwards. -/
theorem readPassword_short :
    ¬ PasswordContract [104, 105] [0, 0, 0, 0, 0, 0, 0, 0, 77] 8 ∧
      CString.text? (ofcReadPasswordImpl [104, 105] [0, 0, 0, 0, 0, 0, 0, 0, 77] 8).inbuf =
        some [104, 105] := by
  obtain ⟨hnever, -, htext⟩ := @readPassword_overruns [104, 105] 8 (by decide) (by decide)
    [0, 0, 0, 0, 0, 0, 0, 0, 77]
  exact ⟨hnever, htext.mpr (Or.inl (by decide))⟩

/-- "secret" in a buffer of four bytes: the byte at index 4, behind the buffer, is
overwritten, the one at index 3 is kept and read as part of the password. -/
theorem password_keeps_last_byte :
    ofcReadPasswordImpl [115, 101, 99, 114, 101, 116] [88, 88, 88, 88, 77] 4 =
        { inbuf := [115, 101, 99, 88, 0], written := [0, 1, 2, 4] } ∧
      ¬ PasswordContract [115, 101, 99, 114, 101, 116] [88, 88, 88, 88, 77] 4 := by
  have hread : ofcReadPasswordImpl [115, 101, 99, 114, 101, 116] [88, 88, 88, 88, 77] 4 =
      { inbuf := [115, 101, 99, 88, 0], written := [0, 1, 2, 4] } := by decide
  refine ⟨hread, ?_⟩
  rintro ⟨hinside, -⟩
  rw [hread] at hinside
  exact absurd (hinside 4 (by decide)) (by decide)

end OfcDarwin.Console
