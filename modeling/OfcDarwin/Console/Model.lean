import Mathlib.Data.UInt
import OfcDarwin.Lib.CString

/-!
# Reading from the console

`ofc_read_stdin_impl` over the bytes that are left on the standard input and the memory
from `inbuf` on, which goes on behind the buffer.  `fgets` is the function of the C
library: at most one byte less than its size, up to and with the first newline, and a
zero behind them; at the end of the input, or for a size that is not positive, it stores
nothing.

`ofc_read_password_impl` takes the string that `getpass` returns, and `ofc_strncpy` is
the `strncpy` of the C library.

The indices at which a call writes are part of its outcome, since one of them can lie
outside of the buffer; and a call that runs off the memory in `ofc_strlen` has none.
-/

namespace OfcDarwin.Console

/-- `'\n'`. -/
def newline : UInt8 := 10

/-- The bytes that `fgets` reads when there is room for `room`. -/
def takeLine : ℕ → List UInt8 → List UInt8
  | 0, _ => []
  | _, [] => []
  | room + 1, c :: stream => if c = newline then [c] else c :: takeLine room stream

/-- The cast of a size to `int`. -/
def toInt (len : UInt64) : ℤ := (len.toNat : ℤ).bmod (2 ^ 32)

/-- `fgets(inbuf, size, stdin)`: the memory afterwards and the indices it writes. -/
def fgets (size : ℤ) (stdin inbuf : List UInt8) : List UInt8 × List ℕ :=
  if size ≤ 0 then (inbuf, [])
  -- the end of the input, before any byte was read
  else if size > 1 ∧ stdin = [] then (inbuf, [])
  else
    let line := takeLine (size - 1).toNat stdin
    (line ++ 0 :: inbuf.drop (line.length + 1), List.range (line.length + 1))

/-- The outcome of a call: the memory from `inbuf` on, and the indices written. -/
structure Read where
  inbuf : List UInt8
  written : List ℕ
deriving DecidableEq, Repr

/-- The statements of `ofc_read_stdin_impl` after its `fgets`.  The index of the store is
an unsigned difference. -/
def lastStore (inbuf : List UInt8) (written : List ℕ) (len : UInt64) : Option Read := do
  let strlen ← CString.length? inbuf
  let len := if strlen < len.toNat then UInt64.ofNat strlen else len
  let last := (len - 1).toNat
  pure { inbuf := inbuf.set last 0, written := written ++ [last] }

/-- `ofc_read_stdin_impl`. -/
def ofcReadStdinImpl (stdin inbuf : List UInt8) (len : UInt64) : Option Read :=
  let stored := fgets (toInt len) stdin inbuf
  lastStore stored.1 stored.2 len

/-- `ofc_read_password_impl`.  The copy writes at all indices below its bound. -/
def ofcReadPasswordImpl (pass inbuf : List UInt8) (len : UInt64) : Read :=
  let bound := (len - 1).toNat
  { inbuf := (CString.strncpy bound pass inbuf).set len.toNat 0
    written := List.range bound ++ [len.toNat] }

end OfcDarwin.Console
