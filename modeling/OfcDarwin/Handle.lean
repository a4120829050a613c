import Mathlib.Data.Nat.Notation

/-!
# Handles

Everything the platform layer shares with the core library is named by an
`OFC_HANDLE`.  The handle table itself belongs to the core; what the code here
relies on is that `ofc_handle_lock` resolves a handle to its record, or to
`OFC_NULL`, which the models write as an `Option`.
-/

namespace OfcDarwin

/-- `OFC_HANDLE`, an opaque reference into the handle table. -/
abbrev Handle := ℕ

/-- `OFC_HANDLE_NULL`. -/
def handleNull : Handle := 0

/-- `OFC_HANDLE_TYPE`, as far as the platform layer names its members. -/
inductive HandleType where
  | waitSet
  | sched
  | app
  | thread
  | pipe
  | mailslot
  | fswin32File
  | fsdarwinFile
  | queue
  | waitQueue
  | file
  | socket
  | fsdarwinOverlapped
  | fssmbOverlapped
  | event
  | timer
  | socketImpl
  | process
deriving DecidableEq, Repr

end OfcDarwin
