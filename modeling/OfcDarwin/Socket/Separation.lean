import OfcDarwin.Socket.DescriptorOwnership

/-!
# One socket at a time

An operation on a handle leaves the record of every other handle as it is, and what
is open on the descriptor in it.  This rests on ownership: the number that an
operation closes or configures is in no record but its own, and the number of a new
socket is in none.
-/

namespace OfcDarwin.Socket

open Descriptors Transition

variable {s u : State}

/-! ## Numbers in different records -/

/-- A number that is not open is in no record. -/
theorem Owned.ne_of_free (hs : Owned s) {h : Handle} {sock : OfcSocketImpl} {fd : ℤ}
    (hsock : s.sockets h = some sock) (hnonneg : 0 ≤ fd) (hfree : s.kernel.serial? fd = none) :
    sock.socket ≠ fd := by
  rintro rfl
  obtain ⟨serial, hserial, -⟩ := hs.held h _ (fd_of_sockets hsock) hnonneg
  rw [hfree] at hserial
  cases hserial

/-- An open number in one record is in no other. -/
theorem Owned.ne_of_open (hs : Owned s) {h other : Handle} {sock record : OfcSocketImpl}
    {file : Open Endpoint} (hsock : s.sockets h = some sock)
    (hrecord : s.sockets other = some record) (hne : other ≠ h)
    (hfile : s.kernel.slot sock.socket = some file) : record.socket ≠ sock.socket := by
  intro hsame
  have hserial : s.kernel.serial? sock.socket = some file.serial := by
    rw [Table.serial?, hfile, Option.map_some]
  have hfd : s.fd? other = some sock.socket := by rw [fd_of_sockets hrecord, hsame]
  exact hne (hs.distinct other h _ hfd (fd_of_sockets hsock) (hs.sound.nonneg _ _ hserial))

/-- Closing the number of one record leaves what is open on that of another. -/
theorem Owned.closeFd_slot (hs : Owned s) {h other : Handle} {sock record : OfcSocketImpl}
    (hsock : s.sockets h = some sock) (hrecord : s.sockets other = some record)
    (hne : other ≠ h) :
    (s.closeFd sock.socket).kernel.slot record.socket = s.kernel.slot record.socket := by
  by_cases hsame : record.socket = sock.socket
  · -- both records have lost theirs
    cases hslot : s.kernel.slot sock.socket with
    | none => rw [hsame, hslot, State.closeFd, Table.close_slot_self]
    | some file => exact absurd hsame (hs.ne_of_open hsock hrecord hne hslot)
  · exact Table.close_slot_of_ne hsame

/-- Setting flags on the descriptor of one record leaves what is open on that of
another. -/
theorem Owned.setFlags_slot (hs : Owned s) {h other : Handle} {sock record : OfcSocketImpl}
    {file : Open Endpoint} (hsock : s.sockets h = some sock)
    (hrecord : s.sockets other = some record) (hne : other ≠ h)
    (hfile : s.kernel.slot sock.socket = some file) (flags : UInt32) :
    (s.setFlags sock.socket flags).kernel.slot record.socket = s.kernel.slot record.socket := by
  rw [State.setFlags, Table.modify_slot_of_ne (hs.ne_of_open hsock hrecord hne hfile)]

/-! ## One step -/

variable {net : NetOrder} {any : AnyAddr}

/-- An operation leaves the record of any other handle as it is, and what is open on
its descriptor. -/
theorem step_separate {a : Action} (hs : Owned s) (hstep : step net any s a = some u)
    {other : Handle} {record : OfcSocketImpl} (hrecord : s.sockets other = some record)
    (hother : a.handle? ≠ some other) :
    u.sockets other = some record ∧ u.kernel.slot record.socket = s.kernel.slot record.socket := by
  have hadopt : ∀ {fresh : Handle} {sock : OfcSocketImpl} (endpoint : Endpoint),
      s.sockets fresh = none → 0 ≤ sock.socket → s.kernel.serial? sock.socket = none →
        (s.adopt fresh sock endpoint).sockets other = some record ∧
          (s.adopt fresh sock endpoint).kernel.slot record.socket =
            s.kernel.slot record.socket := by
    intro fresh sock endpoint hfresh hnonneg hfree
    constructor
    · rw [State.sockets_adopt, if_neg]
      · exact hrecord
      · rintro rfl
        rw [hfresh] at hrecord
        cases hrecord
    · exact Table.install_slot_of_ne (hs.ne_of_free hrecord hnonneg hfree) endpoint
  have hstore : ∀ {h : Handle} (sock : Option OfcSocketImpl), other ≠ h →
      (s.store h sock).sockets other = some record := by
    intro h sock hne
    rw [State.sockets_store, if_neg hne]
    exact hrecord
  have hne : ∀ {h : Handle}, a.handle? = some h → other ≠ h := by
    rintro h hhandle rfl
    exact hother hhandle
  cases step_stepped hstep with
  | created hcreate hfresh hnonneg hfree => exact hadopt _ hfresh hnonneg hfree
  | accepted hlive hfresh hnonneg hfree => exact hadopt _ hfresh hnonneg hfree
  | closed hsock | destroyed hsock hopen =>
      exact ⟨hstore _ (hne rfl), hs.closeFd_slot hsock hrecord (hne rfl)⟩
  | dropped hsock hclosed => exact ⟨hstore _ (hne rfl), rfl⟩
  | enabled | reported => exact ⟨hstore _ (hne rfl), rfl⟩
  | modeSet hsock hfile => exact ⟨hrecord, hs.setFlags_slot hsock hrecord (hne rfl) hfile _⟩
  | otherOpened hnonneg hfree =>
      exact ⟨hrecord, Table.install_slot_of_ne (hs.ne_of_free hrecord hnonneg hfree) _⟩
  | otherClosed hopen hforeign =>
      refine ⟨hrecord, Table.close_slot_of_ne ?_⟩
      rintro rfl
      obtain ⟨serial, hserial, hobtained⟩ :=
        hs.held other _ (fd_of_sockets hrecord) (hs.sound.nonneg _ _ hopen)
      obtain rfl := Option.some.inj (hopen.symm.trans hserial)
      rw [hforeign] at hobtained
      cases hobtained
  | notCreated | notAccepted | notClosed | notDestroyed | getEvent | test | data | modeKept
  | notOtherClosed => exact ⟨hrecord, rfl⟩

end OfcDarwin.Socket
