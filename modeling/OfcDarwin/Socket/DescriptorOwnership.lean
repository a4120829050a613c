import OfcDarwin.Socket.Table

/-!
# Who owns a descriptor

A descriptor that `ofc_socket_impl_create` or `ofc_socket_impl_accept` has put in a
record belongs to that record alone: the numbers in different records are
different and open, although the kernel gives out a number again once it is closed.
Closing and destroying both close the number in the record and then take it out of
the record, so that neither can come to it twice.

`Moved` says what a step does to descriptors.  `Owned` is the invariant, with the
balance that every open which ever went into a record is still in one or has been
closed once.  `closeCalls` reads off the system calls of an operation how often it
closes an open, and `step_closes` finds as many closes in the kernel.
-/

namespace OfcDarwin.Socket

open Descriptors Transition

/-! ## The descriptor of a record -/

namespace State

variable (s : State) (hSocket other : Handle)

@[simp] theorem fd_store (sock : Option OfcSocketImpl) :
    (s.store hSocket sock).fd? other =
      if other = hSocket then sock.map OfcSocketImpl.socket else s.fd? other := by
  rw [fd?, sockets_store]
  split <;> rfl

@[simp] theorem fd_adopt (sock : OfcSocketImpl) (endpoint : Endpoint) :
    (s.adopt hSocket sock endpoint).fd? other =
      if other = hSocket then some sock.socket else s.fd? other := by
  rw [fd?, sockets_adopt]
  split <;> rfl

@[simp] theorem fd_closeFd (fd : ℤ) : (s.closeFd fd).fd? other = s.fd? other := rfl

end State

theorem fd_of_sockets {s : State} {hSocket : Handle} {sock : OfcSocketImpl}
    (hsock : s.sockets hSocket = some sock) : s.fd? hSocket = some sock.socket := by
  rw [State.fd?, hsock, Option.map_some]

/-! ## What a step does to descriptors -/

/-- The effect of a step on the records and the kernel, as far as descriptors go. -/
inductive Moved (s : State) : State → Prop where
  /-- The descriptors of the records and the open numbers stay. -/
  | keep {u : State} (hfd : u.fd? = s.fd?) (hserial : u.kernel.serial? = s.kernel.serial?)
      (hnext : u.kernel.next = s.kernel.next) (hcloses : u.kernel.closes = s.kernel.closes)
      (hobtained : u.obtained = s.obtained) : Moved s u
  /-- A new record takes a number that was not open. -/
  | adopt {fresh : Handle} {sock : OfcSocketImpl} (endpoint : Endpoint)
      (hfresh : s.sockets fresh = none) (hnonneg : 0 ≤ sock.socket)
      (hfree : s.kernel.serial? sock.socket = none) : Moved s (s.adopt fresh sock endpoint)
  /-- The number of a record is closed and leaves the record. -/
  | release {hSocket : Handle} {sock : OfcSocketImpl} {after : Option OfcSocketImpl}
      (hsock : s.sockets hSocket = some sock) (hafter : ∀ record ∈ after, record.socket = -1) :
      Moved s ((s.closeFd sock.socket).store hSocket after)
  /-- A record without a number goes. -/
  | drop {hSocket : Handle} {sock : OfcSocketImpl} (hsock : s.sockets hSocket = some sock)
      (hclosed : sock.socket < 0) : Moved s (s.store hSocket none)
  | otherOpen {fd : ℤ} (endpoint : Endpoint) (hnonneg : 0 ≤ fd)
      (hfree : s.kernel.serial? fd = none) :
      Moved s { s with kernel := s.kernel.install fd endpoint }
  | otherClose {fd : ℤ} {serial : ℕ} (hopen : s.kernel.serial? fd = some serial)
      (hother : s.obtained serial = false) : Moved s (s.closeFd fd)

theorem Moved.refl (s : State) : Moved s s := .keep rfl rfl rfl rfl rfl

/-- A record replaced by one with the same descriptor. -/
theorem Moved.of_store {s : State} {hSocket : Handle} {sock : Option OfcSocketImpl}
    (hsame : sock.map OfcSocketImpl.socket = s.fd? hSocket) : Moved s (s.store hSocket sock) := by
  refine .keep ?_ rfl rfl rfl rfl
  funext other
  rw [State.fd_store, hsame]
  split
  · rename_i heq
    rw [heq]
  · rfl

variable {net : NetOrder} {any : AnyAddr}

theorem step_moved {s u : State} {a : Action} (hstep : step net any s a = some u) : Moved s u := by
  cases step_stepped hstep with
  | created hcreate hfresh hnonneg hfree => exact .adopt _ hfresh hnonneg hfree
  | accepted hlive hfresh hnonneg hfree => exact .adopt _ hfresh hnonneg hfree
  | closed hsock =>
      refine .release hsock ?_
      rintro record hrecord
      obtain rfl := Option.some.inj hrecord
      rfl
  | destroyed hsock hopen => exact .release hsock nofun
  | dropped hsock hclosed => exact .drop hsock hclosed
  | enabled | reported =>
      refine .of_store ?_
      rw [Option.map_map]
      rfl
  | modeSet hsock hfile =>
      refine .keep rfl ?_ rfl rfl rfl
      funext fd
      rw [State.setFlags, Table.serial_modify]
  | otherOpened hnonneg hfree => exact .otherOpen _ hnonneg hfree
  | otherClosed hopen hother => exact .otherClose hopen hother
  | notCreated | notAccepted | notClosed | notDestroyed | getEvent | test | data | modeKept
  | notOtherClosed => exact .refl s

/-! ## Ownership -/

/-- Every number in a record is open, in no other record, and accounted for. -/
structure Owned (s : State) : Prop where
  sound : Sound s.kernel
  held : ∀ h fd, s.fd? h = some fd → 0 ≤ fd →
    ∃ serial, s.kernel.serial? fd = some serial ∧ s.obtained serial = true
  distinct : ∀ h h' fd, s.fd? h = some fd → s.fd? h' = some fd → 0 ≤ fd → h = h'
  accounted : ∀ serial, s.obtained serial = true → s.kernel.closes serial = 1 ∨
    ∃ h fd, s.fd? h = some fd ∧ s.kernel.serial? fd = some serial
  issued : ∀ serial, s.obtained serial = true → serial < s.kernel.next

theorem initial_owned : Owned initial :=
  ⟨empty_sound, nofun, nofun, nofun, nofun⟩

section Preservation

variable {s u : State}

theorem Owned.keep (hs : Owned s) (hfd : u.fd? = s.fd?)
    (hserial : u.kernel.serial? = s.kernel.serial?) (hnext : u.kernel.next = s.kernel.next)
    (hcloses : u.kernel.closes = s.kernel.closes) (hobtained : u.obtained = s.obtained) :
    Owned u := by
  obtain ⟨⟨h1, h2, h3, h4, h5⟩, h6, h7, h8, h9⟩ := hs
  rw [← hserial] at h1 h2 h3 h4 h6 h8
  rw [← hnext] at h2 h5 h9
  rw [← hcloses] at h4 h5 h8
  rw [← hobtained] at h6 h8 h9
  rw [← hfd] at h6 h7 h8
  exact ⟨⟨h1, h2, h3, h4, h5⟩, h6, h7, h8, h9⟩

theorem Owned.adopt (hs : Owned s) {fresh : Handle} {sock : OfcSocketImpl} (endpoint : Endpoint)
    (hfresh : s.sockets fresh = none) (hnonneg : 0 ≤ sock.socket)
    (hfree : s.kernel.serial? sock.socket = none) : Owned (s.adopt fresh sock endpoint) := by
  have hfreshFd : s.fd? fresh = none := by rw [State.fd?, hfresh, Option.map_none]
  -- the new number is in no other record, since these are open
  have hunused : ∀ h, s.fd? h ≠ some sock.socket := by
    intro h hh
    obtain ⟨serial, hserial, -⟩ := hs.held h _ hh hnonneg
    rw [hfree] at hserial
    cases hserial
  have hold : ∀ {serial : ℕ}, serial ≠ s.kernel.next →
      (s.adopt fresh sock endpoint).obtained serial = true → s.obtained serial = true := by
    intro serial hnew hobtained
    exact (Function.update_of_ne hnew ..).symm.trans hobtained
  refine ⟨hs.sound.install hnonneg endpoint, ?_, ?_, ?_, ?_⟩
  · intro h fd hfd hlow
    rw [State.fd_adopt] at hfd
    show ∃ serial, (s.kernel.install sock.socket endpoint).serial? fd = some serial ∧
      Function.update s.obtained s.kernel.next true serial = true
    rw [Table.serial_install]
    split at hfd
    · obtain rfl := Option.some.inj hfd
      exact ⟨s.kernel.next, if_pos rfl, Function.update_self ..⟩
    · obtain ⟨serial, hserial, hobtained⟩ := hs.held h fd hfd hlow
      refine ⟨serial, ?_, ?_⟩
      · rwa [if_neg (by rintro rfl; exact hunused h hfd)]
      · rwa [Function.update_of_ne (by have := hs.issued serial hobtained; omega)]
  · intro h h' fd hfd hfd' hlow
    rw [State.fd_adopt] at hfd hfd'
    split at hfd <;> split at hfd'
    · rename_i h1 h2
      rw [h1, h2]
    · obtain rfl := Option.some.inj hfd
      exact absurd hfd' (hunused h')
    · obtain rfl := Option.some.inj hfd'
      exact absurd hfd (hunused h)
    · exact hs.distinct h h' fd hfd hfd' hlow
  · intro serial hobtained
    show s.kernel.closes serial = 1 ∨ ∃ h fd, (s.adopt fresh sock endpoint).fd? h = some fd ∧
      (s.kernel.install sock.socket endpoint).serial? fd = some serial
    by_cases hnew : serial = s.kernel.next
    · subst hnew
      refine Or.inr ⟨fresh, sock.socket, ?_, ?_⟩
      · rw [State.fd_adopt, if_pos rfl]
      · rw [Table.serial_install, if_pos rfl]
    · apply (hs.accounted serial (hold hnew hobtained)).imp_right
      rintro ⟨h, fd, hfd, hserial⟩
      refine ⟨h, fd, ?_, ?_⟩
      · rw [State.fd_adopt, if_neg]
        · exact hfd
        · rintro rfl
          rw [hfreshFd] at hfd
          cases hfd
      · rw [Table.serial_install, if_neg]
        · exact hserial
        · rintro rfl
          exact hunused h hfd
  · intro serial hobtained
    show serial < s.kernel.next + 1
    by_cases hnew : serial = s.kernel.next
    · omega
    · have hissued := hs.issued serial (hold hnew hobtained)
      omega

theorem Owned.release (hs : Owned s) {hSocket : Handle} {sock : OfcSocketImpl}
    {after : Option OfcSocketImpl} (hsock : s.sockets hSocket = some sock)
    (hafter : ∀ record ∈ after, record.socket = -1) :
    Owned ((s.closeFd sock.socket).store hSocket after) := by
  have hown := fd_of_sockets hsock
  -- a number in a record afterwards is in another record, and another number
  have hother : ∀ {h : Handle} {fd : ℤ},
      ((s.closeFd sock.socket).store hSocket after).fd? h = some fd → 0 ≤ fd →
        h ≠ hSocket ∧ s.fd? h = some fd ∧ fd ≠ sock.socket := by
    intro h fd hfd hlow
    rw [State.fd_store, State.fd_closeFd] at hfd
    split at hfd
    · obtain ⟨record, hrecord, rfl⟩ := Option.map_eq_some_iff.mp hfd
      rw [hafter record hrecord] at hlow
      exact absurd hlow (by decide)
    · rename_i hne
      refine ⟨hne, hfd, ?_⟩
      rintro rfl
      exact hne (hs.distinct h hSocket _ hfd hown hlow)
  refine ⟨hs.sound.close _, ?_, ?_, ?_, ?_⟩
  · intro h fd hfd hlow
    obtain ⟨-, hold, hne⟩ := hother hfd hlow
    show ∃ serial, (s.kernel.close sock.socket).serial? fd = some serial ∧ _
    rw [Table.serial_close, if_neg hne]
    exact hs.held h fd hold hlow
  · intro h h' fd hfd hfd' hlow
    exact hs.distinct h h' fd (hother hfd hlow).2.1 (hother hfd' hlow).2.1 hlow
  · intro serial hobtained
    show (s.kernel.close sock.socket).closes serial = 1 ∨ ∃ h fd, _ ∧
      (s.kernel.close sock.socket).serial? fd = some serial
    rw [Table.close_closes]
    rcases hs.accounted serial hobtained with honce | ⟨h, fd, hfd, hserial⟩
    · apply Or.inl
      rw [if_neg]
      · exact honce
      · intro hopen
        have hzero := hs.sound.not_closed _ serial hopen
        omega
    · by_cases hsame : fd = sock.socket
      · apply Or.inl
        rw [if_pos (hsame ▸ hserial), hs.sound.not_closed fd serial hserial]
      · refine Or.inr ⟨h, fd, ?_, ?_⟩
        · rw [State.fd_store, State.fd_closeFd, if_neg]
          · exact hfd
          · rintro rfl
            exact hsame (Option.some.inj (hfd.symm.trans hown))
        · rw [Table.serial_close, if_neg hsame]
          exact hserial
  · intro serial hobtained
    show serial < (s.kernel.close sock.socket).next
    rw [Table.close_next]
    exact hs.issued serial hobtained

theorem Owned.drop (hs : Owned s) {hSocket : Handle} {sock : OfcSocketImpl}
    (hsock : s.sockets hSocket = some sock) (hclosed : sock.socket < 0) :
    Owned (s.store hSocket none) := by
  have hother : ∀ {h : Handle} {fd : ℤ}, (s.store hSocket none).fd? h = some fd →
      s.fd? h = some fd := by
    intro h fd hfd
    rw [State.fd_store] at hfd
    split at hfd
    · cases hfd
    · exact hfd
  refine ⟨hs.sound, ?_, ?_, ?_, hs.issued⟩
  · intro h fd hfd hlow
    exact hs.held h fd (hother hfd) hlow
  · intro h h' fd hfd hfd' hlow
    exact hs.distinct h h' fd (hother hfd) (hother hfd') hlow
  · intro serial hobtained
    apply (hs.accounted serial hobtained).imp_right
    rintro ⟨h, fd, hfd, hserial⟩
    refine ⟨h, fd, ?_, hserial⟩
    rw [State.fd_store, if_neg]
    · exact hfd
    · -- the record that goes had no number
      rintro rfl
      obtain rfl := Option.some.inj ((fd_of_sockets hsock).symm.trans hfd)
      exact absurd (hs.sound.nonneg _ serial hserial) (by omega)

theorem Owned.otherOpen (hs : Owned s) {fd : ℤ} (endpoint : Endpoint) (hnonneg : 0 ≤ fd)
    (hfree : s.kernel.serial? fd = none) :
    Owned { s with kernel := s.kernel.install fd endpoint } := by
  have hserial : ∀ {other : ℤ} {serial : ℕ}, s.kernel.serial? other = some serial →
      (s.kernel.install fd endpoint).serial? other = some serial := by
    intro other serial hopen
    rw [Table.serial_install, if_neg]
    · exact hopen
    · rintro rfl
      rw [hfree] at hopen
      cases hopen
  refine ⟨hs.sound.install hnonneg endpoint, ?_, hs.distinct, ?_, ?_⟩
  · intro h other hfd hlow
    obtain ⟨serial, hopen, hobtained⟩ := hs.held h other hfd hlow
    exact ⟨serial, hserial hopen, hobtained⟩
  · intro serial hobtained
    apply (hs.accounted serial hobtained).imp_right
    rintro ⟨h, other, hfd, hopen⟩
    exact ⟨h, other, hfd, hserial hopen⟩
  · intro serial hobtained
    show serial < s.kernel.next + 1
    have hissued := hs.issued serial hobtained
    omega

theorem Owned.otherClose (hs : Owned s) {fd : ℤ} {serial : ℕ}
    (hopen : s.kernel.serial? fd = some serial) (hother : s.obtained serial = false) :
    Owned (s.closeFd fd) := by
  -- what is closed was never put in a record
  have hne : ∀ {other : ℤ} {owned : ℕ}, s.kernel.serial? other = some owned →
      s.obtained owned = true → other ≠ fd := by
    rintro other owned hother' hobtained rfl
    rw [hopen, Option.some.injEq] at hother'
    rw [hother', hobtained] at hother
    cases hother
  refine ⟨hs.sound.close fd, ?_, hs.distinct, ?_, ?_⟩
  · intro h other hfd hlow
    obtain ⟨owned, howned, hobtained⟩ := hs.held h other hfd hlow
    refine ⟨owned, ?_, hobtained⟩
    show (s.kernel.close fd).serial? other = some owned
    rw [Table.serial_close, if_neg (hne howned hobtained)]
    exact howned
  · intro owned hobtained
    show (s.kernel.close fd).closes owned = 1 ∨ ∃ h other, s.fd? h = some other ∧
      (s.kernel.close fd).serial? other = some owned
    rw [Table.close_closes, if_neg]
    · apply (hs.accounted owned hobtained).imp_right
      rintro ⟨h, other, hfd, howned⟩
      refine ⟨h, other, hfd, ?_⟩
      rw [Table.serial_close, if_neg (hne howned hobtained)]
      exact howned
    · exact fun hsame => hne hsame hobtained rfl
  · intro owned hobtained
    show owned < (s.kernel.close fd).next
    rw [Table.close_next]
    exact hs.issued owned hobtained

theorem Moved.owned (hmoved : Moved s u) (hs : Owned s) : Owned u := by
  cases hmoved with
  | keep hfd hserial hnext hcloses hobtained => exact hs.keep hfd hserial hnext hcloses hobtained
  | adopt endpoint hfresh hnonneg hfree => exact hs.adopt endpoint hfresh hnonneg hfree
  | release hsock hafter => exact hs.release hsock hafter
  | drop hsock hclosed => exact hs.drop hsock hclosed
  | otherOpen endpoint hnonneg hfree => exact hs.otherOpen endpoint hnonneg hfree
  | otherClose hopen hother => exact hs.otherClose hopen hother

end Preservation

theorem run_owned {actions : List Action} {s : State}
    (hrun : run (step net any) initial actions = some s) : Owned s :=
  run_induction (fun _ _ _ hs hstep => (step_moved hstep).owned hs) initial_owned hrun

/-! ## System calls -/

/-- A call of an operation is on the number in the record of its handle, or on the
number that `socket` has just returned. -/
theorem syscalls_fd {s : State} {a : Action} {call : Syscall} (hcall : call ∈ syscalls s a) :
    (∃ fresh memory family socktype fd, a = .create fresh memory family socktype fd ∧
        0 ≤ fd ∧ call.fd = fd) ∨
      ∃ h, a.handle? = some h ∧ s.fd? h = some call.fd := by
  have hrecord : call ∈ ownSyscalls s a → ∃ h, a.handle? = some h ∧ s.fd? h = some call.fd := by
    intro hmem
    unfold ownSyscalls at hmem
    cases hbind : a.handle?.bind s.sockets with
    | none => simp [hbind] at hmem
    | some sock =>
        rw [hbind] at hmem
        obtain ⟨kind, -, rfl⟩ := List.mem_map.mp hmem
        obtain ⟨h, hhandle, hsock⟩ := Option.bind_eq_some_iff.mp hbind
        exact ⟨h, hhandle, fd_of_sockets hsock⟩
  cases a with
  | create fresh memory family socktype fd =>
      rw [syscalls] at hcall
      split at hcall
      · rename_i hcreated
        obtain ⟨kind, -, rfl⟩ := List.mem_map.mp hcall
        exact Or.inl ⟨fresh, memory, family, socktype, fd, rfl, hcreated.2, rfl⟩
      · cases hcall
  | _ => exact Or.inr (hrecord hcall)

/-- The number that `socket` returns is not open. -/
theorem create_returned {s u : State} {fresh : Handle} {memory : Option OfcSocketImpl}
    {family : FamilyType} {socktype : SocketType} {fd : ℤ}
    (hstep : step net any s (.create fresh memory family socktype fd) = some u) :
    s.Returned fd := by
  rw [step] at hstep
  split at hstep
  · rename_i henabled
    exact henabled.2
  · cases hstep

/-- No operation calls the kernel on a number in the record of another handle. -/
theorem Owned.syscalls_own {s u : State} (hs : Owned s) {a : Action}
    (hstep : step net any s a = some u) {call : Syscall} (hcall : call ∈ syscalls s a)
    {other : Handle} (hother : a.handle? ≠ some other) {fd : ℤ} (hfd : s.fd? other = some fd)
    (hnonneg : 0 ≤ fd) : call.fd ≠ fd := by
  rintro rfl
  rcases syscalls_fd hcall with ⟨fresh, memory, family, socktype, fd, rfl, -, heq⟩ |
    ⟨h, hhandle, hown⟩
  · -- the numbers in records are open
    obtain ⟨serial, hopen, -⟩ := hs.held other _ hfd hnonneg
    rcases create_returned hstep with hfailed | ⟨-, hfree⟩
    · omega
    · rw [heq, hfree] at hopen
      cases hopen
  · exact hother (by rw [hhandle, hs.distinct h other _ hown hfd hnonneg])

/-- The closes that an operation asks the kernel for on the open `serial`. -/
def closeCalls (s : State) (a : Action) (serial : ℕ) : ℕ :=
  (syscalls s a).countP fun call =>
    decide (call.kind = .close ∧ s.kernel.serial? call.fd = some serial)

theorem closeCalls_eq_zero {s : State} {a : Action} (hkind : ∀ call ∈ syscalls s a,
    call.kind ≠ .close) (serial : ℕ) : closeCalls s a serial = 0 := by
  apply List.countP_eq_zero.mpr
  intro call hcall hclose
  exact hkind call hcall (of_decide_eq_true hclose).1

/-- Only closing and destroying call `close`. -/
theorem syscalls_kind {s : State} {a : Action} {call : Syscall} (hcall : call ∈ syscalls s a)
    (hclose : call.kind = .close) : ∃ h, a = .close h ∨ a = .destroy h := by
  have hrecord : ∀ {b : Action}, call ∈ ownSyscalls s b →
      ∃ sock, SyscallKind.close ∈ recordCalls s sock b := by
    intro b hmem
    unfold ownSyscalls at hmem
    split at hmem
    · cases hmem
    · rename_i sock hsock
      obtain ⟨kind, hkind, rfl⟩ := List.mem_map.mp hmem
      exact ⟨sock, hclose ▸ hkind⟩
  cases a with
  | create fresh memory family socktype fd =>
      rw [syscalls] at hcall
      split at hcall
      · obtain ⟨kind, hkind, rfl⟩ := List.mem_map.mp hcall
        obtain rfl : kind = .close := hclose
        split at hkind
        · exact absurd hkind (by decide)
        · exact absurd hkind (by decide)
      · cases hcall
  | accept hSocket fresh memory fd peer mysockaddr ip port =>
      obtain ⟨sock, hkind⟩ := hrecord hcall
      rw [recordCalls] at hkind
      split at hkind <;> simp at hkind
  | close h => exact ⟨h, Or.inl rfl⟩
  | destroy h => exact ⟨h, Or.inr rfl⟩
  | noBlock hSocket onoff =>
      obtain ⟨sock, hkind⟩ := hrecord hcall
      rw [recordCalls] at hkind
      split at hkind <;> simp at hkind
  | data hSocket op =>
      obtain ⟨sock, hkind⟩ := hrecord hcall
      rw [recordCalls] at hkind
      cases op with
      | getAddresses getsockname =>
          cases getsockname
          · exact absurd hkind (by decide)
          · exact absurd hkind (by decide)
      | _ => exact absurd hkind (by decide)
  | enable | setEvent | getEvent | test =>
      obtain ⟨sock, hkind⟩ := hrecord hcall
      cases hkind
  | otherOpen | otherClose => cases hcall

/-- The one call of a close, or of a destroy of an open socket. -/
theorem closeCalls_of_record {s : State} {a : Action} {hSocket : Handle} {sock : OfcSocketImpl}
    (hhandle : a.handle? = some hSocket) (hsyscalls : syscalls s a = ownSyscalls s a)
    (hsock : s.sockets hSocket = some sock) (hcalls : recordCalls s sock a = [.close])
    (serial : ℕ) : (s.closeFd sock.socket).kernel.closes serial =
      s.kernel.closes serial + closeCalls s a serial := by
  have hown : syscalls s a = [{ kind := .close, fd := sock.socket }] := by
    rw [hsyscalls, ownSyscalls, hhandle, Option.bind_some, hsock]
    show (recordCalls s sock a).map _ = _
    rw [hcalls, List.map_singleton]
  rw [closeCalls, hown, List.countP_singleton]
  show (s.kernel.close sock.socket).closes serial = _
  rw [Table.close_closes]
  by_cases hserial : s.kernel.serial? sock.socket = some serial
  · simp [hserial]
  · simp [hserial]

/-- The kernel closes what the operations ask it to close, and nothing else. -/
theorem step_closes {s u : State} {a : Action} (hstep : step net any s a = some u)
    (hhandle : a.handle?.isSome) (serial : ℕ) :
    u.kernel.closes serial = s.kernel.closes serial + closeCalls s a serial := by
  have hnone : (∀ h, a ≠ .close h) → (∀ h, a ≠ .destroy h) → closeCalls s a serial = 0 := by
    intro hclose hdestroy
    apply closeCalls_eq_zero
    intro call hcall hkind
    obtain ⟨h, rfl | rfl⟩ := syscalls_kind hcall hkind
    · exact hclose h rfl
    · exact hdestroy h rfl
  cases step_stepped hstep with
  | closed hsock => exact closeCalls_of_record rfl rfl hsock rfl serial
  | destroyed hsock hopen =>
      apply closeCalls_of_record rfl rfl hsock
      exact if_pos hopen
  | dropped hsock hclosed =>
      rw [closeCalls, syscalls, ownSyscalls, Action.handle?, Option.bind_some, hsock]
      show _ = _ + (List.map _ (if _ then _ else _)).countP _
      rw [if_neg (not_le.mpr hclosed)]
      rfl
      all_goals nofun
  | notClosed hsock | notDestroyed hsock =>
      simp [closeCalls, syscalls, ownSyscalls, Action.handle?, hsock]
  | otherOpened | notOtherClosed | otherClosed => cases hhandle
  | notCreated | created | notAccepted | accepted | enabled | reported | getEvent | test | data
  | modeKept | modeSet =>
      rw [hnone nofun nofun]
      rfl

/-! ## Ownership in every run -/

/-- What descriptor ownership means for a state. -/
structure DescriptorsOwned (net : NetOrder) (any : AnyAddr) (s : State) : Prop where
  /-- A number in a record is open. -/
  live : ∀ h fd, s.fd? h = some fd → 0 ≤ fd → (s.kernel.slot fd).isSome
  /-- It is in no other record. -/
  distinct : ∀ h h' fd, s.fd? h = some fd → s.fd? h' = some fd → 0 ≤ fd → h = h'
  /-- No operation on another handle comes to it. -/
  separate : ∀ (a : Action) (u : State), step net any s a = some u → ∀ call ∈ syscalls s a,
    ∀ other, a.handle? ≠ some other → ∀ fd, s.fd? other = some fd → 0 ≤ fd → call.fd ≠ fd
  /-- An operation closes an open as often as it calls `close` on its number. -/
  counted : ∀ (a : Action) (u : State), step net any s a = some u → a.handle?.isSome →
    ∀ serial, u.kernel.closes serial = s.kernel.closes serial + closeCalls s a serial
  /-- Once every handle is destroyed, each open that went into a record has been
  closed exactly once. -/
  settled : (∀ h, s.sockets h = none) →
    ∀ serial, s.obtained serial = true → s.kernel.closes serial = 1

theorem descriptors_owned (net : NetOrder) (any : AnyAddr) (actions : List Action) (s : State)
    (hrun : run (step net any) initial actions = some s) : DescriptorsOwned net any s := by
  have hs := run_owned hrun
  refine ⟨?_, hs.distinct, ?_, ?_, ?_⟩
  · intro h fd hfd hnonneg
    obtain ⟨serial, hopen, -⟩ := hs.held h fd hfd hnonneg
    obtain ⟨file, hfile, -⟩ := Option.map_eq_some_iff.mp hopen
    rw [hfile]
    rfl
  · intro a u hstep call hcall other hother fd hfd hnonneg
    exact hs.syscalls_own hstep hcall hother hfd hnonneg
  · intro a u hstep hhandle serial
    exact step_closes hstep hhandle serial
  · intro hdestroyed serial hobtained
    rcases hs.accounted serial hobtained with honce | ⟨h, fd, hfd, -⟩
    · exact honce
    · rw [State.fd?, hdestroyed h, Option.map_none] at hfd
      cases hfd

/-- What `ofc_malloc` may return for a record. -/
def exampleMemory : OfcSocketImpl :=
  { socket := 77
    family := .ipv6
    events := 0x5A5A
    revents := 0xA5A5
    ip := { ipVersion := .ip, ipv4 := 0, ipv6 := { s6Addr := Vector.replicate 16 0, scope := 0 } } }

def exampleAny : AnyAddr :=
  { inaddrAny := 0, in6addrAny := { s6Addr := Vector.replicate 16 0, scope := 0 } }

/-- Descriptor 3 is closed through handle 1, comes back for the accepted socket 2,
and handle 1 is then closed again.  All three handles are destroyed at the end. -/
def reuseActions : List Action :=
  [.create 1 (some exampleMemory) .ip .stream 3, .create 5 (some exampleMemory) .ip .stream 4,
    .close 1, .accept 5 2 exampleMemory 3 { family := .ip, flags := 0x0002 }
      (.inet { sinPort := (0, 80), sinAddr := (10, 0, 0, 1) }) (some exampleMemory.ip) (some 0),
    .close 1, .data 2 .send, .destroy 1, .destroy 5, .destroy 2]

def reuseEnd : State :=
  (run (step NetOrder.bigEndian exampleAny) initial reuseActions).getD initial

/-- The opens 0 and 2 were both on descriptor 3, the open 1 on descriptor 4, and each
of them has been closed once. -/
theorem descriptors_owned_reuse :
    run (step NetOrder.bigEndian exampleAny) initial reuseActions = some reuseEnd ∧
      DescriptorsOwned NetOrder.bigEndian exampleAny reuseEnd ∧ reuseEnd.kernel.next = 3 ∧
      ∀ serial < 3, reuseEnd.obtained serial = true ∧ reuseEnd.kernel.closes serial = 1 := by
  have howned := descriptors_owned NetOrder.bigEndian exampleAny reuseActions reuseEnd rfl
  have hdestroyed : ∀ h, reuseEnd.sockets h = none := by
    obtain ⟨_, _, _, _, _, hsockets⟩ : ∃ a b c d e, reuseEnd.sockets =
        Function.update (Function.update (Function.update (Function.update (Function.update
          (Function.update (Function.update (Function.update initial.sockets 1 a) 5 b) 1 c)
            2 d) 1 e) 1 none) 5 none) 2 none := ⟨_, _, _, _, _, rfl⟩
    intro h
    simp only [hsockets, Function.update_apply]
    split_ifs <;> rfl
  have hobtained : ∀ serial < 3, reuseEnd.obtained serial = true := by decide
  refine ⟨rfl, howned, rfl, ?_⟩
  intro serial hserial
  exact ⟨hobtained serial hserial, howned.settled hdestroyed serial (hobtained serial hserial)⟩

end OfcDarwin.Socket
