import OfcDarwin.Socket.Separation

/-!
# A table of sockets

What a socket is to its user: a family, the poll mask last asked for, the bits last
reported, and a blocking mode.  `Entries` has one for each live handle, and `spec`
says what each operation does to it; descriptors and memory do not occur.

The module refines this table where two things are given.  A record that comes from
`ofc_socket_impl_accept` is used as `ofc_malloc` returned it, so its memory has to
hold the family and no mask, and its descriptor has to be blocking; and
`ofc_socket_impl_no_block` sets `O_NONBLOCK` whatever its argument, which has to be
`OFC_TRUE`.  `showsTable_iff` says that nothing else is needed.
-/

namespace OfcDarwin.Socket

open Descriptors Transition

/-! ## The table -/

/-- A socket as its user sees it. -/
structure Entry where
  family : FamilyType
  events : UInt16
  revents : UInt16
  nonBlocking : Bool
deriving DecidableEq

/-- The live sockets. -/
abbrev Entries := Handle → Option Entry

/-- A new socket: nothing is asked for, nothing reported, and it blocks. -/
def Entry.new (family : FamilyType) : Entry :=
  { family := family, events := 0, revents := 0, nonBlocking := false }

namespace Entries

/-- An entry is changed. -/
def modify (t : Entries) (hSocket : Handle) (f : Entry → Entry) : Entries :=
  Function.update t hSocket ((t hSocket).map f)

theorem modify_apply (t : Entries) (hSocket other : Handle) (f : Entry → Entry) :
    t.modify hSocket f other = if other = hSocket then (t hSocket).map f else t other :=
  Function.update_apply ..

/-- What an operation does to the table. -/
def spec (t : Entries) : Action → Entries
  | .create fresh memory family _ fd =>
      if memory.isSome ∧ 0 ≤ fd then Function.update t fresh (some (.new family)) else t
  | .accept hSocket fresh _ fd peer .. =>
      if (t hSocket).isSome ∧ 0 ≤ fd then Function.update t fresh (some (.new peer.family)) else t
  | .destroy hSocket => Function.update t hSocket none
  | .enable hSocket type => t.modify hSocket fun entry => { entry with events := enableMask type }
  | .setEvent hSocket revents => t.modify hSocket fun entry => { entry with revents := revents }
  | .noBlock hSocket onoff => t.modify hSocket fun entry => { entry with nonBlocking := onoff }
  | .close _ | .getEvent _ | .test _ | .data _ _ | .otherOpen _ _ | .otherClose _ => t

end Entries

/-! ## Refinement -/

/-- The fields of a record that its user sees. -/
def OfcSocketImpl.view (sock : OfcSocketImpl) : FamilyType × UInt16 × UInt16 :=
  (sock.family, sock.events, sock.revents)

def Entry.view (entry : Entry) : FamilyType × UInt16 × UInt16 :=
  (entry.family, entry.events, entry.revents)

/-- The records are those of the table, and an open descriptor has the family and
the mode of its entry. -/
structure Refines (s : State) (t : Entries) : Prop where
  records : ∀ h, (s.sockets h).map OfcSocketImpl.view = (t h).map Entry.view
  descriptors : ∀ h sock entry file, s.sockets h = some sock → t h = some entry →
    s.kernel.slot sock.socket = some file →
      file.state.family = entry.family ∧ file.state.nonBlocking = entry.nonBlocking

theorem initial_refines : Refines initial fun _ => none := ⟨fun _ => rfl, nofun⟩

section Refines

variable {s : State} {t : Entries}

theorem Refines.entry (hrefines : Refines s t) {h : Handle} {sock : OfcSocketImpl}
    (hsock : s.sockets h = some sock) : ∃ entry, t h = some entry ∧ sock.view = entry.view := by
  have hrecord := hrefines.records h
  rw [hsock, Option.map_some] at hrecord
  obtain ⟨entry, hentry, hview⟩ := Option.map_eq_some_iff.mp hrecord.symm
  exact ⟨entry, hentry, hview.symm⟩

theorem Refines.entry_none (hrefines : Refines s t) {h : Handle} :
    s.sockets h = none ↔ t h = none := by
  have hrecord := hrefines.records h
  rw [← Option.map_eq_none_iff (f := OfcSocketImpl.view), hrecord, Option.map_eq_none_iff]

/-- `ofc_socket_impl_get_event` answers the mask of the entry. -/
theorem Refines.getEvent (hrefines : Refines s t) (h : Handle) :
    ofcSocketImplGetEvent (s.sockets h) = ((t h).map Entry.events).getD 0 := by
  have hevents := congrArg (Option.map fun view => view.2.1) (hrefines.records h)
  rw [Option.map_map, Option.map_map] at hevents
  have hget : ofcSocketImplGetEvent (s.sockets h) =
      ((s.sockets h).map OfcSocketImpl.events).getD 0 := by
    cases s.sockets h <;> rfl
  rw [hget]
  exact congrArg (·.getD 0) hevents

/-- `ofc_socket_impl_test` answers the events of the bits last reported. -/
theorem Refines.test (hrefines : Refines s t) (h : Handle) :
    ofcSocketImplTest (s.sockets h) = ((t h).map fun entry => testEvents entry.revents).getD ∅ := by
  have hrevents := congrArg (Option.map fun view => testEvents view.2.2) (hrefines.records h)
  rw [Option.map_map, Option.map_map] at hrevents
  have htest : ofcSocketImplTest (s.sockets h) =
      ((s.sockets h).map fun sock => testEvents sock.revents).getD ∅ := by
    cases s.sockets h <;> rfl
  rw [htest]
  exact congrArg (·.getD ∅) hrevents

end Refines

/-! ## One step -/

/-- The condition on a step: an accepted socket gets memory that happens to be
right and a blocking descriptor, and `ofc_socket_impl_no_block` is asked for
non-blocking mode when it succeeds. -/
def Kept (s : State) : Action → Prop
  | .accept hSocket _ memory fd peer .. =>
      (s.sockets hSocket).isSome → 0 ≤ fd →
        memory.view = (Entry.new peer.family).view ∧ peer.nonBlocking = false
  | .noBlock hSocket onoff =>
      ((s.sockets hSocket).bind fun sock => s.kernel.slot sock.socket).isSome → onoff = true
  | _ => True

instance (s : State) : ∀ a : Action, Decidable (Kept s a)
  | .accept .. => inferInstanceAs (Decidable (_ → _ → _ ∧ _))
  | .noBlock .. => inferInstanceAs (Decidable (_ → _))
  | .create .. | .close _ | .destroy _ | .enable .. | .setEvent .. | .getEvent _ | .test _
  | .data .. | .otherOpen .. | .otherClose _ => isTrue trivial

section Step

variable {s u : State} {t : Entries}

/-- Replacing a record by one that looks as its entry does, on the same descriptor. -/
theorem Refines.store (hrefines : Refines s t) {h : Handle} (f : OfcSocketImpl → OfcSocketImpl)
    (g : Entry → Entry)
    (hview : ∀ sock entry, sock.view = entry.view → (f sock).view = (g entry).view)
    (hsocket : ∀ sock, (f sock).socket = sock.socket)
    (hmode : ∀ entry, (g entry).family = entry.family ∧ (g entry).nonBlocking = entry.nonBlocking) :
    Refines (s.store h ((s.sockets h).map f)) (t.modify h g) := by
  constructor
  · intro other
    rw [State.sockets_store, Entries.modify_apply]
    split
    · cases hsock : s.sockets h with
      | none =>
          rw [hrefines.entry_none.mp hsock]
          rfl
      | some sock =>
          obtain ⟨entry, hentry, heq⟩ := hrefines.entry hsock
          rw [hentry]
          exact congrArg some (hview sock entry heq)
    · exact hrefines.records other
  · intro other sock entry file hsock hentry hfile
    rw [State.sockets_store] at hsock
    rw [Entries.modify_apply] at hentry
    split at hsock
    · rename_i hsame
      rw [if_pos hsame] at hentry
      obtain ⟨old, hold, rfl⟩ := Option.map_eq_some_iff.mp hsock
      obtain ⟨was, hwas, rfl⟩ := Option.map_eq_some_iff.mp hentry
      rw [hsocket] at hfile
      rw [(hmode was).1, (hmode was).2]
      exact hrefines.descriptors h old was file hold hwas hfile
    · rename_i hne
      rw [if_neg hne] at hentry
      exact hrefines.descriptors other sock entry file hsock hentry hfile

/-- Closing a number takes it from a record, or from nobody. -/
theorem Refines.closeFd (hrefines : Refines s t) (fd : ℤ) : Refines (s.closeFd fd) t := by
  refine ⟨hrefines.records, fun h sock entry file hsock hentry hfile => ?_⟩
  by_cases hsame : sock.socket = fd
  · rw [hsame, State.closeFd, Table.close_slot_self] at hfile
    cases hfile
  · rw [State.closeFd, Table.close_slot_of_ne hsame] at hfile
    exact hrefines.descriptors h sock entry file hsock hentry hfile

/-- A record that has lost its descriptor. -/
theorem Refines.unset (hrefines : Refines s t) (hsound : Sound s.kernel) (h : Handle) :
    Refines (s.store h ((s.sockets h).map fun sock => { sock with socket := -1 })) t := by
  constructor
  · intro other
    rw [State.sockets_store]
    split
    · rename_i hsame
      rw [hsame, Option.map_map]
      exact hrefines.records h
    · exact hrefines.records other
  · intro other sock entry file hsock hentry hfile
    rw [State.sockets_store] at hsock
    split at hsock
    · obtain ⟨old, -, rfl⟩ := Option.map_eq_some_iff.mp hsock
      -- nothing is open on -1
      have hserial : s.kernel.serial? (-1) = some file.serial := by
        rw [Table.serial?]
        exact congrArg (Option.map Open.serial) hfile
      exact absurd (hsound.nonneg _ _ hserial) (by decide)
    · exact hrefines.descriptors other sock entry file hsock hentry hfile

theorem Refines.remove (hrefines : Refines s t) (h : Handle) :
    Refines (s.store h none) (Function.update t h none) := by
  constructor
  · intro other
    rw [State.sockets_store, Function.update_apply]
    split
    · rfl
    · exact hrefines.records other
  · intro other sock entry file hsock hentry hfile
    rw [State.sockets_store] at hsock
    rw [Function.update_apply] at hentry
    split at hsock
    · cases hsock
    · rename_i hne
      rw [if_neg hne] at hentry
      exact hrefines.descriptors other sock entry file hsock hentry hfile

/-- A new socket refines its entry exactly when its record looks new and its
descriptor has the family and blocks. -/
theorem Refines.adopt_iff (hrefines : Refines s t) (hs : Owned s) {fresh : Handle}
    {sock : OfcSocketImpl} {endpoint : Endpoint} (hnonneg : 0 ≤ sock.socket)
    (hfree : s.kernel.serial? sock.socket = none) (entry : Entry) :
    Refines (s.adopt fresh sock endpoint) (Function.update t fresh (some entry)) ↔
      sock.view = entry.view ∧ endpoint.family = entry.family ∧
        endpoint.nonBlocking = entry.nonBlocking := by
  constructor
  · rintro ⟨hrecords, hdescriptors⟩
    have hrecord := hrecords fresh
    rw [State.sockets_adopt, if_pos rfl, Function.update_self] at hrecord
    have hdescriptor := hdescriptors fresh sock entry
      { serial := s.kernel.next, state := endpoint }
      ((s.sockets_adopt ..).trans (if_pos rfl)) (Function.update_self ..)
      (s.kernel.install_slot_self ..)
    exact ⟨Option.some.inj hrecord, hdescriptor⟩
  · rintro ⟨hview, hmode⟩
    constructor
    · intro other
      rw [State.sockets_adopt, Function.update_apply]
      split
      · exact congrArg some hview
      · exact hrefines.records other
    · intro other sock' entry' file hsock hentry hfile
      rw [State.sockets_adopt] at hsock
      rw [Function.update_apply] at hentry
      split at hsock
      · rename_i hsame
        rw [if_pos hsame] at hentry
        obtain rfl := Option.some.inj hsock
        obtain rfl := Option.some.inj hentry
        obtain rfl := Option.some.inj ((s.kernel.install_slot_self ..).symm.trans hfile)
        exact hmode
      · rename_i hne
        rw [if_neg hne] at hentry
        rw [State.adopt, Table.install_slot_of_ne (hs.ne_of_free hsock hnonneg hfree)] at hfile
        exact hrefines.descriptors other sock' entry' file hsock hentry hfile

/-- The mode of an entry is not in the record. -/
theorem Refines.records_mode (hrefines : Refines s t) (h : Handle) (onoff : Bool)
    (other : Handle) : (s.sockets other).map OfcSocketImpl.view =
      (t.modify h (fun entry => { entry with nonBlocking := onoff }) other).map Entry.view := by
  rw [Entries.modify_apply]
  split
  · rename_i hsame
    rw [hsame, Option.map_map]
    exact hrefines.records h
  · exact hrefines.records other

/-- Setting flags on the descriptor of a record changes the mode of its entry, and
of no other, since its number is in no other record. -/
theorem Refines.setFlags_iff (hrefines : Refines s t) (hs : Owned s) {h : Handle}
    {sock : OfcSocketImpl} {file : Open Endpoint} (hsock : s.sockets h = some sock)
    (hfile : s.kernel.slot sock.socket = some file) (flags : UInt32) (onoff : Bool) :
    Refines (s.setFlags sock.socket flags)
        (t.modify h fun entry => { entry with nonBlocking := onoff }) ↔
      (flags &&& oNonblock != 0) = onoff := by
  obtain ⟨entry, hentry, -⟩ := hrefines.entry hsock
  have hself : (s.setFlags sock.socket flags).kernel.slot sock.socket =
      some { file with state := { file.state with flags := flags } } := by
    rw [State.setFlags, Table.modify_slot_self, hfile]
    rfl
  constructor
  · rintro ⟨-, hdescriptors⟩
    refine (hdescriptors h sock { entry with nonBlocking := onoff } _ hsock ?_ hself).2
    rw [Entries.modify_apply, if_pos rfl, hentry]
    rfl
  · intro hmode
    refine ⟨hrefines.records_mode h onoff, ?_⟩
    intro other record entry' file' hrecord hentry' hfile'
    rw [Entries.modify_apply] at hentry'
    split at hentry'
    · rename_i hsame
      subst hsame
      obtain rfl := Option.some.inj (hsock.symm.trans hrecord)
      rw [hentry] at hentry'
      obtain rfl := Option.some.inj hentry'
      obtain rfl := Option.some.inj (hself.symm.trans hfile')
      exact ⟨(hrefines.descriptors other sock entry file hsock hentry hfile).1, hmode⟩
    · rename_i hne
      rw [hs.setFlags_slot hsock hrecord hne hfile] at hfile'
      exact hrefines.descriptors other record entry' file' hrecord hentry' hfile'

/-- Without a descriptor there is no mode for an entry to have. -/
theorem Refines.closed (hrefines : Refines s t) {h : Handle}
    (hnone : ((s.sockets h).bind fun sock => s.kernel.slot sock.socket) = none) (onoff : Bool) :
    Refines s (t.modify h fun entry => { entry with nonBlocking := onoff }) := by
  refine ⟨hrefines.records_mode h onoff, ?_⟩
  intro other record entry file hrecord hentry hfile
  rw [Entries.modify_apply] at hentry
  split at hentry
  · rename_i hsame
    subst hsame
    rw [hrecord, Option.bind_some, hfile] at hnone
    cases hnone
  · exact hrefines.descriptors other record entry file hrecord hentry hfile

/-- An open elsewhere in the process gets a number that is in no record. -/
theorem Refines.otherOpen (hrefines : Refines s t) (hs : Owned s) {fd : ℤ} (hnonneg : 0 ≤ fd)
    (hfree : s.kernel.serial? fd = none) (endpoint : Endpoint) :
    Refines { s with kernel := s.kernel.install fd endpoint } t := by
  refine ⟨hrefines.records, fun h sock entry file hsock hentry hfile => ?_⟩
  have hslot : (s.kernel.install fd endpoint).slot sock.socket = some file := hfile
  rw [Table.install_slot_of_ne (hs.ne_of_free hsock hnonneg hfree)] at hslot
  exact hrefines.descriptors h sock entry file hsock hentry hslot

/-- `ofc_socket_impl_create` makes a record that looks new. -/
theorem create_view {any : AnyAddr} {memory : Option OfcSocketImpl} {family : FamilyType} {fd : ℤ}
    {sock : OfcSocketImpl} (hcreate : ofcSocketImplCreate any memory family fd = some sock) :
    memory.isSome ∧ sock.view = (Entry.new family).view := by
  unfold ofcSocketImplCreate at hcreate
  cases memory with
  | none => cases hcreate
  | some memory =>
      simp only at hcreate
      split at hcreate
      · cases hcreate
      · obtain rfl := Option.some.inj hcreate
        refine ⟨rfl, ?_⟩
        show (_, _, _) = (_, _, _)
        split <;> rfl

/-- It makes none only for want of memory or of a descriptor. -/
theorem create_none {any : AnyAddr} {memory : Option OfcSocketImpl} {family : FamilyType} {fd : ℤ}
    (hnone : ofcSocketImplCreate any memory family fd = none) : ¬(memory.isSome ∧ 0 ≤ fd) := by
  rintro ⟨hmemory, hnonneg⟩
  obtain ⟨memory, rfl⟩ := Option.isSome_iff_exists.mp hmemory
  simp only [ofcSocketImplCreate] at hnone
  rw [if_neg (not_lt.mpr hnonneg)] at hnone
  cases hnone

/-- `O_NONBLOCK` is in the flags that `ofc_socket_impl_no_block` sets. -/
theorem noBlock_mode (flags : UInt32) : ((flags ||| oNonblock) &&& oNonblock != 0) = true := by
  have habsorb : (flags ||| oNonblock) &&& oNonblock = oNonblock := by
    rw [← UInt32.toBitVec_inj, UInt32.toBitVec_and, UInt32.toBitVec_or]
    ext i hi
    rw [BitVec.getElem_and, BitVec.getElem_or]
    cases oNonblock.toBitVec[i] <;> simp
  rw [habsorb]
  rfl

variable {net : NetOrder} {any : AnyAddr}

/-- One step of the module is one of the table exactly when its condition is met. -/
theorem step_refines_iff {a : Action} (hs : Owned s) (hrefines : Refines s t)
    (hstep : step net any s a = some u) : Refines u (t.spec a) ↔ Kept s a := by
  have hlive : ∀ {h : Handle}, (s.sockets h).isSome → (t h).isSome := by
    intro h hsome
    obtain ⟨sock, hsock⟩ := Option.isSome_iff_exists.mp hsome
    obtain ⟨entry, hentry, -⟩ := hrefines.entry hsock
    rw [hentry]
    rfl
  cases step_stepped hstep with
  | notCreated hnone =>
      refine iff_of_true ?_ trivial
      rwa [Entries.spec, if_neg (create_none hnone)]
  | created hcreate hfresh hnonneg hfree =>
      refine iff_of_true ?_ trivial
      obtain ⟨rfl, -⟩ := create_socket hcreate
      obtain ⟨hmemory, hview⟩ := create_view hcreate
      have hblocks : (oRdwr &&& oNonblock != 0) = false := by decide
      rw [Entries.spec, if_pos ⟨hmemory, hnonneg⟩]
      exact (hrefines.adopt_iff hs hnonneg hfree _).mpr ⟨hview, rfl, hblocks⟩
  | notAccepted hfailed =>
      rcases hfailed with hnone | rfl
      · refine iff_of_true ?_ fun hsome => absurd hsome (by simp [hnone])
        rwa [Entries.spec, if_neg (by simp [hrefines.entry_none.mp hnone])]
      · refine iff_of_true ?_ fun _ hnonneg => absurd hnonneg (by decide)
        rwa [Entries.spec, if_neg (by simp)]
  | accepted hsome hfresh hnonneg hfree =>
      rw [Entries.spec, if_pos ⟨hlive hsome, hnonneg⟩, hrefines.adopt_iff hs hnonneg hfree]
      constructor
      · rintro ⟨hview, -, hmode⟩ - -
        exact ⟨hview, hmode⟩
      · intro hkept
        obtain ⟨hview, hmode⟩ := hkept hsome hnonneg
        exact ⟨hview, rfl, hmode⟩
  | @closed hSocket sock hsock =>
      refine iff_of_true ?_ trivial
      have hunset := (hrefines.closeFd sock.socket).unset (hs.sound.close _) hSocket
      rw [show (s.closeFd sock.socket).sockets hSocket = some sock from hsock] at hunset
      exact hunset
  | notDestroyed hnone =>
      refine iff_of_true ?_ trivial
      rwa [Entries.spec, ← hrefines.entry_none.mp hnone, Function.update_eq_self]
  | destroyed hsock hopen => exact iff_of_true ((hrefines.closeFd _).remove _) trivial
  | dropped hsock hclosed => exact iff_of_true (hrefines.remove _) trivial
  | enabled =>
      refine iff_of_true (hrefines.store _ _ ?_ (fun _ => rfl) (fun _ => ⟨rfl, rfl⟩)) trivial
      intro sock entry hview
      obtain ⟨hfamily, hrest⟩ := Prod.mk.inj hview
      obtain ⟨-, hrevents⟩ := Prod.mk.inj hrest
      exact Prod.ext hfamily (Prod.ext rfl hrevents)
  | reported =>
      refine iff_of_true (hrefines.store _ _ ?_ (fun _ => rfl) (fun _ => ⟨rfl, rfl⟩)) trivial
      intro sock entry hview
      obtain ⟨hfamily, hrest⟩ := Prod.mk.inj hview
      obtain ⟨hevents, -⟩ := Prod.mk.inj hrest
      exact Prod.ext hfamily (Prod.ext hevents rfl)
  | modeKept hnone =>
      refine iff_of_true (hrefines.closed hnone _) fun hopen => ?_
      rw [hnone] at hopen
      cases hopen
  | @modeSet hSocket onoff sock file hsock hfile =>
      have hopen : ((s.sockets hSocket).bind fun sock => s.kernel.slot sock.socket).isSome := by
        rw [hsock, Option.bind_some, hfile]
        rfl
      rw [Entries.spec, hrefines.setFlags_iff hs hsock hfile, noBlock_mode]
      exact ⟨fun heq _ => heq.symm, fun hkept => (hkept hopen).symm⟩
  | otherOpened hnonneg hfree => exact iff_of_true (hrefines.otherOpen hs hnonneg hfree _) trivial
  | otherClosed hopen hother => exact iff_of_true (hrefines.closeFd _) trivial
  | notClosed | getEvent | test | data | notOtherClosed => exact iff_of_true hrefines trivial

end Step

/-! ## Every run -/

/-- What the user of the module sees of a state is the table. -/
structure Shows (net : NetOrder) (any : AnyAddr) (s : State) (t : Entries) : Prop where
  refines : Refines s t
  /-- `ofc_socket_impl_get_event` answers the mask last asked for. -/
  getEvent : ∀ h, ofcSocketImplGetEvent (s.sockets h) = ((t h).map Entry.events).getD 0
  /-- `ofc_socket_impl_test` answers the events of the bits last reported. -/
  test : ∀ h, ofcSocketImplTest (s.sockets h) =
    ((t h).map fun entry => testEvents entry.revents).getD ∅
  /-- No operation comes to the socket of another handle. -/
  separate : ∀ (a : Action) (u : State), step net any s a = some u →
    ∀ other record, s.sockets other = some record → a.handle? ≠ some other →
      u.sockets other = some record ∧ u.kernel.slot record.socket = s.kernel.slot record.socket

theorem Refines.shows {net : NetOrder} {any : AnyAddr} {s : State} {t : Entries}
    (hrefines : Refines s t) (hs : Owned s) : Shows net any s t :=
  { refines := hrefines
    getEvent := hrefines.getEvent
    test := hrefines.test
    separate := fun _ _ hstep _ _ hrecord hother => step_separate hs hstep hrecord hother }

/-- The table after a list of operations. -/
def tableAfter (actions : List Action) : Entries := actions.foldl Entries.spec fun _ => none

/-- The module shows the table after every operation of a run. -/
def ShowsTable (net : NetOrder) (any : AnyAddr) (actions : List Action) : Prop :=
  ∀ before after : List Action, actions = before ++ after →
    ∀ v, run (step net any) initial before = some v → Shows net any v (tableAfter before)

theorem showsTable_iff (net : NetOrder) (any : AnyAddr) (actions : List Action) (s : State)
    (hrun : run (step net any) initial actions = some s) :
    ShowsTable net any actions ↔ Along (step net any) Kept initial actions := by
  rw [← simulates_iff_along Entries.spec
    (fun _ _ _ hs hstep => (step_moved hstep).owned hs)
    (fun _ _ _ _ hs hrefines hstep => step_refines_iff hs hrefines hstep)
    initial_owned initial_refines hrun]
  constructor
  · intro hshows before after hsplit v hv
    exact (hshows before after hsplit v hv).refines
  · intro hrefines before after hsplit v hv
    exact (hrefines before after hsplit v hv).shows (run_owned hv)

/-- A listening socket and one accepted from it, in memory that starts as `memory`. -/
def acceptActions (memory : OfcSocketImpl) : List Action :=
  [.create 5 (some exampleMemory) .ip .stream 4, .enable 5 {.accept}, .noBlock 5 true,
    .accept 5 2 memory 3 { family := .ip, flags := oRdwr }
      (.inet { sinPort := (0, 80), sinAddr := (10, 0, 0, 1) }) (some exampleMemory.ip) (some 0),
    .setEvent 5 pollIn]

theorem showsTable_cleared : ShowsTable NetOrder.bigEndian exampleAny
    (acceptActions { exampleMemory with family := .ip, events := 0, revents := 0 }) :=
  (showsTable_iff NetOrder.bigEndian exampleAny _ _ rfl).mpr (by decide)

/-- A socket that is asked to block. -/
def blockActions : List Action :=
  [.create 5 (some exampleMemory) .ip .stream 4, .noBlock 5 false]

/-- The accepted socket reports the mask that its memory held, and a socket that was
asked to block does not. -/
theorem not_showsTable :
    ¬ShowsTable NetOrder.bigEndian exampleAny (acceptActions exampleMemory) ∧
      ¬ShowsTable NetOrder.bigEndian exampleAny blockActions := by
  constructor
  · intro hshows
    have hmask := (hshows (acceptActions exampleMemory) [] rfl _ rfl).getEvent 2
    exact absurd hmask (by decide)
  · intro hshows
    have hrefines := (hshows blockActions [] rfl _ rfl).refines
    have hmode := hrefines.descriptors 5 _ (.new .ip)
      { serial := 0, state := { family := .ip, flags := oRdwr ||| oNonblock } } rfl rfl rfl
    exact absurd hmode.2 (by decide)

end OfcDarwin.Socket
