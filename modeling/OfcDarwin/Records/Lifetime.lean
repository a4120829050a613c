import OfcDarwin.Lib.Lifetime
import OfcDarwin.Records.Model

/-!
# Released while the handle resolves

`ofc_event_destroy_impl` and `ofc_socket_impl_destroy` call `ofc_free` and then
`ofc_handle_destroy`, so between the two calls the handle resolves to a record that
is gone.  No other order of steps helps: whichever thread first frees the record of a
handle, that handle has not been destroyed yet, because every program frees before
it destroys (`freesFirst`).

So a run keeps the lifetimes in order exactly as long as no destroy has come to its
`ofc_free` (`lifetimes_iff`).
-/

namespace OfcDarwin.Records

open Lifetime OfcDarwin.Socket Transition

variable {Thread : Type}

/-! ## Lifetimes of a state -/

/-- Who reaches which record in a state. -/
def life (s : State Thread) : Life Handle Thread :=
  { resolves := fun h => s.resolves h = true
    released := fun h => s.released h = true
    pending := fun t h => ∃ rest, s.running t = some (h, rest) ∧ ∃ instr ∈ rest, instr.touches }

/-- The record that an action releases. -/
def freed? (s : State Thread) : Action Thread → Option Handle
  | .next t =>
      match s.running t with
      | some (h, .free :: _) => some h
      | _ => none
  | .call .. | .wakeup _ => none

/-- The action is the `ofc_free` of a destroy. -/
def Frees (s : State Thread) (a : Action Thread) (h : Handle) : Prop := freed? s a = some h

variable [DecidableEq Thread]

namespace State

variable (s : State Thread) (t : Thread) (h : Handle) (instr : Instr) (rest : List Instr)

theorem goto_running (other : Thread) (program : Option (Handle × List Instr)) :
    (s.goto t program).running other = if other = t then program else s.running other :=
  Function.update_apply ..

theorem exec_resolves (other : Handle) : (s.exec t h instr rest).resolves other =
    if instr = .handleDestroy ∧ other = h then false else s.resolves other := by
  show (if instr = .handleDestroy then Function.update s.resolves h false
    else s.resolves) other = _
  by_cases hdestroy : instr = .handleDestroy
  · simp [hdestroy, Function.update_apply]
  · simp [hdestroy]

theorem exec_released (other : Handle) : (s.exec t h instr rest).released other =
    if instr = .free ∧ other = h then true else s.released other := by
  show (if instr = .free then Function.update s.released h true else s.released) other = _
  by_cases hfree : instr = .free
  · simp [hfree, Function.update_apply]
  · simp [hfree]

theorem exec_running_self :
    (s.exec t h instr rest).running t = some (h, instr.after (s.sleeps h) rest) :=
  Function.update_self ..

/-- What another thread has left after an instruction: a broadcast may have woken it. -/
theorem exec_running_of_ne {other : Thread} (hne : other ≠ t) :
    (s.exec t h instr rest).running other = s.running other ∨
      (s.exec t h instr rest).running other = broadcast s.running h other := by
  have hrunning : (s.exec t h instr rest).running other =
      (if instr = .condBroadcast then broadcast s.running h else s.running) other :=
    Function.update_of_ne hne ..
  rw [hrunning]
  split
  · exact Or.inr rfl
  · exact Or.inl rfl

end State

omit [DecidableEq Thread] in
/-- A broadcast leaves a thread where it is, or wakes it. -/
theorem broadcast_eq_some {running : Thread → Option (Handle × List Instr)} {h held : Handle}
    {t : Thread} {rest : List Instr} (hrunning : broadcast running h t = some (held, rest)) :
    ∃ before, running t = some (held, before) ∧ (rest = before ∨ rest = wake before) := by
  obtain ⟨⟨was, before⟩, hbefore, heq⟩ := Option.map_eq_some_iff.mp hrunning
  obtain ⟨rfl, hrest⟩ := Prod.mk.inj heq
  refine ⟨before, hbefore, ?_⟩
  split at hrest
  · exact Or.inr hrest.symm
  · exact Or.inl hrest.symm

/-! ## What a step can do -/

variable {s u : State Thread}

theorem call_inv {t : Thread} {h : Handle} {op : Op} (hstep : step s (.call t h op) = some u) :
    u = s ∨ s.resolves h = true ∧ u = s.goto t (some (h, op.program)) := by
  rw [step] at hstep
  split at hstep
  · split at hstep
    · rename_i hresolves
      exact Or.inr ⟨hresolves, (Option.some.inj hstep).symm⟩
    · exact Or.inl (Option.some.inj hstep).symm
  · cases hstep

theorem next_inv {t : Thread} (hstep : step s (.next t) = some u) :
    (∃ h, s.running t = some (h, []) ∧ u = s.goto t none) ∨
      ∃ h instr rest, s.running t = some (h, instr :: rest) ∧ u = s.exec t h instr rest := by
  rw [step] at hstep
  split at hstep
  · cases hstep
  · rename_i h hrunning
    exact Or.inl ⟨h, hrunning, (Option.some.inj hstep).symm⟩
  · rename_i h instr rest hrunning
    split at hstep
    · exact Or.inr ⟨h, instr, rest, hrunning, (Option.some.inj hstep).symm⟩
    · cases hstep

theorem wakeup_inv {t : Thread} (hstep : step s (.wakeup t) = some u) :
    ∃ h rest, s.running t = some (h, .asleep :: rest) ∧
      u = s.goto t (some (h, .relock :: rest)) := by
  rw [step] at hstep
  split at hstep
  · rename_i h rest hrunning
    exact ⟨h, rest, hrunning, (Option.some.inj hstep).symm⟩
  · cases hstep

/-- What a thread has left after a step: it has just locked the handle, or it was at
work on it, where it may have been woken or have taken an instruction. -/
inductive Left (s u : State Thread) (t : Thread) (h : Handle) (rest : List Instr) : Prop where
  | locked (op : Op) (hresolves : s.resolves h = true) (hrest : rest = op.program)
  | kept (hrunning : s.running t = some (h, rest))
  | woken {before : List Instr} (hrunning : s.running t = some (h, before))
      (hrest : rest = wake before)
  | taken {instr : Instr} {before : List Instr} {sleeps : Bool}
      (hrunning : s.running t = some (h, instr :: before))
      (hrest : rest = instr.after sleeps before)
      (hreleased : instr = .free → u.released h = true)

theorem step_left {a : Action Thread} (hstep : step s a = some u) {t : Thread} {h : Handle}
    {rest : List Instr} (hleft : u.running t = some (h, rest)) : Left s u t h rest := by
  have hgoto : ∀ {actor : Thread} {program : Option (Handle × List Instr)},
      u = s.goto actor program → t ≠ actor → s.running t = some (h, rest) := by
    rintro actor program rfl hne
    rwa [State.goto_running, if_neg hne] at hleft
  have hself : ∀ {actor : Thread} {program : Option (Handle × List Instr)},
      u = s.goto actor program → t = actor → program = some (h, rest) := by
    rintro actor program rfl hsame
    rwa [State.goto_running, if_pos hsame] at hleft
  cases a with
  | call actor held op =>
      rcases call_inv hstep with rfl | ⟨hresolves, hu⟩
      · exact .kept hleft
      · by_cases hactor : t = actor
        · obtain ⟨rfl, rfl⟩ := Prod.mk.inj (Option.some.inj (hself hu hactor))
          exact .locked op hresolves rfl
        · exact .kept (hgoto hu hactor)
  | next actor =>
      rcases next_inv hstep with ⟨held, hrunning, hu⟩ | ⟨held, instr, before, hrunning, rfl⟩
      · by_cases hactor : t = actor
        · cases hself hu hactor
        · exact .kept (hgoto hu hactor)
      · by_cases hactor : t = actor
        · subst hactor
          rw [State.exec_running_self] at hleft
          obtain ⟨rfl, hrest⟩ := Prod.mk.inj (Option.some.inj hleft)
          refine .taken hrunning hrest.symm fun hfree => ?_
          rw [State.exec_released, if_pos ⟨hfree, rfl⟩]
        · rcases s.exec_running_of_ne actor held instr before hactor with hsame | hbroadcast
          · exact .kept (hsame.symm.trans hleft)
          · obtain ⟨was, hwas, hrest⟩ := broadcast_eq_some (hbroadcast.symm.trans hleft)
            rcases hrest with rfl | hrest
            · exact .kept hwas
            · exact .woken hwas hrest
  | wakeup actor =>
      obtain ⟨held, before, hrunning, hu⟩ := wakeup_inv hstep
      by_cases hactor : t = actor
      · obtain ⟨rfl, rfl⟩ := Prod.mk.inj (Option.some.inj (hself hu hactor))
        exact .woken (hactor ▸ hrunning) rfl
      · exact .kept (hgoto hu hactor)

/-- A step releases what its action frees. -/
theorem step_released {a : Action Thread} (hstep : step s a = some u) (h : Handle) :
    u.released h = true ↔ s.released h = true ∨ Frees s a h := by
  cases a with
  | call t held op =>
      have hnone : ¬Frees s (.call t held op) h := nofun
      rcases call_inv hstep with rfl | ⟨-, rfl⟩
      · exact (or_iff_left hnone).symm
      · exact (or_iff_left hnone).symm
  | wakeup t =>
      obtain ⟨held, rest, -, rfl⟩ := wakeup_inv hstep
      exact (or_iff_left (a := s.released h = true) nofun).symm
  | next t =>
      rcases next_inv hstep with ⟨held, hrunning, rfl⟩ | ⟨held, instr, rest, hrunning, rfl⟩
      · have hnone : ¬Frees s (.next t) h := by simp [Frees, freed?, hrunning]
        exact (or_iff_left hnone).symm
      · rw [State.exec_released]
        by_cases hfree : instr = .free
        · have hfrees : Frees s (.next t) h ↔ held = h := by simp [Frees, freed?, hrunning, hfree]
          rw [hfrees]
          by_cases hsame : h = held
          · simp [hfree, hsame]
          · simp [hfree, hsame, Ne.symm hsame]
        · have hnone : ¬Frees s (.next t) h := by
            intro hfrees
            rw [Frees, freed?, hrunning] at hfrees
            cases instr <;> simp_all
          simp [hfree, hnone]

/-- A handle never resolves again. -/
theorem step_resolves {a : Action Thread} (hstep : step s a = some u) {h : Handle}
    (hresolves : u.resolves h = true) : s.resolves h = true := by
  cases a with
  | call t held op =>
      rcases call_inv hstep with rfl | ⟨-, rfl⟩
      · exact hresolves
      · exact hresolves
  | wakeup t =>
      obtain ⟨held, rest, -, rfl⟩ := wakeup_inv hstep
      exact hresolves
  | next t =>
      rcases next_inv hstep with ⟨held, -, rfl⟩ | ⟨held, instr, rest, -, rfl⟩
      · exact hresolves
      · rw [State.exec_resolves] at hresolves
        split at hresolves
        · cases hresolves
        · exact hresolves

/-! ## What a step does to lifetimes -/

/-- A woken thread has accesses left exactly when it had them asleep. -/
theorem wake_touches {program : List Instr} :
    (∃ instr ∈ wake program, instr.touches) ↔ ∃ instr ∈ program, instr.touches := by
  unfold wake
  split
  · simp [Instr.touches]
  · rfl

omit [DecidableEq Thread] in
/-- A wait that sleeps has accesses left, and had them before. -/
theorem after_touches {sleeps : Bool} {instr : Instr} {rest : List Instr}
    (hafter : ∃ left ∈ instr.after sleeps rest, left.touches) :
    ∃ left ∈ instr :: rest, left.touches := by
  by_cases hwait : instr = .condWait
  · exact ⟨instr, List.mem_cons_self .., by rw [hwait]; rfl⟩
  · obtain ⟨left, hleft, htouches⟩ := hafter
    have hrest : instr.after sleeps rest = rest := by cases instr <;> simp_all [Instr.after]
    exact ⟨left, List.mem_cons_of_mem _ (hrest ▸ hleft), htouches⟩

theorem step_change {a : Action Thread} (hstep : step s a = some u) :
    Change (life s) (life u) (Frees s a) := by
  refine ⟨step_released hstep, fun h => step_resolves hstep, ?_⟩
  rintro t h ⟨rest, hleft, htouches⟩
  cases step_left hstep hleft with
  | locked op hresolves hrest => exact Or.inr hresolves
  | kept hrunning => exact Or.inl ⟨rest, hrunning, htouches⟩
  | woken hrunning hrest =>
      rw [hrest] at htouches
      exact Or.inl ⟨_, hrunning, wake_touches.mp htouches⟩
  | taken hrunning hrest hreleased =>
      rw [hrest] at htouches
      exact Or.inl ⟨_, hrunning, after_touches htouches⟩

/-! ## Freed before destroyed -/

/-- Every `ofc_handle_destroy` in a program comes after an `ofc_free` in it. -/
def freesFirst : List Instr → Bool
  | [] => true
  | .free :: _ => true
  | .handleDestroy :: _ => false
  | _ :: rest => freesFirst rest

omit [DecidableEq Thread] in
theorem program_freesFirst (op : Op) : freesFirst op.program = true := by
  cases op <;> rfl

theorem wake_freesFirst (program : List Instr) :
    freesFirst (wake program) = freesFirst program := by
  unfold wake
  split <;> rfl

/-- What is left after an instruction still frees first, unless the instruction is
the `ofc_free`. -/
theorem after_freesFirst {sleeps : Bool} {instr : Instr} {rest : List Instr}
    (hfirst : freesFirst (instr :: rest) = true) (hfree : instr ≠ .free) :
    freesFirst (instr.after sleeps rest) = true := by
  cases instr
  case free => exact absurd rfl hfree
  case handleDestroy => cases hfirst
  case condWait => cases sleeps <;> exact hfirst
  all_goals exact hfirst

/-- The handle of a thread at work still resolves or its record is released, and is
released if the thread has its `ofc_handle_destroy` but no `ofc_free` before it. -/
def Ordered (s : State Thread) : Prop :=
  ∀ t h rest, s.running t = some (h, rest) →
    (s.resolves h = true ∨ s.released h = true) ∧
      (freesFirst rest = false → s.released h = true)

omit [DecidableEq Thread] in
theorem initial_ordered (record : Handle → Option Record) : Ordered (initial Thread record) :=
  nofun

/-- A step that stops a handle resolving is the `ofc_handle_destroy` of a thread. -/
theorem step_unresolved {a : Action Thread} (hstep : step s a = some u) {h : Handle}
    (hbefore : s.resolves h = true) (hafter : u.resolves h ≠ true) :
    ∃ t rest, s.running t = some (h, .handleDestroy :: rest) := by
  cases a with
  | call t held op =>
      rcases call_inv hstep with rfl | ⟨-, rfl⟩
      · exact absurd hbefore hafter
      · exact absurd hbefore hafter
  | wakeup t =>
      obtain ⟨held, rest, -, rfl⟩ := wakeup_inv hstep
      exact absurd hbefore hafter
  | next t =>
      rcases next_inv hstep with ⟨held, -, rfl⟩ | ⟨held, instr, rest, hrunning, rfl⟩
      · exact absurd hbefore hafter
      · rw [State.exec_resolves] at hafter
        split at hafter
        · rename_i hdestroy
          obtain ⟨rfl, rfl⟩ := hdestroy
          exact ⟨t, rest, hrunning⟩
        · exact absurd hbefore hafter

theorem step_ordered {a : Action Thread} (hs : Ordered s) (hstep : step s a = some u) :
    Ordered u := by
  intro t h rest hleft
  have hkeep : s.released h = true → u.released h = true := fun hreleased =>
    (step_released hstep h).mpr (Or.inl hreleased)
  have hreached : s.resolves h = true ∨ s.released h = true →
      u.resolves h = true ∨ u.released h = true := by
    rintro (hresolves | hreleased)
    · by_cases hafter : u.resolves h = true
      · exact Or.inl hafter
      · -- whoever destroys the handle has released the record before
        obtain ⟨actor, left, hrunning⟩ := step_unresolved hstep hresolves hafter
        exact Or.inr (hkeep ((hs actor h _ hrunning).2 rfl))
    · exact Or.inr (hkeep hreleased)
  cases step_left hstep hleft with
  | locked op hresolves hrest =>
      refine ⟨hreached (Or.inl hresolves), fun hfirst => ?_⟩
      rw [hrest, program_freesFirst] at hfirst
      cases hfirst
  | kept hrunning =>
      obtain ⟨hlive, hfirst⟩ := hs t h rest hrunning
      exact ⟨hreached hlive, fun hlate => hkeep (hfirst hlate)⟩
  | woken hrunning hrest =>
      obtain ⟨hlive, hfirst⟩ := hs t h _ hrunning
      refine ⟨hreached hlive, fun hlate => hkeep (hfirst ?_)⟩
      rwa [hrest, wake_freesFirst] at hlate
  | @taken instr before sleeps hrunning hrest hreleased =>
      obtain ⟨hlive, hfirst⟩ := hs t h _ hrunning
      refine ⟨hreached hlive, fun hlate => ?_⟩
      by_cases hfree : instr = .free
      · exact hreleased hfree
      · refine hkeep (hfirst ?_)
        rw [hrest] at hlate
        by_contra hbefore
        rw [after_freesFirst (eq_true_of_ne_false hbefore) hfree] at hlate
        cases hlate

/-! ## Every run -/

/-- Whoever frees a live record does so while its handle resolves. -/
theorem frees_resolves {a : Action Thread} (hs : Ordered s) (hsafe : Safe (life s))
    (hstep : step s a = some u) {h : Handle} (hfrees : Frees s a h) : u.resolves h = true := by
  cases a with
  | call t held op => cases hfrees
  | wakeup t => cases hfrees
  | next t =>
      rcases next_inv hstep with ⟨held, hrunning, -⟩ | ⟨held, instr, rest, hrunning, rfl⟩
      · simp [Frees, freed?, hrunning] at hfrees
      · obtain ⟨rfl, rfl⟩ : instr = .free ∧ held = h := by
          rw [Frees, freed?, hrunning] at hfrees
          cases instr <;> simp_all
        have hlive : s.released held ≠ true :=
          hsafe.held t held ⟨_, hrunning, .free, List.mem_cons_self .., rfl⟩
        rw [State.exec_resolves, if_neg (by simp)]
        exact (hs t held _ hrunning).1.resolve_right hlive

/-- An access in a safe state is not late. -/
theorem step_late {a : Action Thread} (hsafe : Safe (life s)) (hstep : step s a = some u) :
    u.late = s.late := by
  cases a with
  | call t held op =>
      rcases call_inv hstep with rfl | ⟨-, rfl⟩
      · rfl
      · rfl
  | wakeup t =>
      obtain ⟨held, rest, -, rfl⟩ := wakeup_inv hstep
      rfl
  | next t =>
      rcases next_inv hstep with ⟨held, -, rfl⟩ | ⟨held, instr, rest, hrunning, rfl⟩
      · rfl
      · apply if_neg
        rintro ⟨htouches, hreleased⟩
        exact hsafe.held t held ⟨_, hrunning, instr, List.mem_cons_self .., htouches⟩ hreleased

/-- The run is safe at every point: a handle that resolves has a live record, and so
has a handle to whose record a thread has accesses left. -/
def SafeThroughout (record : Handle → Option Record) (actions : List (Action Thread)) : Prop :=
  ∀ before after : List (Action Thread), actions = before ++ after →
    ∀ v, run step (initial Thread record) before = some v → Safe (life v)

instance (s : State Thread) (a : Action Thread) : Decidable (∃ h, Frees s a h) :=
  decidable_of_iff ((freed? s a).isSome = true) Option.isSome_iff_exists

theorem lifetimes_iff (record : Handle → Option Record) (actions : List (Action Thread))
    (s : State Thread) (hrun : run step (initial Thread record) actions = some s) :
    SafeThroughout record actions ↔
      Along step (fun v a => ¬∃ h, Frees v a h) (initial Thread record) actions := by
  have hinitial : Safe (life (initial Thread record)) := ⟨nofun, nofun⟩
  have hsafe := safe_iff_along (fun _ _ _ hv hstep => step_ordered hv hstep)
    (fun _ _ _ hstep => step_change hstep)
    (fun _ _ _ hv hsafe hstep _ hfrees => frees_resolves hv hsafe hstep hfrees)
    (initial_ordered record) hinitial hrun
  simpa only [SafeThroughout, not_exists] using hsafe

/-- A run that is safe throughout makes no access to a released record. -/
theorem SafeThroughout.late_eq_nil {record : Handle → Option Record}
    {actions : List (Action Thread)} (hsafe : SafeThroughout record actions) {s : State Thread}
    (hrun : run step (initial Thread record) actions = some s) : s.late = [] := by
  induction actions using List.reverseRecOn generalizing s with
  | nil =>
      cases hrun
      rfl
  | append_singleton before a ih =>
      obtain ⟨v, hbefore, hstep⟩ := run_concat_eq_some.mp hrun
      have hearlier : SafeThroughout record before := by
        rintro first second rfl w hw
        exact hsafe first (second ++ [a]) (List.append_assoc ..) w hw
      calc s.late
          _ = v.late := step_late (hsafe before [a] rfl v hbefore) hstep
          _ = [] := ih hearlier hbefore

/-- An event and a socket. -/
def exampleRecord : Handle → Option Record
  | 7 => some (.event (ofcEventCreateImpl .manual))
  | 8 =>
      some (.socket
        { socket := 3
          family := .ip
          events := 0
          revents := 0
          ip :=
            { ipVersion := .ip
              ipv4 := 0
              ipv6 := { s6Addr := Vector.replicate 16 0, scope := 0 } } })
  | _ => none

/-- Up to the `ofc_free` of a destroy, with a wait asleep and a set under way. -/
theorem lifetimes_kept : SafeThroughout exampleRecord
    [.call 1 7 .eventWait, .next 1, .next 1, .next 1, .next 1, .call 2 7 .eventSet, .next 2,
      .next 2, .next 2, .call 0 7 .eventDestroy, .next 0, .next 0, .next 2] :=
  (lifetimes_iff exampleRecord _ _ rfl).mpr (by decide)

/-- Thread 1 has locked the handle when thread 0 destroys it. -/
def lockedActions (h : Handle) (op destroy : Op) : List (Action ℕ) :=
  [.call 1 h op, .call 0 h destroy] ++ List.replicate (destroy.program.idxOf .free + 1) (.next 0)

/-- Neither destroy keeps the lifetimes, and thread 1 makes an access after each. -/
theorem not_safeThroughout :
    (¬SafeThroughout exampleRecord (lockedActions 7 .eventTest .eventDestroy) ∧
        ∃ s, run step (initial ℕ exampleRecord)
          (lockedActions 7 .eventTest .eventDestroy ++ [.next 1]) = some s ∧ s.late = [7]) ∧
      ¬SafeThroughout exampleRecord (lockedActions 8 .socketGetFd .socketDestroy) ∧
        ∃ s, run step (initial ℕ exampleRecord)
          (lockedActions 8 .socketGetFd .socketDestroy ++ [.next 1]) = some s ∧ s.late = [8] := by
  refine ⟨⟨fun hsafe => ?_, _, rfl, rfl⟩, fun hsafe => ?_, _, rfl, rfl⟩
  · exact (hsafe _ [] (List.append_nil _).symm _ rfl).resolved 7 rfl rfl
  · exact (hsafe _ [] (List.append_nil _).symm _ rfl).resolved 8 rfl rfl

end OfcDarwin.Records
