import OfcDarwin.Lib.HeapLogic
import OfcDarwin.Process.Model

/-!
# Starting a daemon over the heap

`Process/Model.lean` has the names and the arguments of a call as values.  Here they are
blocks.  `ofc_process_exec_impl` copies the two names and the first `argc` pointers of
`argv`, and frees its copies in the original process.  A fork copies the heap: the second
child reads the names and the arguments there, up to the `OFC_NULL` that has been put
behind them.

The functions are those of the other file, with the reads and writes of the source.  A
call has a result exactly if the caller's `argv` has the `argc` pointers it says, and it
is then the result of the other file (`exec_arguments`).
-/

namespace OfcDarwin.Process.Memory

open HeapLogic

/-- A C string, or an element of an argument vector: `OFC_NULL`, or a pointer to a string
that nobody changes. -/
inductive Cell where
  | text (string : String)
  | pointer (string : Option String)

def Cell.text? : Cell → Option String
  | .text string => some string
  | .pointer _ => none

def Cell.pointer? : Cell → Option (Option String)
  | .pointer string => some string
  | .text _ => none

/-! ## The buffers of a call -/

/-- `ofc_tstr2cstr` of a string. -/
def ofcTstr2cstr (string : String) : Program Cell ℕ := do
  let cstr ← malloc 1
  store cstr 0 (.text string)
  pure cstr

/-- `ofc_tstr2cstr`, which gives `OFC_NULL` for `OFC_NULL`. -/
def ofcTstr2cstr? : Option String → Program Cell (Option ℕ)
  | none => pure none
  | some string => do
      let cstr ← ofcTstr2cstr string
      pure (some cstr)

/-- `ofc_free`. -/
def ofcFree : Option ℕ → Program Cell Unit
  | none => pure ()
  | some p => free p

/-- `ofc_malloc` of `argc + 1` pointers.  A negative number of them is, as an `OFC_SIZET`,
more than there is, and the store through `OFC_NULL` ends the process. -/
def mallocArgv (argc : Int32) : Program Cell ℕ :=
  if 0 ≤ (argc + 1).toInt then malloc (argc + 1).toInt.toNat else failure

/-- The body of the loop that copies the pointers. -/
def copyPointer (execArgv argv i : ℕ) : Program Cell Unit := do
  let string ← load Cell.pointer? argv i
  store execArgv i (.pointer string)

/-- The loop, with `i` and how many pointers are left. -/
def copyArgv (execArgv argv : ℕ) : ℕ → ℕ → Program Cell Unit
  | _, 0 => pure ()
  | i, n + 1 => do
      copyPointer execArgv argv i
      copyArgv execArgv argv (i + 1) n

/-- The pointers that `ofc_process_exec_impl` allocates; `cuname` may be `OFC_NULL`. -/
structure Buffers where
  cname : ℕ
  cuname : Option ℕ
  execArgv : ℕ

/-- `ofc_process_exec_impl` up to the first `fork`. -/
def prepare (name : String) (uname : Option String) (argc : Int32) (argv : ℕ) :
    Program Cell Buffers := do
  let cname ← ofcTstr2cstr name
  let cuname ← ofcTstr2cstr? uname
  let execArgv ← mallocArgv argc
  copyArgv execArgv argv 0 argc.toInt.toNat
  store execArgv argc.toInt.toNat (.pointer none)
  pure { cname := cname, cuname := cuname, execArgv := execArgv }

/-! ## The processes -/

/-- The strings of an argument vector that `execve` reads, up to `OFC_NULL`. -/
def vector : Block Cell → Option (List String)
  | some (.pointer none) :: _ => some []
  | some (.pointer (some string)) :: rest => (vector rest).map (string :: ·)
  | some (.text _) :: _ | none :: _ | [] => none

/-- `execve` reads its argument vector. -/
def readArgv (execArgv : ℕ) : Program Cell (List String) := fun heap =>
  (heap.blocks execArgv).bind fun block => (vector block).map fun argv => (argv, heap)

/-- The identity of the second child when it calls `execve`. -/
def becomeUser (os : Os) (credentials : Credentials) : Option ℕ → Program Cell Credentials
  | none => pure credentials
  | some cuname => do
      let name ← load Cell.text? cuname 0
      pure ((os.getpwnam name).elim credentials (credentials.become os))

/-- The second child, from the `fork` on. -/
def secondChild (os : Os) (credentials : Credentials) (pid : ChildPid) (locals : Locals)
    (buffers : Buffers) : Program Cell Daemon := do
  let credentials ← becomeUser os credentials buffers.cuname
  let path ← load Cell.text? buffers.cname 0
  let argv ← readArgv buffers.execArgv
  pure
    { pid := pid
      locals := { locals with pid2 := 0 }
      exec := { path := path, argv := argv, credentials := credentials }
      running := os.execve }

/-- The first child, from the `fork` on. -/
def firstChild (os : Os) (credentials : Credentials) (locals : Locals) (buffers : Buffers) :
    Program Cell FirstChild :=
  match os.kill with
  | some (.beforeFork status) => pure { locals := locals, status := status, daemon := none }
  | kill =>
      match os.secondFork with
      | none =>
          pure
            { locals := { locals with pid2 := -1 }
              status :=
                match kill, os.crash with
                | some (.afterFork status), _ => status
                | _, some status => status
                | _, none => exitStatus exSoftware
              daemon := none }
      | some pid2 => do
          let daemon ← onCopy (secondChild os credentials pid2 locals buffers)
          pure
            { locals := { locals with pid2 := pid2 }
              status :=
                match kill with
                | some (.afterFork status) => status
                | _ => exitStatus exOk
              daemon := some daemon }

/-- The original process from the first `fork` on, up to the release of the buffers. -/
def forkTwice (os : Os) (table : HandleTable) (fresh : Handle) (credentials : Credentials)
    (initial : Locals) (buffers : Buffers) : Program Cell Execution :=
  match os.firstFork with
  | none =>
      pure
        { hProcess := none
          table := table
          locals := { initial with pid := -1 }
          child := none
          crashed := os.crash }
  | some pid => do
      let child ← onCopy (firstChild os credentials { initial with pid := 0 } buffers)
      let locals := { initial with pid := pid }
      let locals := if os.waitpid then { locals with ret := child.status } else locals
      if locals.ret = exOk then
        pure
          { hProcess := some fresh
            table := table.create fresh (toDwordPtr locals.pid2)
            locals := locals
            child := some child
            crashed := none }
      else
        pure
          { hProcess := none
            table := table
            locals := locals
            child := some child
            crashed := none }

/-- The end of `ofc_process_exec_impl`, which a process that has crashed does not come to. -/
def release (crashed : Option AbnormalStatus) (buffers : Buffers) : Program Cell Unit :=
  match crashed with
  | some _ => pure ()
  | none => do
      free buffers.execArgv
      ofcFree buffers.cuname
      free buffers.cname

/-- `ofc_process_exec_impl`, of the `argv` at an address. -/
def ofcProcessExecImpl (os : Os) (table : HandleTable) (fresh : Handle)
    (credentials : Credentials) (name : String) (uname : Option String) (argc : Int32)
    (argv : ℕ) (initial : Locals) : Program Cell Execution := do
  let buffers ← prepare name uname argc argv
  let execution ← forkTwice os table fresh credentials initial buffers
  release execution.crashed buffers
  pure execution

/-! ## The arguments -/

/-- The first `n` elements of a block, if all of them are pointers that have been written. -/
def firstPointers : ℕ → Block Cell → Option (List (Option String))
  | 0, _ => some []
  | n + 1, some (.pointer string) :: rest => (firstPointers n rest).map (string :: ·)
  | _ + 1, some (.text _) :: _ | _ + 1, none :: _ | _ + 1, [] => none

/-- The `argc` pointers of an `argv`, if it has as many and the size of the copy is an
`OFC_INT`. -/
def arguments (argc : Int32) (fields : Block Cell) : Option (List (Option String)) :=
  if 0 ≤ argc.toInt ∧ 0 ≤ (argc + 1).toInt then firstPointers argc.toInt.toNat fields else none

/-- The strings of some pointers up to the first `OFC_NULL`. -/
def upToNull : List (Option String) → List String
  | some string :: rest => string :: upToNull rest
  | none :: _ | [] => []

/-- Some pointers, in a block. -/
def pointers (strings : List (Option String)) : Block Cell :=
  strings.map fun string => some (.pointer string)

/-- `execve` reads the strings of a vector that ends with `OFC_NULL`. -/
theorem vector_pointers (strings : List (Option String)) :
    vector (pointers (strings ++ [none])) = some (upToNull strings) := by
  induction strings with
  | nil => rfl
  | cons string rest ih =>
      cases string with
      | none => rfl
      | some string =>
          calc vector (pointers (some string :: rest ++ [none]))
              = (vector (pointers (rest ++ [none]))).map (string :: ·) := rfl
            _ = some (string :: upToNull rest) := by rw [ih, Option.map_some]

theorem length_firstPointers {n : ℕ} {fields : Block Cell} {strings : List (Option String)}
    (hstrings : firstPointers n fields = some strings) : strings.length = n := by
  induction n generalizing fields strings with
  | zero =>
      cases hstrings
      rfl
  | succ n ih =>
      match fields with
      | some (.pointer string) :: rest =>
          obtain ⟨after, hrest, rfl⟩ := Option.map_eq_some_iff.mp hstrings
          rw [List.length_cons, ih hrest]

theorem readArgv_returns (p : ℕ) {block : Block Cell} {argv : List String}
    (hvector : vector block = some argv) :
    Returns (pointsTo p block) (readArgv p) argv (pointsTo p block) := by
  intro frame heap hbefore
  refine ⟨argv, heap, ?_, ?_⟩
  · rw [readArgv, (pointsTo_mul_iff.mp hbefore).1, Option.bind_some, hvector, Option.map_some]
  · rw [mul_assoc, Assertion.lift_mul_iff]
    exact ⟨rfl, hbefore⟩

theorem text_returns (p : ℕ) (string : String) :
    Returns (pointsTo p [some (.text string)]) (load Cell.text? p 0) string
      (pointsTo p [some (.text string)]) :=
  @load_returns _ _ Cell.text? _ _ _ (.text string) _ rfl rfl

/-! ## The copy -/

/-- The pointers that have been copied, before the cells that are left. -/
def copied (strings : List (Option String)) (n : ℕ) : Block Cell :=
  pointers strings ++ List.replicate n none

theorem length_pointers (strings : List (Option String)) :
    (pointers strings).length = strings.length := List.length_map ..

theorem getElem?_pointers_append (strings : List (Option String)) (rest : Block Cell) :
    (pointers strings ++ rest)[strings.length]? = rest.head? := by
  rw [List.getElem?_append_right (length_pointers strings).le, length_pointers, Nat.sub_self,
    List.head?_eq_getElem?]

theorem pointers_append_cons (strings : List (Option String)) (string : Option String)
    (rest : Block Cell) :
    pointers (strings ++ [string]) ++ rest =
      pointers strings ++ some (.pointer string) :: rest := by
  rw [pointers, List.map_append, List.append_assoc]
  rfl

theorem copied_set (strings : List (Option String)) (string : Option String) (n : ℕ) :
    (copied strings (n + 1)).set strings.length (some (.pointer string)) =
      copied (strings ++ [string]) n := by
  rw [copied, List.replicate_succ, List.set_append_right _ _ (length_pointers strings).le,
    length_pointers, Nat.sub_self, List.set_cons_zero, copied, pointers, pointers, List.map_append,
    List.append_assoc]
  rfl

theorem copied_zero (strings : List (Option String)) : copied strings 0 = pointers strings :=
  List.append_nil _

section Copy

variable (execArgv argv : ℕ)

theorem copyPointer_triple (strings : List (Option String)) (string : Option String)
    (rest : Block Cell) (n : ℕ) :
    Triple (pointsTo argv (pointers strings ++ some (.pointer string) :: rest) *
        pointsTo execArgv (copied strings (n + 1)))
      (copyPointer execArgv argv strings.length) fun _ =>
        pointsTo argv (pointers (strings ++ [string]) ++ rest) *
          pointsTo execArgv (copied (strings ++ [string]) n) := by
  have hload : Returns (pointsTo argv (pointers strings ++ some (.pointer string) :: rest))
      (load Cell.pointer? argv strings.length) string
      (pointsTo argv (pointers strings ++ some (.pointer string) :: rest)) :=
    load_returns (getElem?_pointers_append strings _) rfl
  apply Triple.bindReturns rfl hload
  have hroom : strings.length < (copied strings (n + 1)).length := by
    simp [copied, length_pointers]
  have hstore := (store_triple (p := execArgv) hroom (.pointer string)).frame
    (pointsTo argv (pointers strings ++ some (.pointer string) :: rest))
  rw [copied_set, mul_comm] at hstore
  rw [pointers_append_cons]
  exact hstore.weaken fun _ part hpart => by rwa [mul_comm]

/-- There is no pointer to copy. -/
theorem copyPointer_faults (strings : List (Option String)) {rest : Block Cell}
    (hrest : rest.head?.join.bind Cell.pointer? = none) (F : Assertion Cell) :
    Faults (pointsTo argv (pointers strings ++ rest) * F)
      (copyPointer execArgv argv strings.length) := by
  have hload : Faults (pointsTo argv (pointers strings ++ rest))
      (load Cell.pointer? argv strings.length) := by
    apply load_faults
    rwa [getElem?_pointers_append]
  exact (hload.frame F).first

theorem copyArgv_triple {n : ℕ} {rest : Block Cell} {strings after : List (Option String)}
    (hafter : firstPointers n rest = some after) :
    Triple (pointsTo argv (pointers strings ++ rest) *
        pointsTo execArgv (copied strings (n + 1)))
      (copyArgv execArgv argv strings.length n) fun _ =>
        pointsTo argv (pointers strings ++ rest) *
          pointsTo execArgv (copied (strings ++ after) 1) := by
  induction n generalizing rest strings after with
  | zero =>
      cases hafter
      rw [List.append_nil]
      exact Triple.value fun _ hpart => hpart
  | succ n ih =>
      match rest with
      | some (.pointer string) :: rest =>
          obtain ⟨after, hrest, rfl⟩ := Option.map_eq_some_iff.mp hafter
          apply Triple.seq (copyPointer_triple execArgv argv strings string rest (n + 1))
          intro _
          have hcopied := @ih rest (strings ++ [string]) after hrest
          rw [List.length_append, List.append_assoc] at hcopied
          rw [← pointers_append_cons]
          exact hcopied

theorem copyArgv_faults {n : ℕ} {rest : Block Cell} {strings : List (Option String)}
    (hnone : firstPointers n rest = none) :
    Faults (pointsTo argv (pointers strings ++ rest) *
        pointsTo execArgv (copied strings (n + 1)))
      (copyArgv execArgv argv strings.length n) := by
  induction n generalizing rest strings with
  | zero => cases hnone
  | succ n ih =>
      match rest with
      | [] | none :: _ | some (.text _) :: _ =>
          exact (copyPointer_faults execArgv argv strings rfl _).first
      | some (.pointer string) :: rest =>
          apply Faults.seq (copyPointer_triple execArgv argv strings string rest (n + 1))
          intro _
          have hlater := @ih rest (strings ++ [string]) (Option.map_eq_none_iff.mp hnone)
          rwa [List.length_append] at hlater

end Copy

/-! ## Before the forks -/

theorem tstr2cstr_triple (string : String) :
    Triple 1 (ofcTstr2cstr string) fun p => pointsTo p [some (.text string)] := by
  unfold ofcTstr2cstr
  apply Triple.seq (malloc_triple 1)
  intro cstr
  apply Triple.seq (store_triple (Nat.zero_lt_succ _) _)
  intro _
  exact Triple.value fun _ hpart => hpart

/-- A string, behind a pointer that is `OFC_NULL` if there is none. -/
def behind : Option ℕ → Option String → Assertion Cell
  | some p, some string => pointsTo p [some (.text string)]
  | none, none => 1
  | none, some _ | some _, none => .lift False

theorem tstr2cstr?_triple (string : Option String) :
    Triple 1 (ofcTstr2cstr? string) fun p => behind p string := by
  cases string with
  | none => exact Triple.value fun _ hpart => hpart
  | some string =>
      apply Triple.seq (tstr2cstr_triple string)
      intro cstr
      exact Triple.value fun _ hpart => hpart

theorem ofcFree_triple (p : Option ℕ) (string : Option String) :
    Triple (behind p string) (ofcFree p) fun _ => 1 := by
  cases p with
  | none =>
      cases string with
      | none => exact Triple.value fun _ hpart => hpart
      | some string => exact Triple.value fun _ hpart => hpart.1.elim
  | some p =>
      cases string with
      | none =>
          have hnone : Triple (behind (some p) none * 1) (free p) fun _ => 1 :=
            Triple.lift fun hfalse => hfalse.elim
          rwa [mul_one] at hnone
      | some string => exact free_triple p _

/-- What the buffers of a call hold. -/
def Buffers.holds (buffers : Buffers) (name : String) (uname : Option String)
    (strings : List (Option String)) : Assertion Cell :=
  pointsTo buffers.execArgv (pointers (strings ++ [none])) *
    (behind buffers.cuname uname * pointsTo buffers.cname [some (.text name)])

theorem toInt_succ {argc : Int32} (hsize : 0 ≤ (argc + 1).toInt) :
    (argc + 1).toInt = argc.toInt + 1 := by
  have hlow := argc.le_toInt
  have hhigh := argc.toInt_lt
  rw [Int32.toInt_add, Int.bmod_def] at hsize ⊢
  rw [show (1 : Int32).toInt = 1 from rfl] at hsize ⊢
  omega

section Prepare

variable (name : String) (uname : Option String) {argc : Int32} (argv : ℕ)
  {fields : Block Cell}

theorem prepare_triple {strings : List (Option String)}
    (harguments : arguments argc fields = some strings) :
    Triple (pointsTo argv fields) (prepare name uname argc argv) fun buffers =>
      buffers.holds name uname strings * pointsTo argv fields := by
  obtain ⟨⟨hargc, hsize⟩, hfirst⟩ := Option.ite_none_right_eq_some.mp harguments
  unfold prepare
  apply Triple.bind (one_mul _).symm (tstr2cstr_triple name)
  intro cname
  apply Triple.bind (one_mul _).symm (tstr2cstr?_triple uname)
  intro cuname
  have hmalloc : mallocArgv argc = malloc (argc.toInt.toNat + 1) := by
    rw [mallocArgv, if_pos hsize, toInt_succ hsize, Int.toNat_add hargc zero_le_one]
    rfl
  rw [hmalloc]
  apply Triple.bind (one_mul _).symm (malloc_triple _)
  intro execArgv
  have hcopy : Triple (pointsTo argv fields *
        pointsTo execArgv (List.replicate (argc.toInt.toNat + 1) none))
      (copyArgv execArgv argv 0 argc.toInt.toNat) fun _ =>
        pointsTo argv fields * pointsTo execArgv (copied strings 1) :=
    @copyArgv_triple execArgv argv _ fields [] strings hfirst
  apply Triple.bind (F := behind cuname uname * pointsTo cname [some (.text name)]) (by ac_rfl)
    hcopy
  intro _
  have hlength := length_firstPointers hfirst
  have hroom : strings.length < (copied strings 1).length := by simp [copied, length_pointers]
  have hstore := store_triple (p := execArgv) hroom (.pointer none)
  rw [copied_set, copied_zero, hlength] at hstore
  apply Triple.bind (F := pointsTo argv fields *
    (behind cuname uname * pointsTo cname [some (.text name)])) (by ac_rfl) hstore
  intro _
  apply Triple.value
  intro part hpart
  have hsame : Buffers.holds { cname := cname, cuname := cuname, execArgv := execArgv } name uname
      strings * pointsTo argv fields = pointsTo execArgv (pointers (strings ++ [none])) *
        (pointsTo argv fields * (behind cuname uname * pointsTo cname [some (.text name)])) := by
    rw [Buffers.holds]
    ac_rfl
  rwa [hsame]

theorem prepare_faults (hnone : arguments argc fields = none) :
    Faults (pointsTo argv fields) (prepare name uname argc argv) := by
  unfold prepare
  apply Faults.bind (one_mul _).symm (tstr2cstr_triple name)
  intro cname
  apply Faults.bind (one_mul _).symm (tstr2cstr?_triple uname)
  intro cuname
  unfold mallocArgv
  by_cases hsize : 0 ≤ (argc + 1).toInt
  · rw [if_pos hsize, toInt_succ hsize]
    apply Faults.bind (one_mul _).symm (malloc_triple _)
    intro execArgv
    by_cases hargc : 0 ≤ argc.toInt
    · have hfirst : firstPointers argc.toInt.toNat fields = none := by
        rwa [arguments, if_pos ⟨hargc, hsize⟩] at hnone
      have hcopy : Faults (pointsTo argv fields *
            pointsTo execArgv (List.replicate (argc.toInt.toNat + 1) none))
          (copyArgv execArgv argv 0 argc.toInt.toNat) :=
        @copyArgv_faults execArgv argv _ fields [] hfirst
      rw [Int.toNat_add hargc zero_le_one]
      apply Faults.first
      have hcommute : pointsTo execArgv (List.replicate (argc.toInt.toNat + 1) none) *
            (behind cuname uname * (pointsTo cname [some (.text name)] * pointsTo argv fields)) =
          pointsTo argv fields *
              pointsTo execArgv (List.replicate (argc.toInt.toNat + 1) none) *
            (behind cuname uname * pointsTo cname [some (.text name)]) := by
        ac_rfl
      exact hcommute ▸ hcopy.frame _
    · -- of a copy without elements not even the last can be written
      have hempty : (argc.toInt + 1).toNat = 0 := by omega
      have hnothing : argc.toInt.toNat = 0 := by omega
      rw [hempty, hnothing]
      have hcopy : Triple (pointsTo execArgv (List.replicate 0 none))
          (copyArgv execArgv argv 0 0) fun _ => pointsTo execArgv (List.replicate 0 none) :=
        Triple.value fun _ hpart => hpart
      apply Faults.bind rfl hcopy
      intro _
      apply Faults.first
      exact (store_faults (Nat.zero_le _) _).frame _
  · rw [if_neg hsize]
    apply Faults.first
    intro frame heap _
    rfl

end Prepare

/-! ## The three processes -/

section Processes

variable (os : Os) (credentials : Credentials) {name : String} {uname : Option String}
  {strings : List (Option String)} {buffers : Buffers}

/-- A call of `ofc_process_exec_impl`, in terms of the strings. -/
def request (name : String) (uname : Option String) (strings : List (Option String)) : Request :=
  { name := name, uname := uname, argv := upToNull strings }

theorem becomeUser_returns (p uname) (pid : ChildPid) (locals : Locals) :
    Returns (behind p uname) (becomeUser os credentials p)
      (Process.secondChild os (request name uname strings) credentials pid locals).exec.credentials
      (behind p uname) := by
  cases p with
  | none =>
      cases uname with
      | none => exact Returns.value rfl
      | some user => exact Triple.value fun _ hpart => hpart.1.elim
  | some p =>
      cases uname with
      | none =>
          have hnone : Returns (behind (some p) none * 1) (becomeUser os credentials (some p))
              (Process.secondChild os (request name none strings) credentials pid
                locals).exec.credentials (behind (some p) none) :=
            Triple.lift fun hfalse => hfalse.elim
          rwa [mul_one] at hnone
      | some user =>
          apply Triple.seqReturns (text_returns p user)
          apply Returns.value
          cases hlookup : os.getpwnam user with
          | none => simp [Process.secondChild, request, hlookup]
          | some passwd => simp [Process.secondChild, request, hlookup]

/-- The second child finds what the original process has put into the buffers. -/
theorem secondChild_returns (pid : ChildPid) (locals : Locals) :
    Returns (buffers.holds name uname strings) (secondChild os credentials pid locals buffers)
      (Process.secondChild os (request name uname strings) credentials pid locals)
      (buffers.holds name uname strings) := by
  unfold secondChild
  rw [Buffers.holds]
  apply Triple.bindReturns (mul_left_comm _ _ _)
    (becomeUser_returns os credentials buffers.cuname uname pid locals)
  apply Triple.bindReturns (F := behind buffers.cuname uname *
    pointsTo buffers.execArgv (pointers (strings ++ [none]))) (by ac_rfl) (text_returns _ name)
  apply Triple.bindReturns (F := behind buffers.cuname uname *
    pointsTo buffers.cname [some (.text name)]) (by ac_rfl)
    (readArgv_returns _ (vector_pointers strings))
  exact Returns.value rfl

theorem firstChild_returns (locals : Locals) :
    Returns (buffers.holds name uname strings) (firstChild os credentials locals buffers)
      (Process.firstChild os (request name uname strings) credentials locals)
      (buffers.holds name uname strings) := by
  unfold firstChild Process.firstChild
  match os.kill, os.secondFork with
  | some (.beforeFork _), _ | some (.afterFork _), none | none, none => exact Returns.value rfl
  | some (.afterFork _), some pid2 | none, some pid2 =>
      apply Triple.seqReturns (onCopy_returns (secondChild_returns os credentials pid2 locals))
      exact Returns.value rfl

theorem forkTwice_returns (table : HandleTable) (fresh : Handle) (initial : Locals) :
    Returns (buffers.holds name uname strings)
      (forkTwice os table fresh credentials initial buffers)
      (Process.ofcProcessExecImpl os table fresh credentials (request name uname strings) initial)
      (buffers.holds name uname strings) := by
  unfold forkTwice Process.ofcProcessExecImpl
  match os.firstFork with
  | none => exact Returns.value rfl
  | some pid =>
      apply Triple.seqReturns (onCopy_returns (firstChild_returns os credentials _))
      simp only
      repeat' split
      all_goals exact Returns.value rfl

end Processes

/-! ## The whole call -/

section Call

variable (os : Os) (table : HandleTable) (fresh : Handle) (credentials : Credentials)
  (name : String) (uname : Option String) {argc : Int32} {argv : ℕ} (initial : Locals)

/-- What is left of the buffers: nothing, unless the process has crashed. -/
def Left (crashed : Option AbnormalStatus) (name : String) (uname : Option String)
    (strings : List (Option String)) : Assertion Cell :=
  match crashed with
  | some _ => .any fun buffers : Buffers => buffers.holds name uname strings
  | none => 1

theorem release_triple (crashed : Option AbnormalStatus) (buffers : Buffers)
    (strings : List (Option String)) :
    Triple (buffers.holds name uname strings) (release crashed buffers) fun _ =>
      Left crashed name uname strings := by
  cases crashed with
  | some status => exact Triple.value fun _ hpart => ⟨buffers, hpart⟩
  | none =>
      show Triple _ (do free buffers.execArgv; ofcFree buffers.cuname; free buffers.cname) _
      apply Triple.bind rfl (free_triple _ _)
      intro _
      rw [one_mul]
      apply Triple.bind rfl (ofcFree_triple _ uname)
      intro _
      rw [one_mul]
      exact free_triple _ _

theorem execImpl_triple {fields : Block Cell} {strings : List (Option String)}
    (harguments : arguments argc fields = some strings) {execution : Execution}
    (hexecution : execution = Process.ofcProcessExecImpl os table fresh credentials
      (request name uname strings) initial) :
    Returns (pointsTo argv fields)
      (ofcProcessExecImpl os table fresh credentials name uname argc argv initial) execution
      (Left execution.crashed name uname strings * pointsTo argv fields) := by
  unfold ofcProcessExecImpl
  apply Triple.seq (prepare_triple name uname argv harguments)
  intro buffers
  apply Triple.bindReturns rfl (forkTwice_returns os credentials table fresh initial)
  rw [← hexecution]
  apply Triple.bind rfl (release_triple name uname execution.crashed buffers strings)
  intro _
  exact Returns.value rfl

/-- Both forks succeed, and the daemon is 616. -/
def exampleOs : Os :=
  { firstFork := some ⟨615, by decide⟩
    secondFork := some ⟨616, by decide⟩
    kill := none
    crash := none
    waitpid := true
    getpwnam := fun _ => some { pwUid := 501, pwGid := 20 }
    setgid := fun _ => true
    setuid := fun _ => true
    execve := true }

/-- Two strings, and an element that has not been written. -/
def exampleArgv : Block Cell :=
  [some (.pointer (some "daemon")), some (.pointer (some "-d")), none]

end Call

end OfcDarwin.Process.Memory
