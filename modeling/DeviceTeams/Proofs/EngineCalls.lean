import DeviceTeams.Proofs.Sharing
import DeviceTeams.Proofs.UnisonSolves
import DeviceTeams.Proofs.Uploads

/-!
# Calls of an engine by a lone lead

A lead that is alone in its group calls its engine, on whatever handles it has been given and in any
order. A call succeeds, or it is refused and leaves everything as it was. No call aborts: what a
solve reads has been checked by calls on other handles before it, and the handles keep what these
calls have found out.
-/
namespace DeviceTeams

variable {S : Type} {me : Nat}

/-- What a process has of an engine: resources, the handles that it was given, and buffers to
download into. -/
structure Desk (S : Type) where
  engine : Engine
  resources : List Resources
  matrices : List (MatrixHandle S)
  vectors : List (VectorHandle S)
  solvers : List (SolverHandle S)
  buffers : List (List S)

/-- A call of the engine. Resources, handles and buffers are given by their numbers. -/
inductive EngineCall (S : Type) where
  | startup
  | shutdown
  | createResources (leads : Group)
  | createMatrix (resources : Nat)
  | createVector (resources : Nat)
  | createSolver (resources : Nat) (settings : Settings S)
  | uploadMatrix (matrix globalRows : Nat) (block : Csr S) (partition : RowPartition)
  | setup (solver matrix : Nat)
  | bindVector (vector matrix : Nat)
  | uploadVector (vector : Nat) (data : List S)
  | downloadVector (vector buffer : Nat)
  | solve (solver rhs x : Nat)
  | status (solver : Nat)

inductive Reply where
  /-- There is nothing with such a number. -/
  | unknown
  | done
  | status (status : Status)

/-- The reply to a call and the desk after it, which is another one only if the call succeeds. -/
def Desk.settle {α : Type} (d : Desk S) (outcome : Attempt α) (change : α → Desk S) :
    Attempt Reply × Desk S :=
  match outcome with
  | .ok value => (.ok .done, change value)
  | .error failure => (.error failure, d)

def EngineCall.act [Scalar S] (d : Desk S) : EngineCall S → Program S (Attempt Reply × Desk S)
  | startup => pure (d.settle d.engine.startup fun engine => { d with engine })
  | shutdown => pure (d.settle d.engine.shutdown fun engine => { d with engine })
  | createResources leads => do
    let made ← (d.engine.createResources leads).run
    pure (d.settle made fun resources => { d with resources := d.resources ++ [resources] })
  | createMatrix number => pure <| match d.resources[number]? with
    | some resources => (.ok .done, { d with matrices := d.matrices ++ [.create resources] })
    | none => (.ok .unknown, d)
  | createVector number => pure <| match d.resources[number]? with
    | some _ => (.ok .done, { d with vectors := d.vectors ++ [.create] })
    | none => (.ok .unknown, d)
  | createSolver number settings => pure <| match d.resources[number]? with
    | some resources => (.ok .done, { d with solvers := d.solvers ++ [.create resources settings] })
    | none => (.ok .unknown, d)
  | uploadMatrix matrix globalRows block partition => pure <| match d.matrices[matrix]? with
    | some m =>
      d.settle (m.upload globalRows block partition) fun m =>
        { d with matrices := d.matrices.set matrix m }
    | none => (.ok .unknown, d)
  | setup solver matrix => pure <| match d.solvers[solver]?, d.matrices[matrix]? with
    | some s, some m => d.settle (s.setup m) fun s => { d with solvers := d.solvers.set solver s }
    | _, _ => (.ok .unknown, d)
  | bindVector vector matrix => pure <| match d.vectors[vector]?, d.matrices[matrix]? with
    | some v, some m => d.settle (v.bind m) fun v => { d with vectors := d.vectors.set vector v }
    | _, _ => (.ok .unknown, d)
  | uploadVector vector data => pure <| match d.vectors[vector]? with
    | some v => d.settle (v.upload data) fun v => { d with vectors := d.vectors.set vector v }
    | none => (.ok .unknown, d)
  | downloadVector vector buffer => pure <| match d.vectors[vector]?, d.buffers[buffer]? with
    | some v, some out =>
      d.settle (v.download out.length) fun data => { d with buffers := d.buffers.set buffer data }
    | _, _ => (.ok .unknown, d)
  | solve solver rhs x =>
    match d.solvers[solver]?, d.vectors[rhs]?, d.vectors[x]? with
    | some s, some b, some guess => do
      let (outcome, s, solution) ← s.solve b guess
      let after := { d with solvers := d.solvers.set solver s, vectors := d.vectors.set x solution }
      pure ((fun _ => .done) <$> outcome, after)
    | _, _, _ => pure (.ok .unknown, d)
  | status solver => pure <| match d.solvers[solver]? with
    | some s => (.status <$> s.lastStatus, d)
    | none => (.ok .unknown, d)

/-! ## What the handles keep -/

def Group.Alone (me : Nat) (leads : Group) : Prop := ∃ node, Together node {me} fun _ => leads

/-- The only member sits in the only seat. -/
theorem Group.Alone.seat {leads : Group} (alone : leads.Alone me) :
    leads.rank = 0 ∧ leads.size = 1 := by
  obtain ⟨node, t⟩ := alone
  have own : me ∈ ({me} : Finset Nat) := Finset.mem_singleton_self me
  have only : ∀ place < leads.hub.ranks.length, leads.rank = place := fun place below =>
    (t.seat me own place _ (List.getElem?_eq_getElem below)).2.2
  have below := t.rank_lt own
  have first := only 0 (Nat.zero_lt_of_lt below)
  refine ⟨first, ?_⟩
  rw [Group.size_eq]
  by_contra several
  have second := only 1 (by omega)
  omega

/-- A matrix of a lone lead holds all rows or none. -/
structure MatrixHandle.Kept (me : Nat) (m : MatrixHandle S) : Prop where
  alone : m.leads.Alone me
  valid : ∀ block, m.block = some block → block.validate = .ok ()
  columns : ∀ block, m.block = some block → block.ncols = m.globalRows
  rows : ∀ block, m.block = some block → m.firstRow = 0 ∧ block.nrows = m.globalRows
  /-- Vectors with an entry for each row fit into memory, since the pointers of the block do. -/
  room : m.globalRows * 8 < 2 ^ 63

theorem MatrixHandle.kept_create {r : Resources} (alone : r.leads.Alone me) :
    (create r : MatrixHandle S).Kept me :=
  ⟨alone, nofun, nofun, nofun, show 0 * 8 < 2 ^ 63 by decide⟩

structure SolverHandle.Kept [Scalar S] (me : Nat) (s : SolverHandle S) : Prop where
  alone : s.leads.Alone me
  prepared : ∀ system, s.system = some system → ∃ size, system.Prepared size ∧ size * 8 < 2 ^ 63

theorem SolverHandle.kept_create [Scalar S] {r : Resources} (alone : r.leads.Alone me)
    (settings : Settings S) :
    (create r settings).Kept me :=
  ⟨alone, nofun⟩

structure Desk.Kept [Scalar S] (me : Nat) (d : Desk S) : Prop where
  resources : ∀ r ∈ d.resources, r.leads.Alone me
  matrices : ∀ m ∈ d.matrices, m.Kept me
  solvers : ∀ s ∈ d.solvers, s.Kept me

/-- A call that a lone lead can make: its group has no other members, the block has been checked and
lies in memory, and the partition has been made from counts. -/
def EngineCall.Fits (me : Nat) : EngineCall S → Prop
  | createResources leads => leads.Alone me
  | uploadMatrix _ _ block partition =>
    block.validate = .ok () ∧ Word.request block.rowPointers.size 8 = .ok () ∧
    ∃ counts, RowPartition.ofCounts counts = .ok partition
  | _ => True

/-! ## How calls end -/

def EngineCall.OnVectors : EngineCall S → Prop
  | createVector _ | bindVector .. | uploadVector .. | downloadVector .. => True
  | _ => False

def EngineCall.asked (d : Desk S) : EngineCall S → Option Status
  | status solver => d.solvers[solver]?.bind (·.status)
  | _ => none

/-- The replies to the calls of a lone lead, and the desks after them. -/
inductive EngineCall.Ends [Scalar S] (me : Nat) (d : Desk S) :
    EngineCall S → Attempt Reply → Desk S → Prop
  | unknown {call : EngineCall S} : call.asked d = none → Ends me d call (.ok .unknown) d
  | refused {call : EngineCall S} {cause : Error} : call.asked d = none →
      Ends me d call (.error (.refused cause)) d
  | engine {call : EngineCall S} {engine : Engine} : call = .startup ∨ call = .shutdown →
      Ends me d call (.ok .done) { d with engine }
  | resources {leads : Group} {new : Resources} : new.leads.Alone me →
      Ends me d (.createResources leads) (.ok .done) { d with resources := d.resources ++ [new] }
  | matrix {number : Nat} {r : Resources} : d.resources[number]? = some r →
      Ends me d (.createMatrix number) (.ok .done) { d with matrices := d.matrices ++ [.create r] }
  | solver {number : Nat} {r : Resources} {settings : Settings S} : d.resources[number]? = some r →
      Ends me d (.createSolver number settings) (.ok .done)
      { d with solvers := d.solvers ++ [.create r settings] }
  | vectors {call : EngineCall S} {vectors : List (VectorHandle S)}
      {buffers : List (List S)} : call.OnVectors →
      Ends me d call (.ok .done) { d with vectors, buffers }
  | uploaded {matrix globalRows : Nat} {block : Csr S} {partition : RowPartition}
      {m : MatrixHandle S} :
      d.matrices[matrix]? = some m →
      MatrixHandle.Kept me { m with block := some block, firstRow := 0, globalRows } →
      Ends me d (.uploadMatrix matrix globalRows block partition) (.ok .done)
        { d with
          matrices := d.matrices.set matrix
            { m with block := some block, firstRow := 0, globalRows } }
  | setUp {solver matrix : Nat} {s : SolverHandle S} {m : MatrixHandle S} {block : Csr S}
      {system : System S} :
      d.solvers[solver]? = some s → d.matrices[matrix]? = some m → m.block = some block →
      System.prepare block 0 m.globalRows = .ok system →
      SolverHandle.Kept me { s with system := some system, status := none } →
      Ends me d (.setup solver matrix) (.ok .done)
        { d with solvers := d.solvers.set solver { s with system := some system, status := none } }
  | solved {solver rhs x : Nat} {s : SolverHandle S} {system : System S} {b guess : VectorHandle S}
      {status : Status} {iterations : Nat} {data : List S} :
      d.solvers[solver]? = some s → s.system = some system → d.vectors[rhs]? = some b →
      d.vectors[x]? = some guess →
      Completes {me} (fun _ => (BiCgStab.solve system s.leads s.settings b.data).start guess.data)
        (fun v => v me = (.ok (status, iterations), data)) →
      Ends me d (.solve solver rhs x) (.ok .done)
        { d with
          solvers := d.solvers.set solver { s with status := some status }
          vectors := d.vectors.set x { guess with data } }
  | told {solver : Nat} {status : Status} : (EngineCall.status solver).asked d = some status →
      Ends me d (.status solver) (.ok (.status status)) d

section

variable {d : Desk S}

/-- What is made of an outcome that is a value or a refusal. -/
theorem EngineCall.Ends.settle [Scalar S] {call : EngineCall S} {α : Type} {outcome : Attempt α}
    {change : α → Desk S} (other : call.asked d = none) (answered : outcome ≠ .error .aborted)
    (succeeds : ∀ value, outcome = .ok value → call.Ends me d (.ok .done) (change value)) :
    call.Ends me d (d.settle outcome change).1 (d.settle outcome change).2 := by
  rcases outcome with (cause | _) | value
  · exact .refused other
  · exact absurd rfl answered
  · exact succeeds value rfl

/-! ### What the calls check -/

theorem Engine.startup_answered (e : Engine) : e.startup ≠ .error .aborted := by
  rw [startup]
  split <;> rintro ⟨⟩

theorem Engine.shutdown_answered (e : Engine) : e.shutdown ≠ .error .aborted := by
  rw [shutdown]
  split <;> rintro ⟨⟩

theorem VectorHandle.bind_answered (v : VectorHandle S) (m : MatrixHandle S) :
    v.bind m ≠ .error .aborted := by
  rw [bind]
  split <;> rintro ⟨⟩

theorem VectorHandle.upload_answered (v : VectorHandle S) (data : List S) :
    v.upload data ≠ .error .aborted := by
  rw [upload]
  split
  · split <;> rintro ⟨⟩
  · rintro ⟨⟩

theorem VectorHandle.download_answered (v : VectorHandle S) (length : Nat) :
    v.download length ≠ .error .aborted := by
  rw [download]
  split <;> rintro ⟨⟩

theorem SolverHandle.checkSolve_answered (s : SolverHandle S) (rhs x : VectorHandle S) :
    s.checkSolve rhs x ≠ .error .aborted := by
  rw [checkSolve]
  split
  · rintro ⟨⟩
  · dsimp only
    split <;> rintro ⟨⟩

theorem SolverHandle.of_checkSolve {s : SolverHandle S} {rhs x : VectorHandle S} {system : System S}
    (checked : s.checkSolve rhs x = .ok system) :
    s.system = some system ∧ rhs.data.length = system.block.nrows ∧
      x.data.length = system.block.nrows := by
  rw [checkSolve] at checked
  split at checked
  · cases checked
  · next system' found =>
    dsimp only at checked
    split at checked
    · next lengths =>
      cases checked
      exact ⟨found, lengths⟩
    · cases checked

end

/-- An upload that a lone lead's engine takes is one of all rows, from the first row on. -/
theorem MatrixHandle.Kept.upload {m : MatrixHandle S} (kept : m.Kept me)
    {globalRows : Nat} {block : Csr S} {partition : RowPartition} (valid : block.validate = .ok ())
    (memory : Word.request block.rowPointers.size 8 = .ok ())
    (counted : ∃ counts, RowPartition.ofCounts counts = .ok partition) :
    m.upload globalRows block partition ≠ .error .aborted ∧
    ∀ m', m.upload globalRows block partition = .ok m' →
      m' = { m with block := some block, firstRow := 0, globalRows } ∧ m'.Kept me := by
  obtain ⟨counts, made⟩ := counted
  obtain ⟨first, size⟩ := kept.alone.seat
  obtain ⟨_, rfl⟩ := RowPartition.ofCounts_eq_ok_iff.mp made
  by_cases takes : m.Takes globalRows block.ncols block.nrows counts
  · have accepted := MatrixHandle.upload_accepts takes
    rw [first, List.take_zero, List.sum_nil] at accepted
    obtain ⟨square, total, teams, found⟩ := takes
    rw [first] at found
    have rows : block.nrows = globalRows := by
      obtain ⟨count, rfl⟩ := List.length_eq_one_iff.mp (teams.trans size)
      cases found
      simpa using total
    have laid := (Csr.validate_eq_ok_iff_wellStored.mp valid).2.toLaid
    have room := Word.request_eq_ok_iff.mp memory
    rw [laid.pointerCount] at room
    rw [accepted]
    constructor
    · rintro ⟨⟩
    rintro _ ⟨⟩
    refine ⟨rfl, kept.alone, ?_, ?_, ?_, by show globalRows * 8 < 2 ^ 63; omega⟩
    · rintro _ ⟨⟩
      exact valid
    · rintro _ ⟨⟩
      exact square
    · rintro _ ⟨⟩
      exact ⟨rfl, rows⟩
  · have seat : m.leads.rank < m.leads.size := by omega
    obtain ⟨cause, refused⟩ := MatrixHandle.upload_refuses seat takes
    rw [refused]
    constructor
    · rintro ⟨⟩
    · rintro _ ⟨⟩

variable [Scalar S]

/-- What a lone lead's matrix holds can be prepared for solving. -/
theorem MatrixHandle.Kept.prepare {m : MatrixHandle S} (kept : m.Kept me) {block : Csr S}
    (uploaded : m.block = some block) :
    ∃ system : System S, System.prepare block 0 m.globalRows = .ok system ∧
      system.Prepared m.globalRows := by
  have valid := kept.valid block uploaded
  have columns := kept.columns block uploaded
  obtain ⟨first, rows⟩ := kept.rows block uploaded
  obtain ⟨stored, same⟩ := Csr.eq_ofRows_of_validate valid
  obtain ⟨diagonal, prepared⟩ := System.prepare_ofRows block.ncols stored 0 m.globalRows
  rw [← same] at prepared
  have inside : 0 + block.nrows ≤ m.globalRows := by omega
  exact ⟨_, prepared, valid, columns, inside, prepared⟩

theorem SolverHandle.Kept.setup {s : SolverHandle S} (kept : s.Kept me) {m : MatrixHandle S}
    (whole : m.Kept me) :
    s.setup m ≠ .error .aborted ∧ ∀ s', s.setup m = .ok s' → ∃ block system, m.block = some block ∧
      System.prepare block 0 m.globalRows = .ok system ∧
      s' = { s with system := some system, status := none } ∧
      s'.Kept me := by
  rw [SolverHandle.setup]
  cases uploaded : m.block with
  | none =>
    constructor
    · rintro ⟨⟩
    · rintro _ ⟨⟩
  | some block =>
    obtain ⟨system, prepared, ready⟩ := whole.prepare uploaded
    have first := (whole.rows block uploaded).1
    simp only [first, prepared, Attempt.ok_bind, Attempt.pure_eq]
    constructor
    · rintro ⟨⟩
    rintro _ ⟨⟩
    refine ⟨block, system, rfl, prepared, rfl, kept.alone, ?_⟩
    rintro _ ⟨⟩
    exact ⟨_, ready, whole.room⟩

/-- A lone lead comes to the end of every solve that is not refused. -/
theorem SolverHandle.Kept.solve {s : SolverHandle S} (kept : s.Kept me) {rhs x : VectorHandle S}
    {system : System S} (checked : s.checkSolve rhs x = .ok system) :
    ∃ (status : Status) (iterations : Nat) (data : List S),
      Completes {me} (fun _ => (BiCgStab.solve system s.leads s.settings rhs.data).start x.data)
        (fun v => v me = (.ok (status, iterations), data)) ∧
      Completes {me} (fun _ => s.solve rhs x)
        (fun v => v me = (.ok (), { s with status := some status }, { x with data })) := by
  obtain ⟨found, right, guess⟩ := SolverHandle.of_checkSolve checked
  obtain ⟨size, prepared, room⟩ := kept.prepared system found
  obtain ⟨node, together⟩ := kept.alone
  have own : me ∈ ({me} : Finset Nat) := Finset.mem_singleton_self me
  have ensemble : Ensemble node {me} (fun _ => s.leads) s.leads.hub size fun _ => system :=
    ⟨together, fun _ _ => rfl, fun _ _ => prepared⟩
  have solved :=
    (ensemble.solve_joint (b := fun _ => rhs.data) (x := fun _ => x.data) (fun _ _ => right)
    (fun _ _ => guess) s.settings ⟨me, own⟩ room).completes
  refine ⟨_, _, _, solved.mono fun v values => values me own, ?_⟩
  rw [SolverHandle.solve, checked]
  exact solved.bind_eq
    (.of_finished (v := fun _ => (.ok (), { s with status := some _ }, { x with data := _ }))
    (fun _ _ => rfl) rfl)

theorem set_of_getElem? {α : Type} {items : List α} {place : Nat} {item : α}
    (found : items[place]? = some item) :
    items.set place item = items := by
  obtain ⟨bound, rfl⟩ := List.getElem?_eq_some_iff.mp found
  exact List.set_getElem_self bound

/-- A running engine gives a lone lead resources of its own. -/
theorem EngineCall.ends_createResources (d : Desk S) {leads : Group} (alone : leads.Alone me) :
    Completes {me} (fun _ => (createResources leads).act d)
      fun v => (createResources leads).Ends me d (v me).1 (v me).2 := by
  have own : me ∈ ({me} : Finset Nat) := Finset.mem_singleton_self me
  by_cases running : d.engine.running = true
  · obtain ⟨node, t⟩ := alone
    have made := (t.createResources (S := S) (e := fun _ => d.engine) fun _ _ => running).succeeds
    refine Completes.map made fun v ⟨w, values, together, _⟩ => ?_
    dsimp only
    rw [values me own]
    refine .resources ⟨node, together.congr fun rank inside => ?_⟩
    rw [Finset.mem_singleton.mp inside]
  · have refused : (createResources leads).act d =
        .finished (.error (EngineError.resourcesBeforeStartup : Failure), d) := by
      rw [act, Engine.createResources, if_neg running]
      rfl
    exact .of_finished (fun _ _ => refused) (.refused rfl)

/-- A solve is refused and leaves the desk as it was, or it is the iteration for the system of the
solver. -/
theorem EngineCall.ends_solve {d : Desk S} (kept : d.Kept me) (solver rhs x : Nat) :
    Completes {me} (fun _ => (solve solver rhs x).act d) fun v =>
      (solve solver rhs x).Ends me d (v me).1 (v me).2 := by
  rw [act]
  cases found : d.solvers[solver]? with
  | none => exact .of_finished (fun _ _ => rfl) (.unknown rfl)
  | some s =>
    cases right : d.vectors[rhs]? with
    | none => exact .of_finished (fun _ _ => rfl) (.unknown rfl)
    | some b =>
      cases start : d.vectors[x]? with
      | none => exact .of_finished (fun _ _ => rfl) (.unknown rfl)
      | some guess =>
        cases checked : s.checkSolve b guess with
        | error failure =>
          have same : d =
              { d with solvers := d.solvers.set solver s, vectors := d.vectors.set x guess } := by
            rw [set_of_getElem? found, set_of_getElem? start]
          have refused : s.solve b guess = .finished (.error failure, s, guess) := by
            rw [SolverHandle.solve, checked]
            rfl
          refine .of_finished (v := fun _ => (.error failure, d)) (fun _ _ => ?_) ?_
          · simp only [refused, Program.finished_bind]
            exact congrArg (fun desk => Program.finished (Except.error failure, desk)) same.symm
          · cases failure with
            | refused cause => exact .refused rfl
            | aborted => exact absurd checked (s.checkSolve_answered b guess)
        | ok system =>
          have ready := kept.solvers s (List.mem_of_getElem? found)
          obtain ⟨status, iterations, data, finds, ends⟩ := ready.solve checked
          refine Completes.map ends fun v value => ?_
          dsimp only
          rw [value]
          exact .solved found (SolverHandle.of_checkSolve checked).1 right start finds

def EngineCall.EndsAtOnce (me : Nat) (d : Desk S) (call : EngineCall S) : Prop :=
  ∃ ended, call.act d = .finished ended ∧ call.Ends me d ended.1 ended.2

theorem EngineCall.EndsAtOnce.completes {d : Desk S} {call : EngineCall S}
    (ends : call.EndsAtOnce me d) :
    Completes {me} (fun _ => call.act d) fun v => call.Ends me d (v me).1 (v me).2 := by
  obtain ⟨ended, finished, holds⟩ := ends
  exact .of_finished (fun _ _ => finished) holds

theorem EngineCall.ends_startup (d : Desk S) : startup.EndsAtOnce me d :=
  ⟨_, rfl, .settle rfl d.engine.startup_answered fun _ _ => .engine (.inl rfl)⟩

theorem EngineCall.ends_shutdown (d : Desk S) : shutdown.EndsAtOnce me d :=
  ⟨_, rfl, .settle rfl d.engine.shutdown_answered fun _ _ => .engine (.inr rfl)⟩

theorem EngineCall.ends_createMatrix (d : Desk S) (number : Nat) :
    (createMatrix number).EndsAtOnce me d := by
  refine ⟨_, rfl, ?_⟩
  cases found : d.resources[number]? with
  | none => exact .unknown rfl
  | some resources => exact .matrix found

theorem EngineCall.ends_createSolver (d : Desk S) (number : Nat) (settings : Settings S) :
    (createSolver number settings).EndsAtOnce me d := by
  refine ⟨_, rfl, ?_⟩
  cases found : d.resources[number]? with
  | none => exact .unknown rfl
  | some resources => exact .solver found

/-- An upload that the engine takes leaves a matrix with all rows. -/
theorem EngineCall.ends_uploadMatrix {d : Desk S} (kept : d.Kept me)
    {matrix globalRows : Nat} {block : Csr S} {partition : RowPartition}
    (fits : (uploadMatrix matrix globalRows block partition).Fits me) :
    (uploadMatrix matrix globalRows block partition).EndsAtOnce me d := by
  refine ⟨_, rfl, ?_⟩
  cases found : d.matrices[matrix]? with
  | none => exact .unknown rfl
  | some m =>
    obtain ⟨valid, memory, counted⟩ := fits
    obtain ⟨answered, takes⟩ :=
      (kept.matrices m (List.mem_of_getElem? found)).upload valid memory counted
    refine .settle rfl answered fun m' accepted => ?_
    obtain ⟨rfl, keeps⟩ := takes m' accepted
    exact .uploaded found keeps

/-- A setup is refused as long as the matrix holds nothing, and prepares what it holds otherwise. -/
theorem EngineCall.ends_setup {d : Desk S} (kept : d.Kept me) (solver matrix : Nat) :
    (setup solver matrix).EndsAtOnce me d := by
  refine ⟨_, rfl, ?_⟩
  cases found : d.solvers[solver]? with
  | none => exact .unknown rfl
  | some s =>
    cases held : d.matrices[matrix]? with
    | none => exact .unknown rfl
    | some m =>
      have whole := kept.matrices m (List.mem_of_getElem? held)
      obtain ⟨answered, prepares⟩ := (kept.solvers s (List.mem_of_getElem? found)).setup whole
      refine .settle rfl answered fun s' accepted => ?_
      obtain ⟨block, system, uploaded, prepared, rfl, keeps⟩ := prepares s' accepted
      exact .setUp found held uploaded prepared keeps

/-- Calls on vectors are checked by the vectors alone. -/
theorem EngineCall.ends_onVectors (d : Desk S) {call : EngineCall S} (on : call.OnVectors) :
    call.EndsAtOnce me d := by
  cases call with
  | createVector number =>
    refine ⟨_, rfl, ?_⟩
    cases d.resources[number]? with
    | none => exact .unknown rfl
    | some resources => exact .vectors trivial
  | bindVector vector matrix =>
    refine ⟨_, rfl, ?_⟩
    cases d.vectors[vector]? with
    | none => exact .unknown rfl
    | some v =>
      cases d.matrices[matrix]? with
      | none => exact .unknown rfl
      | some m => exact .settle rfl (v.bind_answered m) fun _ _ => .vectors trivial
  | uploadVector vector data =>
    refine ⟨_, rfl, ?_⟩
    cases d.vectors[vector]? with
    | none => exact .unknown rfl
    | some v => exact .settle rfl (v.upload_answered data) fun _ _ => .vectors trivial
  | downloadVector vector buffer =>
    refine ⟨_, rfl, ?_⟩
    cases d.vectors[vector]? with
    | none => exact .unknown rfl
    | some v =>
      cases d.buffers[buffer]? with
      | none => exact .unknown rfl
      | some out => exact .settle rfl (v.download_answered _) fun _ _ => .vectors trivial
  | _ => exact on.elim

/-- The status is told if there is one, and the question is refused or unknown otherwise. -/
theorem EngineCall.ends_status (d : Desk S) (solver : Nat) : (status solver).EndsAtOnce me d := by
  refine ⟨_, rfl, ?_⟩
  cases found : d.solvers[solver]? with
  | none => exact .unknown (by rw [asked, found, Option.bind_none])
  | some s =>
    have asks : (status solver).asked d = s.status := by rw [asked, found, Option.bind_some]
    dsimp only
    rw [SolverHandle.lastStatus]
    cases last : s.status with
    | none => exact .refused (asks.trans last)
    | some status => exact .told (asks.trans last)

/-- Every call of a lone lead ends in one of these ways. -/
theorem EngineCall.ends {d : Desk S} (kept : d.Kept me) {call : EngineCall S}
    (fits : call.Fits me) :
    Completes {me} (fun _ => call.act d) fun v => call.Ends me d (v me).1 (v me).2 := by
  cases call with
  | createResources leads => exact ends_createResources d fits
  | solve solver rhs x => exact ends_solve kept solver rhs x
  | startup => exact (ends_startup d).completes
  | shutdown => exact (ends_shutdown d).completes
  | createMatrix number => exact (ends_createMatrix d number).completes
  | createSolver number settings => exact (ends_createSolver d number settings).completes
  | uploadMatrix => exact (ends_uploadMatrix kept fits).completes
  | setup solver matrix => exact (ends_setup kept solver matrix).completes
  | status solver => exact (ends_status d solver).completes
  | createVector | bindVector | uploadVector | downloadVector =>
    exact EndsAtOnce.completes (ends_onVectors d trivial)

/-- Whatever a call does, all handles are kept. -/
theorem EngineCall.Ends.kept {d after : Desk S} {call : EngineCall S} {reply : Attempt Reply}
    (ends : call.Ends me d reply after) (kept : d.Kept me) : after.Kept me := by
  obtain ⟨resources, matrices, solvers⟩ := kept
  cases ends with
  | unknown | refused | engine | vectors | told => exact ⟨resources, matrices, solvers⟩
  | resources alone =>
    refine ⟨fun r member => ?_, matrices, solvers⟩
    rcases List.mem_append.mp member with old | new
    · exact resources r old
    · exact List.mem_singleton.mp new ▸ alone
  | @matrix number r found =>
    refine ⟨resources, fun m member => ?_, solvers⟩
    rcases List.mem_append.mp member with old | new
    · exact matrices m old
    · obtain rfl := List.mem_singleton.mp new
      exact MatrixHandle.kept_create (resources r (List.mem_of_getElem? found))
  | @solver number r settings found =>
    refine ⟨resources, matrices, fun s member => ?_⟩
    rcases List.mem_append.mp member with old | new
    · exact solvers s old
    · obtain rfl := List.mem_singleton.mp new
      exact SolverHandle.kept_create (resources r (List.mem_of_getElem? found)) settings
  | uploaded _ keeps =>
    refine ⟨resources, fun m member => ?_, solvers⟩
    rcases List.mem_or_eq_of_mem_set member with old | rfl
    · exact matrices m old
    · exact keeps
  | setUp _ _ _ _ keeps =>
    refine ⟨resources, matrices, fun s member => ?_⟩
    rcases List.mem_or_eq_of_mem_set member with old | rfl
    · exact solvers s old
    · exact keeps
  | @solved solver rhs x s system b guess status iterations data found =>
    refine ⟨resources, matrices, fun s' member => ?_⟩
    rcases List.mem_or_eq_of_mem_set member with old | rfl
    · exact solvers s' old
    · have keeps := solvers s (List.mem_of_getElem? found)
      exact ⟨keeps.alone, keeps.prepared⟩

end DeviceTeams
