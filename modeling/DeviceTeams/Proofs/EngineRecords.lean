import DeviceTeams.Proofs.EngineCalls

/-!
# Records of engine calls

The calls that a lone lead makes one after the other are put on record, with the desk before and
after each of them. What a call on a solver comes to can be read off the record: whether there is a
status to tell, and which block a solve is for.
-/
namespace DeviceTeams

variable {S : Type} {me : Nat}

structure EngineStep (S : Type) where
  before : Desk S
  call : EngineCall S
  reply : Attempt Reply
  after : Desk S

def Desk.blank (engine : Engine) (buffers : List (List S)) : Desk S :=
  ⟨engine, [], [], [], [], buffers⟩

/-- Makes calls one after the other, whatever the replies are, and keeps a record of them. -/
def EngineCall.makeAll [Scalar S] : List (EngineCall S) → Desk S → Program S (List (EngineStep S))
  | [], _ => pure []
  | call :: rest, d => do
    let (reply, after) ← call.act d
    let later ← makeAll rest after
    pure (⟨d, call, reply, after⟩ :: later)

/-! ## What a record says -/

namespace EngineStep

def Uploads (matrix : Nat) (step : EngineStep S) : Prop :=
  step.reply = .ok .done ∧ ∃ globalRows block partition, step.call =
    .uploadMatrix matrix globalRows block partition

def SetsUp (solver : Nat) (step : EngineStep S) : Prop :=
  step.reply = .ok .done ∧ ∃ matrix, step.call = .setup solver matrix

def Solves (solver : Nat) (step : EngineStep S) : Prop :=
  step.reply = .ok .done ∧ ∃ rhs x, step.call = .solve solver rhs x

end EngineStep

/-- The last step of some kind in a record, between what came before it and what came after it. -/
structure Last (kind : EngineStep S → Prop) (past front : List (EngineStep S)) (step : EngineStep S)
    (rest : List (EngineStep S)) : Prop where
  parts : past = front ++ step :: rest
  holds : kind step
  none_later : ∀ later ∈ rest, ¬ kind later

/-- The solver has been set up, and it has solved since it was set up last. -/
def SolvedSince (past : List (EngineStep S)) (solver : Nat) : Prop :=
  ∃ front setup rest, Last (EngineStep.SetsUp solver) past front setup rest ∧
    ∃ later ∈ rest, later.Solves solver

/-- The system that the solver was set up for last: it comes from the block that had been uploaded
last at that time. -/
inductive SetUpFor [Scalar S] (past : List (EngineStep S)) (solver : Nat) : System S → Prop
  | intro {front rest front' rest' : List (EngineStep S)} {setup upload : EngineStep S}
      {matrix globalRows : Nat} {block : Csr S} {partition : RowPartition} {system : System S} :
      Last (EngineStep.SetsUp solver) past front setup rest → setup.call = .setup solver matrix →
      Last (EngineStep.Uploads matrix) front front' upload rest' →
      upload.call = .uploadMatrix matrix globalRows block partition →
      System.prepare block 0 globalRows = .ok system → SetUpFor past solver system

/-- A step after others does what the record of these says. -/
structure EngineStep.Sound [Scalar S] (me : Nat) (past : List (EngineStep S))
    (step : EngineStep S) : Prop where
  answered : step.reply ≠ .error .aborted
  unchanged : ∀ failure, step.reply = .error failure → step.after = step.before
  tells_iff : ∀ solver, step.call = .status solver →
    ((∃ status, step.reply = .ok (.status status)) ↔ SolvedSince past solver)
  /-- A solve is the iteration for the system that the solver was set up for last. -/
  solves : ∀ solver rhs x, step.call = .solve solver rhs x → step.reply = .ok .done →
    ∃ (s : SolverHandle S) (b guess : VectorHandle S) (system : System S) (status :
      Status) (iterations : Nat)
      (data : List S), step.before.solvers[solver]? = some s ∧ step.before.vectors[rhs]? = some b ∧
        step.before.vectors[x]? = some guess ∧ SetUpFor past solver system ∧
        Completes {me} (fun _ => (BiCgStab.solve system s.leads s.settings b.data).start guess.data)
          (fun v => v me = (.ok (status, iterations), data)) ∧
        step.after = { step.before with
          solvers := step.before.solvers.set solver { s with status := some status }
          vectors := step.before.vectors.set x { guess with data } }

/-! ## One more step -/

section

variable {kind : EngineStep S → Prop} {past front rest : List (EngineStep S)}
  {step last : EngineStep S} {solver : Nat}

/-- A step of the kind is the last one of the kind. -/
theorem last_concat_iff (holds : kind step) :
    Last kind (past ++ [step]) front last rest ↔ front = past ∧ last = step ∧ rest = [] := by
  constructor
  · rintro ⟨parts, _, none_later⟩
    rcases List.eq_nil_or_concat rest with rfl | ⟨rest', final, rfl⟩
    · obtain ⟨rfl, same⟩ := List.append_inj' parts rfl
      cases same
      exact ⟨rfl, rfl, rfl⟩
    · have same : step = final := by
        rw [List.concat_eq_append, ← List.cons_append, ← List.append_assoc] at parts
        exact List.singleton_inj.mp (List.append_inj' parts rfl).2
      exact absurd (same ▸ holds) (none_later final (by simp))
  · rintro ⟨rfl, rfl, rfl⟩
    exact ⟨rfl, holds, List.forall_mem_nil _⟩

/-- A step of another kind comes after the last one of the kind. -/
theorem last_concat_other_iff (other : ¬ kind step) :
    Last kind (past ++ [step]) front last rest ↔ ∃ rest', rest = rest' ++ [step] ∧
    Last kind past front last rest' := by
  constructor
  · rintro ⟨parts, holds, none_later⟩
    rcases List.eq_nil_or_concat rest with rfl | ⟨rest', final, rfl⟩
    · have same := List.singleton_inj.mp (List.append_inj' parts rfl).2
      exact absurd (same ▸ holds) other
    · rw [List.concat_eq_append] at parts none_later ⊢
      rw [← List.cons_append, ← List.append_assoc] at parts
      obtain ⟨rfl, same⟩ := List.append_inj' parts rfl
      cases same
      exact ⟨rest', rfl, rfl, holds, fun later member =>
        none_later later (List.mem_append_left _ member)⟩
  · rintro ⟨rest', rfl, rfl, holds, none_later⟩
    refine ⟨by simp, holds, fun later member => ?_⟩
    rcases List.mem_append.mp member with old | new
    · exact none_later later old
    · exact List.mem_singleton.mp new ▸ other

theorem Last.later (found : Last kind past front last rest) (other : ¬ kind step) :
    Last kind (past ++ [step]) front last (rest ++ [step]) :=
  (last_concat_other_iff other).mpr ⟨rest, rfl, found⟩

theorem solvedSince_concat_other_iff (other : ¬ step.SetsUp solver) (idle : ¬ step.Solves solver) :
    SolvedSince (past ++ [step]) solver ↔ SolvedSince past solver := by
  constructor
  · rintro ⟨front, setup, rest, found, later, member, solves⟩
    obtain ⟨rest', rfl, found'⟩ := (last_concat_other_iff other).mp found
    rcases List.mem_append.mp member with old | new
    · exact ⟨front, setup, rest', found', later, old, solves⟩
    · exact absurd (List.mem_singleton.mp new ▸ solves) idle
  · rintro ⟨front, setup, rest, found, later, member, solves⟩
    exact ⟨front, setup, _, found.later other, later, List.mem_append_left _ member, solves⟩

theorem not_solvedSince_concat (setsUp : step.SetsUp solver) :
    ¬ SolvedSince (past ++ [step]) solver := by
  rintro ⟨front, setup, rest, found, later, member, _⟩
  obtain ⟨_, _, rfl⟩ := (last_concat_iff setsUp).mp found
  cases member

end

/-! ## What is on record about the handles -/

variable [Scalar S]

def UploadedLast (past : List (EngineStep S)) (matrix : Nat) (m : MatrixHandle S) : Prop :=
  ∀ block, m.block = some block → ∃ front upload rest partition,
    Last (EngineStep.Uploads matrix) past front upload rest ∧
      upload.call = .uploadMatrix matrix m.globalRows block partition

structure SolvedLast (past : List (EngineStep S)) (solver : Nat) (s : SolverHandle S) : Prop where
  system : ∀ system, s.system = some system → SetUpFor past solver system
  status : s.status.isSome ↔ SolvedSince past solver

structure OnRecord (past : List (EngineStep S)) (d : Desk S) : Prop where
  matrices : ∀ matrix m, d.matrices[matrix]? = some m → UploadedLast past matrix m
  solvers : ∀ solver s, d.solvers[solver]? = some s → SolvedLast past solver s
  /-- No solver was set up before it was created. -/
  created : ∀ step ∈ past, ∀ solver, step.SetsUp solver → solver < d.solvers.length

section

variable {past : List (EngineStep S)} {d after : Desk S} {step : EngineStep S} {matrix solver : Nat}

omit [Scalar S] in
theorem UploadedLast.later {m : MatrixHandle S} (told : UploadedLast past matrix m)
    (other : ¬ step.Uploads matrix) :
    UploadedLast (past ++ [step]) matrix m := by
  intro block uploaded
  obtain ⟨front, upload, rest, partition, found, call⟩ := told block uploaded
  exact ⟨front, upload, _, partition, found.later other, call⟩

theorem SetUpFor.later {system : System S} (told : SetUpFor past solver system)
    (other : ¬ step.SetsUp solver) :
    SetUpFor (past ++ [step]) solver system := by
  cases told with
  | intro found call uploaded upload prepared =>
    exact .intro (found.later other) call uploaded upload prepared

theorem SolvedLast.later {s : SolverHandle S} (told : SolvedLast past solver s)
    (other : ¬ step.SetsUp solver) (idle : ¬ step.Solves solver) :
    SolvedLast (past ++ [step]) solver s :=
  ⟨fun system found => (told.system system found).later other,
    told.status.trans (solvedSince_concat_other_iff other idle).symm⟩

omit [Scalar S] in
theorem not_solvedSince_of_uncreated {count : Nat}
    (created : ∀ step ∈ past, ∀ solver, step.SetsUp solver → solver < count)
    (beyond : count ≤ solver) :
    ¬ SolvedSince past solver := by
  rintro ⟨front, setup, rest, found, _⟩
  have member : setup ∈ past := found.parts ▸ List.mem_append_right _ List.mem_cons_self
  exact absurd (created setup member solver found.holds) (Nat.not_lt.mpr beyond)

def EngineStep.Aside (step : EngineStep S) : Prop :=
  ∀ number, ¬ step.Uploads number ∧ ¬ step.SetsUp number ∧ ¬ step.Solves number

omit [Scalar S] in
theorem EngineStep.Aside.of_reply (other : step.reply ≠ .ok .done) : step.Aside :=
  fun _ => ⟨fun h => other h.1, fun h => other h.1, fun h => other h.1⟩

def EngineCall.OnSystems : EngineCall S → Prop
  | uploadMatrix .. | setup .. | solve .. => True
  | _ => False

omit [Scalar S] in
theorem EngineStep.Aside.of_call (other : ¬ step.call.OnSystems) : step.Aside := by
  refine fun number => ⟨?_, ?_, ?_⟩
  · rintro ⟨_, _, _, _, same⟩
    exact other (same ▸ trivial)
  · rintro ⟨_, _, same⟩
    exact other (same ▸ trivial)
  · rintro ⟨_, _, _, same⟩
    exact other (same ▸ trivial)

omit [Scalar S] in
theorem EngineCall.OnVectors.not_onSystems {call : EngineCall S} (vectors : call.OnVectors) :
    ¬ call.OnSystems := by
  cases call with
  | createVector | bindVector | uploadVector | downloadVector => exact id
  | _ => exact absurd vectors id

section

variable {before after : Desk S} {reply : Attempt Reply} {number : Nat}

omit [Scalar S] in
/-- An upload is nothing else. -/
theorem EngineStep.upload_only {matrix globalRows : Nat} {block : Csr S}
    {partition : RowPartition} :
    ¬ SetsUp number ⟨before, .uploadMatrix matrix globalRows block partition, reply, after⟩ ∧
      ¬ Solves number ⟨before, .uploadMatrix matrix globalRows block partition, reply, after⟩ :=
  ⟨nofun, nofun⟩

omit [Scalar S] in
/-- A setup is nothing else. -/
theorem EngineStep.setup_only {matrix : Nat} :
    ¬ Uploads number ⟨before, .setup solver matrix, reply, after⟩ ∧
    ¬ Solves number ⟨before, .setup solver matrix, reply, after⟩ :=
  ⟨nofun, nofun⟩

omit [Scalar S] in
/-- A solve is nothing else. -/
theorem EngineStep.solve_only {rhs x : Nat} :
    ¬ Uploads number ⟨before, .solve solver rhs x, reply, after⟩ ∧
    ¬ SetsUp number ⟨before, .solve solver rhs x, reply, after⟩ :=
  ⟨nofun, nofun⟩

end

/-- A desk stays on record if every handle is as it was, with no call on it, or is told by the
longer record. -/
theorem OnRecord.concat (record : OnRecord past d)
    (matrices : ∀ matrix m, after.matrices[matrix]? = some m →
      (d.matrices[matrix]? = some m ∧ ¬ step.Uploads matrix) ∨
      UploadedLast (past ++ [step]) matrix m)
    (solvers : ∀ solver s, after.solvers[solver]? = some s →
      (d.solvers[solver]? = some s ∧ ¬ step.SetsUp solver ∧ ¬ step.Solves solver) ∨
      SolvedLast (past ++ [step]) solver s)
    (grows : d.solvers.length ≤ after.solvers.length)
    (created : ∀ solver, step.SetsUp solver → solver < d.solvers.length) :
    OnRecord (past ++ [step]) after := by
  constructor
  · intro matrix m found
    rcases matrices matrix m found with ⟨old, other⟩ | told
    · exact (record.matrices matrix m old).later other
    · exact told
  · intro solver s found
    rcases solvers solver s found with ⟨old, other, idle⟩ | told
    · exact (record.solvers solver s old).later other idle
    · exact told
  · intro step' member solver setsUp
    rcases List.mem_append.mp member with old | new
    · exact Nat.lt_of_lt_of_le (record.created step' old solver setsUp) grows
    · exact Nat.lt_of_lt_of_le (created solver (List.mem_singleton.mp new ▸ setsUp)) grows

end

theorem found_concat {α : Type} {items : List α} {item found : α} {place : Nat}
    (here : (items ++ [item])[place]? = some found) :
    items[place]? = some found ∨ (place = items.length ∧ found = item) := by
  rcases Nat.lt_or_ge place items.length with inside | beyond
  · rw [List.getElem?_append_left inside] at here
    exact .inl here
  · rw [List.getElem?_append_right beyond, List.getElem?_singleton] at here
    split at here
    · next first => exact .inr ⟨by omega, (Option.some.inj here).symm⟩
    · cases here

theorem found_set {α : Type} {items : List α} {item found : α} {place other : Nat}
    (here : (items.set place item)[other]? = some found) :
    (other ≠ place ∧ items[other]? = some found) ∨ (other = place ∧ found = item) := by
  rw [List.getElem?_set] at here
  split at here
  · next same =>
    split at here
    · exact .inr ⟨same.symm, (Option.some.inj here).symm⟩
    · cases here
  · next differ => exact .inl ⟨Ne.symm differ, here⟩

section

variable {past : List (EngineStep S)} {d after : Desk S} {call : EngineCall S}
  {reply : Attempt Reply}

/-- A step aside leaves on record what it does not change. -/
theorem OnRecord.aside {step : EngineStep S} (record : OnRecord past d) (aside : step.Aside)
    (matrices : after.matrices = d.matrices) (solvers : after.solvers = d.solvers) :
    OnRecord (past ++ [step]) after :=
  record.concat (fun matrix _ found => .inl ⟨matrices ▸ found, (aside matrix).1⟩)
    (fun solver _ found => .inl ⟨solvers ▸ found, (aside solver).2⟩) (solvers ▸ Nat.le_refl _)
    fun solver setsUp => absurd setsUp (aside solver).2.1

theorem OnRecord.createdMatrix (record : OnRecord past d) (number : Nat) (r : Resources)
    (changes : after = { d with matrices := d.matrices ++ [.create r] }) :
    OnRecord (past ++ [⟨d, .createMatrix number, reply, after⟩]) after := by
  have aside : EngineStep.Aside ⟨d, .createMatrix number, reply, after⟩ := .of_call id
  subst changes
  refine record.concat (fun matrix m found => ?_)
    (fun solver s found => .inl ⟨found, (aside solver).2⟩)
    (Nat.le_refl _) fun solver setsUp => absurd setsUp (aside solver).2.1
  rcases found_concat found with old | ⟨_, rfl⟩
  · exact .inl ⟨old, (aside matrix).1⟩
  · refine .inr ?_
    rintro _ ⟨⟩

theorem OnRecord.createdSolver (record : OnRecord past d) (number : Nat) (r : Resources)
    (settings : Settings S)
    (changes : after = { d with solvers := d.solvers ++ [.create r settings] }) :
    OnRecord (past ++ [⟨d, .createSolver number settings, reply, after⟩]) after := by
  have aside : EngineStep.Aside ⟨d, .createSolver number settings, reply, after⟩ := .of_call id
  subst changes
  refine record.concat (fun matrix m found => .inl ⟨found, (aside matrix).1⟩)
    (fun solver s found => ?_) (by simp) fun solver setsUp => absurd setsUp (aside solver).2.1
  rcases found_concat found with old | ⟨rfl, rfl⟩
  · exact .inl ⟨old, (aside solver).2⟩
  · refine .inr ⟨by rintro _ ⟨⟩, iff_of_false Bool.false_ne_true ?_⟩
    rw [solvedSince_concat_other_iff (aside _).2.1 (aside _).2.2]
    exact not_solvedSince_of_uncreated record.created (Nat.le_refl _)

variable {matrix solver : Nat} {m : MatrixHandle S} {s : SolverHandle S} {block : Csr S}
  {system : System S}

/-- An upload is the last one into its matrix. -/
theorem OnRecord.uploaded (record : OnRecord past d) {globalRows : Nat} {partition : RowPartition}
    (changes : after = { d with
      matrices := d.matrices.set matrix
        { m with block := some block, firstRow := 0, globalRows } }) :
    OnRecord (past ++ [⟨d, .uploadMatrix matrix globalRows block partition, .ok .done, after⟩])
    after := by
  subst changes
  refine record.concat (fun other m' found => ?_)
    (fun solver s found => .inl ⟨found, EngineStep.upload_only⟩)
    (Nat.le_refl _) fun solver setsUp => absurd setsUp EngineStep.upload_only.1
  rcases found_set found with ⟨differ, old⟩ | ⟨rfl, rfl⟩
  · refine .inl ⟨old, ?_⟩
    rintro ⟨_, _, _, _, same⟩
    cases same
    exact differ rfl
  · refine .inr ?_
    rintro _ ⟨⟩
    exact ⟨past, _, [], partition, (last_concat_iff ⟨rfl, _, _, _, rfl⟩).mpr ⟨rfl, rfl, rfl⟩, rfl⟩

/-- A setup is the last one of its solver, and no solve has followed it. -/
theorem OnRecord.setUp (record : OnRecord past d) (here : d.solvers[solver]? = some s)
    (held : d.matrices[matrix]? = some m) (uploaded : m.block = some block)
    (prepared : System.prepare block 0 m.globalRows = .ok system)
    (changes : after =
      { d with solvers := d.solvers.set solver { s with system := some system, status := none } }) :
    OnRecord (past ++ [⟨d, .setup solver matrix, .ok .done, after⟩]) after := by
  have setsUp : EngineStep.SetsUp solver ⟨d, .setup solver matrix, .ok .done, after⟩ :=
    ⟨rfl, matrix, rfl⟩
  subst changes
  refine record.concat (fun other m' found => .inl ⟨found, EngineStep.setup_only.1⟩)
    (fun other s' found => ?_) (by simp) ?_
  · rcases found_set found with ⟨differ, old⟩ | ⟨rfl, rfl⟩
    · refine .inl ⟨old, ?_, EngineStep.setup_only.2⟩
      rintro ⟨_, _, same⟩
      cases same
      exact differ rfl
    · refine .inr ⟨?_, iff_of_false Bool.false_ne_true (not_solvedSince_concat setsUp)⟩
      rintro _ ⟨⟩
      obtain ⟨front, upload, rest, partition, found', call⟩ :=
        record.matrices matrix m held block uploaded
      exact .intro ((last_concat_iff setsUp).mpr ⟨rfl, rfl, rfl⟩) rfl found' call prepared
  · rintro _ ⟨_, _, same⟩
    cases same
    exact (List.getElem?_eq_some_iff.mp here).1

/-- A solve follows the last setup of its solver. -/
theorem OnRecord.solved (record : OnRecord past d) (here : d.solvers[solver]? = some s)
    (ready : s.system = some system) {rhs x : Nat} {status : Status}
    {vectors : List (VectorHandle S)} (changes : after =
      { d with solvers := d.solvers.set solver { s with status := some status }, vectors }) :
    OnRecord (past ++ [⟨d, .solve solver rhs x, .ok .done, after⟩]) after := by
  have solves : EngineStep.Solves solver ⟨d, .solve solver rhs x, .ok .done, after⟩ :=
    ⟨rfl, rhs, x, rfl⟩
  have told := record.solvers solver s here
  subst changes
  refine record.concat (fun _ m' found => .inl ⟨found, EngineStep.solve_only.1⟩)
    (fun number s' found => ?_) (by simp)
    fun number setsUp => absurd setsUp EngineStep.solve_only.2
  rcases found_set found with ⟨differ, old⟩ | ⟨rfl, rfl⟩
  · refine .inl ⟨old, EngineStep.solve_only.2, ?_⟩
    rintro ⟨_, _, _, same⟩
    cases same
    exact differ rfl
  · refine .inr ⟨fun system' same => (told.system system' same).later EngineStep.solve_only.2,
      iff_of_true rfl ?_⟩
    cases told.system system ready with
    | intro found' _ _ _ _ =>
      refine ⟨_, _, _, found'.later EngineStep.solve_only.2, _, ?_, solves⟩
      exact List.mem_append_right _ (List.mem_singleton_self _)

/-- Every call of a lone lead leaves the desk on record. -/
theorem EngineCall.Ends.onRecord (ends : call.Ends me d reply after) (record : OnRecord past d) :
    OnRecord (past ++ [⟨d, call, reply, after⟩]) after := by
  cases ends with
  | unknown | refused | told => exact record.aside (.of_reply (by rintro ⟨⟩)) rfl rfl
  | engine either =>
    exact record.aside (.of_call (by rcases either with rfl | rfl <;> exact id)) rfl rfl
  | vectors vectors => exact record.aside (.of_call vectors.not_onSystems) rfl rfl
  | resources => exact record.aside (.of_call id) rfl rfl
  | matrix => exact record.createdMatrix _ _ rfl
  | solver => exact record.createdSolver _ _ _ rfl
  | uploaded => exact record.uploaded rfl
  | setUp here held uploaded prepared => exact record.setUp here held uploaded prepared rfl
  | solved here ready => exact record.solved here ready rfl

/-- There is a status to tell exactly if the solver has solved since it was set up last. -/
theorem OnRecord.asked_iff (record : OnRecord past d) (solver : Nat) :
    ((EngineCall.status solver).asked d).isSome ↔ SolvedSince past solver := by
  rw [EngineCall.asked]
  cases found : d.solvers[solver]? with
  | none =>
    have never := not_solvedSince_of_uncreated record.created (List.getElem?_eq_none_iff.mp found)
    exact iff_of_false Bool.false_ne_true never
  | some s => exact (record.solvers solver s found).status

/-- Every call of a lone lead does what the record says. -/
theorem EngineCall.Ends.sound (ends : call.Ends me d reply after) (record : OnRecord past d) :
    EngineStep.Sound me past ⟨d, call, reply, after⟩ := by
  constructor
  · cases ends <;> rintro ⟨⟩
  · intro failure failed
    cases ends with
    | unknown | refused => rfl
    | _ => cases failed
  · intro solver same
    dsimp only at same
    subst same
    have asks := record.asked_iff solver
    cases ends with
    | unknown untold | refused untold =>
      rw [untold] at asks
      exact iff_of_false (by rintro ⟨_, ⟨⟩⟩) (asks.not.mp Bool.false_ne_true)
    | engine either => rcases either with same | same <;> cases same
    | vectors vectors => exact absurd vectors id
    | told tells =>
      rw [tells] at asks
      exact iff_of_true ⟨_, rfl⟩ (asks.mp rfl)
  · intro solver rhs x same done
    dsimp only at same done
    subst same
    cases ends with
    | unknown | refused => cases done
    | engine either => rcases either with same | same <;> cases same
    | vectors vectors => exact absurd vectors id
    | solved here ready right start finds =>
      exact ⟨_, _, _, _, _, _, _, here, right, start,
        (record.solvers solver _ here).system _ ready, finds, rfl⟩

end

/-! ## All steps -/

theorem Desk.kept_blank (engine : Engine) (buffers : List (List S)) :
    (blank engine buffers).Kept me := by
  constructor <;> exact List.forall_mem_nil _

theorem OnRecord.blank (engine : Engine) (buffers : List (List S)) :
    OnRecord [] (.blank engine buffers) := by
  constructor
  · rintro _ _ ⟨⟩
  · rintro _ _ ⟨⟩
  · exact List.forall_mem_nil _

/-- The calls of a lone lead all come to an end, and every step does what the record of those before
it says. The induction on the calls carries the record so far along with the desk. -/
theorem EngineCall.makeAll_sound {calls : List (EngineCall S)}
    (fits : ∀ call ∈ calls, call.Fits me) {d : Desk S} (kept : d.Kept me)
    {past : List (EngineStep S)} (record : OnRecord past d) :
    Completes {me} (fun _ => makeAll calls d) fun v => (v me).map (·.call) = calls ∧
      (∀ step ∈ (v me).head?, step.before = d) ∧
      (v me).IsChain (fun step next => next.before = step.after) ∧
      ∀ front step rest, v me = front ++ step :: rest → step.Sound me (past ++ front) := by
  induction calls generalizing d past with
  | nil =>
    refine .of_finished (v := fun _ => []) (fun _ _ => rfl) ⟨rfl, ?_, .nil, ?_⟩
    · rintro _ ⟨⟩
    · intro front step rest parts
      simp at parts
  | cons call rest ih =>
    refine (call.ends kept (fits call List.mem_cons_self)).bind fun v ends => ?_
    have fits' : ∀ other ∈ rest, other.Fits me :=
      fun other member => fits other (List.mem_cons_of_mem _ member)
    have later := ih fits' (ends.kept kept) (ends.onRecord record)
    refine (Completes.map later fun w sound => ?_).congr
      (P := fun _ => makeAll rest (v me).2 >>= fun later =>
      .finished (⟨d, call, (v me).1, (v me).2⟩ :: later)) fun rank inside => by
        rw [Finset.mem_singleton.mp inside]; rfl
    obtain ⟨same, first, chain, sound⟩ := sound
    refine ⟨congrArg (call :: ·) same, ?_, List.isChain_cons.mpr ⟨first, chain⟩, ?_⟩
    · rintro _ ⟨⟩
      rfl
    · intro front step rest' parts
      cases front with
      | nil =>
        obtain ⟨rfl, _⟩ := List.cons.inj parts
        rw [List.append_nil]
        exact ends.sound record
      | cons head front =>
        obtain ⟨rfl, parts'⟩ := List.cons.inj parts
        rw [List.append_cons]
        exact sound front step rest' parts'

/-- A lone lead can make all calls of an engine in any order. Each of them is answered or refused,
and a refused call changes nothing. A solver tells a status exactly if it has solved since it was
set up last, and it solves for the block that its matrix held at that setup, whatever has been
uploaded since. -/
theorem EngineCall.calls_sound {n : Nat} (below : me < n) {calls : List (EngineCall S)}
    (fits : ∀ call ∈ calls, call.Fits me) (engine : Engine) (buffers : List (List S))
    {hubs : Hubs S} {rounds : Rounds} (resting : hubs.Resting rounds) :
    ∃ steps : List (EngineStep S),
      EndsAmong n {me} hubs (fun _ => makeAll calls (.blank engine buffers)) (fun _ => steps) ∧
      steps.map (·.call) = calls ∧ (∀ step ∈ steps.head?, step.before = .blank engine buffers) ∧
      steps.IsChain (fun step next => next.before = step.after) ∧
      ∀ front step rest, steps = front ++ step :: rest → step.Sound me front := by
  have within : ({me} : Finset Nat) ⊆ Finset.range n := by simpa using below
  have completes :=
    makeAll_sound fits (Desk.kept_blank engine buffers) (OnRecord.blank engine buffers)
  obtain ⟨v, ⟨same, first, chain, sound⟩, ends⟩ := completes.endsAmong within resting
  refine ⟨v me, ends.congr (fun _ _ => rfl) fun rank inside => ?_, same, first, chain, sound⟩
  rw [Finset.mem_singleton.mp inside]

/-- A solver is set up, its matrix gets other rows, and then it solves. -/
def EngineCall.uploadsAgain : List (EngineCall Float) := [
  .startup, .createResources (Group.world [0] 0), .createMatrix 0,
  .createSolver 0 .standard, .createVector 0,
  .createVector 0, .uploadMatrix 0 1 (.ofRows 1 [[(0, 2.0)]]) ⟨[0, 1]⟩, .setup 0 0,
  .uploadMatrix 0 1 (.ofRows 1 [[(0, 4.0)]]) ⟨[0, 1]⟩, .uploadVector 0 [1.0],
  .uploadVector 1 [0.0], .status 0,
  .solve 0 0 1, .status 0, .shutdown]

theorem EngineCall.calls_sound_uploadsAgain : 0 < 1 ∧ (∀ call ∈ uploadsAgain, call.Fits 0) ∧
    ∃ steps : List (EngineStep Float),
      EndsAmong 1 {0} [] (fun _ => makeAll uploadsAgain (.blank (.seeing 1) [[0.0]]))
      (fun _ => steps) ∧
      steps.map (·.call) = uploadsAgain ∧ ∀ front step rest, steps = front ++ step :: rest →
      step.Sound 0 front := by
  have sole : Together (fun rank => [0].getD rank 0) {0} (Group.world [0]) := Together.world [0]
  have alone : (Group.world [0] 0).Alone 0 :=
    ⟨_, sole.congr fun rank inside => by rw [Finset.mem_singleton.mp inside]⟩
  have row : ∀ value : Float, Fits 0 (.uploadMatrix 0 1 (.ofRows 1 [[(0, value)]]) ⟨[0, 1]⟩) :=
    fun value => ⟨rfl, rfl, [1], rfl⟩
  have fits : ∀ call ∈ uploadsAgain, call.Fits 0 := by
    simp only [uploadsAgain, List.forall_mem_cons]
    refine ⟨trivial, alone, trivial, trivial, trivial, trivial, row _, trivial, row _, trivial,
      trivial, trivial, trivial, trivial, trivial, List.forall_mem_nil _⟩
  obtain ⟨steps, ends, same, _, _, sound⟩ :=
    calls_sound Nat.one_pos fits (.seeing 1) [[0.0]] Hubs.resting_nil
  exact ⟨Nat.one_pos, fits, steps, ends, same, sound⟩

end DeviceTeams
