import DeviceTeams.Proofs.Merging
import DeviceTeams.Solver.Instance
import Mathlib.Data.List.Chain

/-!
# What the leads upload

Before any lead uploads the rows of its team, all leads have compared where these rows start with
where they would start if the teams came in the order of the leads. A lead whose engine does not
take the rows leaves its handles as they were.
-/
namespace DeviceTeams

variable {S : Type} {A : Finset Nat} {node : Nat → Nat}

/-! ## The rows of a team -/

/-- The rows of a team are in order if every member's rows start where those of the member before it
end. -/
theorem checkStarts_decides {members : List Nat} {start count : Nat → Nat}
    (word : ∀ member ∈ members, start member + count member < Word.limit) :
    Decides (Attached.checkStarts (members.map start) (members.map count))
      (members.IsChain fun a b => start b = start a + count a) := by
  let follows : Nat → Prop :=
    fun place => ∀ a b, members[place]? = some a → members[place + 1]? = some b →
    start b = start a + count a
  refine (Decides.forM follows fun place member => ?_).congr ?_
  · rw [List.mem_range, List.length_map] at member
    have here := List.getElem?_eq_getElem (l := members) (i := place) (by omega)
    have next := List.getElem?_eq_getElem (l := members) (i := place + 1) (by omega)
    simp only [List.getElem?_map, here, next, Option.map_some,
      Attempt.ofOption_some, Attempt.ok_bind,
      Word.add_of_lt (word _ (List.getElem_mem _)), Attempt.pure_eq, Attempt.throw_eq]
    refine (Decides.of_ite _).congr ⟨fun same a b found found' => ?_, fun all => all _ _ here next⟩
    rw [here, Option.some.injEq] at found
    rw [next, Option.some.injEq] at found'
    rw [← found, ← found', same]
  · rw [List.isChain_iff_getElem, List.length_map]
    constructor
    · intro all place bound
      exact all place (List.mem_range.mpr (by omega)) _ _ (List.getElem?_eq_getElem (by omega))
        (List.getElem?_eq_getElem bound)
    · intro all place _ a b found found'
      obtain ⟨bound, rfl⟩ := List.getElem?_eq_some_iff.mp found
      obtain ⟨bound', rfl⟩ := List.getElem?_eq_some_iff.mp found'
      exact all place bound'

/-! ## The handles of a lead -/

/-- The engine takes rows for a matrix: it is square, and the counts give the rows of every lead. -/
def MatrixHandle.Takes (m : MatrixHandle S) (globalRows globalCols rows : Nat) (counts : List Nat) :
    Prop :=
  globalCols = globalRows ∧ counts.sum = globalRows ∧ counts.length = m.leads.size ∧
    counts[m.leads.rank]? = some rows

theorem MatrixHandle.upload_accepts {m : MatrixHandle S} {globalRows : Nat} {block : Csr S}
    {counts : List Nat} (takes : m.Takes globalRows block.ncols block.nrows counts) :
    m.upload globalRows block ⟨runningTotals 0 counts⟩ =
      .ok { m with
        block := some block, firstRow := (counts.take m.leads.rank).sum, globalRows } := by
  obtain ⟨square, total, teams, found⟩ := takes
  have last : (RowPartition.mk (runningTotals 0 counts)).totalRows = globalRows := by
    rw [RowPartition.totalRows_eq, total]
  have size : (RowPartition.mk (runningTotals 0 counts)).teams = m.leads.size := by
    rw [RowPartition.teams_eq, teams]
  have rows : (Span.mk (counts.take m.leads.rank).sum
      ((counts.take m.leads.rank).sum + block.nrows)).length =
      block.nrows := Nat.add_sub_cancel_left ..
  rw [upload, if_pos square, if_pos ⟨last, size⟩, RowPartition.range, partOf_runningTotals found]
  simp only [Attempt.ok_bind, if_pos rows]
  rfl

theorem MatrixHandle.upload_refuses {m : MatrixHandle S} {globalRows : Nat} {block : Csr S}
    {counts : List Nat} (seat : m.leads.rank < m.leads.size)
    (fails : ¬ m.Takes globalRows block.ncols block.nrows counts) :
    ∃ cause, m.upload globalRows block ⟨runningTotals 0 counts⟩ = .error (.refused cause) := by
  rw [upload]
  by_cases square : block.ncols = globalRows
  · rw [if_pos square]
    by_cases fits : (RowPartition.mk (runningTotals 0 counts)).totalRows = globalRows ∧
        (RowPartition.mk (runningTotals 0 counts)).teams = m.leads.size
    · rw [if_pos fits]
      obtain ⟨last, size⟩ := fits
      rw [RowPartition.totalRows_eq] at last
      rw [RowPartition.teams_eq] at size
      have found := List.getElem?_eq_getElem (l := counts) (size ▸ seat)
      rw [RowPartition.range, partOf_runningTotals found]
      have differs : ¬ (Span.mk (counts.take m.leads.rank).sum ((counts.take m.leads.rank).sum +
          counts[m.leads.rank])).length = block.nrows := by
        intro same
        rw [Span.length, Nat.add_sub_cancel_left] at same
        exact fails ⟨square, last, size, found.trans (congrArg some same)⟩
      simp only [Attempt.ok_bind, if_neg differs]
      exact ⟨_, rfl⟩
    · rw [if_neg fits]
      exact ⟨_, rfl⟩
  · rw [if_neg square]
    exact ⟨_, rfl⟩

/-- Every list of rows can be prepared for solving. -/
theorem System.prepare_ofRows [Scalar S] (ncols : Nat) (rows : List (List (Nat × S)))
    (firstRow globalRows : Nat) :
    ∃ diagonal, System.prepare (.ofRows ncols rows) firstRow globalRows =
      .ok ⟨.ofRows ncols rows, firstRow, globalRows, diagonal⟩ := by
  have spans : (Span.between (runningTotals 0 (rows.map List.length))).length =
    rows.length := by simp
  have known : ∀ row ∈ List.range rows.length, ∃ value,
      (Csr.ofRows ncols rows).get? row (firstRow + row) = .ok value := fun row member =>
    Csr.get?_ofRows (List.getElem?_eq_getElem (List.mem_range.mp member)) _
  choose! value found using known
  refine ⟨((List.range rows.length).map value).map inverseOf, ?_⟩
  rw [System.prepare, Csr.rowSpans_ofRows, Attempt.ok_bind, spans, Attempt.mapM_of found]
  rfl

def LeadHandles.load (handles : LeadHandles S) (system : System S) : LeadHandles S where
  settings := handles.settings
  matrix := { handles.matrix with
    block := some system.block, firstRow := system.firstRow, globalRows := system.globalRows }
  rhs := { handles.rhs with boundLength := some system.block.nrows }
  solution := { handles.solution with boundLength := some system.block.nrows }
  solver := { handles.solver with system := some system, status := none }
  rings := handles.rings

def Attached.withLead (a : Attached S) (lead : LeadHandles S) : Attached S :=
  { a with solver := { a.solver with
      state := a.solver.state.map fun inst => { inst with lead := some lead } } }

theorem Attached.start_prepareHandles [Scalar S] {a : Attached S} {hierarchy : Hierarchy}
    {handles : LeadHandles S} {layout : Option VectorLayout}
    (held : a.solver.state = some ⟨hierarchy, some handles, layout⟩) {globalRows : Nat}
    {block : Csr S} {counts : List Nat}
    (takes : handles.matrix.Takes globalRows block.ncols block.nrows counts) {diagonal : List S}
    (prepared : System.prepare block (counts.take handles.matrix.leads.rank).sum globalRows =
      .ok ⟨block, (counts.take handles.matrix.leads.rank).sum, globalRows, diagonal⟩) :
    (prepareHandles handles globalRows block ⟨runningTotals 0 counts⟩).start a = .finished (.ok (),
      a.withLead (handles.load
        ⟨block, (counts.take handles.matrix.leads.rank).sum, globalRows, diagonal⟩)) := by
  obtain ⟨context, state, stats⟩ := a
  subst held
  rw [prepareHandles, MatrixHandle.upload_accepts takes]
  simp only [Work.start_ofAttempt_bind, Work.following_ok, modifyLead, modifySolver,
    Work.start_modify_bind,
    SolverHandle.setup, prepared, VectorHandle.bind, Attempt.ok_bind, Attempt.pure_eq,
    Work.start_modify]
  rfl

theorem Attached.start_prepareHandles_refused [Scalar S] (a : Attached S) {handles : LeadHandles S}
    {globalRows : Nat} (block : Csr S) {counts : List Nat}
    (seat : handles.matrix.leads.rank < handles.matrix.leads.size)
    (fails : ¬ handles.matrix.Takes globalRows block.ncols block.nrows counts) :
    ∃ cause, (prepareHandles handles globalRows block ⟨runningTotals 0 counts⟩).start a =
      .finished (.error (.refused cause), a) := by
  obtain ⟨cause, refused⟩ := MatrixHandle.upload_refuses seat fails
  refine ⟨cause, ?_⟩
  rw [prepareHandles, refused, Work.start_ofAttempt_bind, Work.following_error]

/-! ## The leads together -/

/-- Work that changes the state if a condition holds, and otherwise is refused and leaves it as it
was. -/
structure Settles {σ : Type} (before : σ) (ended : Attempt Unit × σ) (condition : Prop)
    (changed : σ → Prop) :
    Prop where
  accepts : condition → ended.1 = .ok () ∧ changed ended.2
  refuses : ¬ condition → ∃ cause, ended = (.error (.refused cause), before)

theorem Settles.decides {σ : Type} {before : σ} {ended : Attempt Unit × σ} {condition : Prop}
    {changed : σ → Prop} (h : Settles before ended condition changed) : Decides ended.1 condition :=
  ⟨fun holds => (h.accepts holds).1, fun fails => (h.refuses fails).imp fun _ same =>
    congrArg Prod.fst same⟩

theorem Settles.mono {σ : Type} {before : σ} {ended : Attempt Unit × σ} {condition : Prop}
    {changed changed' : σ → Prop} (h : Settles before ended condition changed)
    (weaker : ∀ s, changed s → changed' s) :
    Settles before ended condition changed' :=
  ⟨fun holds => (h.accepts holds).imp_right (weaker _), h.refuses⟩

def leadCounts (blocks : Nat → List (List (Nat × S))) (leads : Group) : List Nat :=
  leads.hub.ranks.map fun lead => (blocks lead).length

/-- A lead's rows start where the rows of the leads before it end, and all leads together have the
rows of the matrix. -/
def InOrder (blocks : Nat → List (List (Nat × S))) (leads : Group) (m : RowShare S) : Prop :=
  ((leadCounts blocks leads).take leads.rank).sum = m.rowStart ∧
    (leadCounts blocks leads).sum = m.globalRows

/-- The leads whose rows go to the engine: all leads of the group have their rows in order, and this
one's matrix takes them. -/
def Uploads (ncols : Nat → Nat) (blocks : Nat → List (List (Nat × S))) (leads : Nat → Group)
    (m : Nat → RowShare S) (handles : Nat → LeadHandles S) (rank : Nat) : Prop :=
  (∀ lead ∈ (leads rank).hub.ranks, InOrder blocks (leads lead) (m lead)) ∧
    (handles rank).matrix.Takes (m rank).globalRows (ncols rank) (blocks rank).length
    (leadCounts blocks (leads rank))

def Uploaded [Scalar S] (ncols : Nat → Nat) (blocks : Nat → List (List (Nat × S)))
    (leads : Group) (m : RowShare S) (handles : LeadHandles S) (rank : Nat) (new : LeadHandles S) :
    Prop :=
  ∃ system, System.prepare (.ofRows (ncols rank) (blocks rank))
      ((leadCounts blocks leads).take handles.matrix.leads.rank).sum m.globalRows = .ok system ∧
    system.block = .ofRows (ncols rank) (blocks rank) ∧
    system.firstRow = ((leadCounts blocks leads).take handles.matrix.leads.rank).sum ∧
    system.globalRows = m.globalRows ∧ new = handles.load system

namespace Attached

variable [Scalar S]

def uploadCounted (handles : LeadHandles S) (m : RowShare S) (block : Csr S) (counts : List Nat)
    (misplaced : Nat) :
    Work S (Attached S) Unit :=
  if 0 < misplaced then
    throw (TopologyError.teamsMisplaced (runningTotals 0 counts) m.rowStart m.globalRows : Failure)
  else prepareHandles handles m.globalRows block ⟨runningTotals 0 counts⟩

def uploadGathered (leads : Group) (handles : LeadHandles S) (m : RowShare S) (block : Csr S)
    (counts : List Nat) :
    Work S (Attached S) Unit := do
  let partition ← Work.ofAttempt (RowPartition.ofCounts counts)
  let rows ← Work.ofAttempt (partition.range leads.rank)
  let misplaced := rows.start ≠ m.rowStart ∨ partition.totalRows ≠ m.globalRows
  let count ← Work.ofTask (leads.sumCounts (if misplaced then 1 else 0))
  if 0 < count then
    throw (TopologyError.teamsMisplaced partition.offsets m.rowStart m.globalRows : Failure)
  prepareHandles handles m.globalRows block partition

theorem start_uploadTeam {leads : Group} {h : Hierarchy} (member : h.solver = some leads)
    (handles : LeadHandles S) (m : RowShare S) (block : Csr S) (a : Attached S) :
    (uploadTeam h handles m (some block)).start a =
      (Work.ofTask (leads.allGather .word64 block.nrows) >>=
        uploadGathered leads handles m block).start a := by
  rw [uploadTeam, leadsOf, member]
  exact Work.start_ofAttempt_bind ..

theorem start_uploadGathered (leads : Group) (handles : LeadHandles S)
    (m : RowShare S) {block : Csr S} {counts : List Nat} (word : counts.sum < Word.limit)
    (own : counts[leads.rank]? = some block.nrows) (a : Attached S) :
    (uploadGathered leads handles m block counts).start a =
      (Work.ofTask
        (leads.sumCounts (if (counts.take leads.rank).sum ≠ m.rowStart ∨ counts.sum ≠ m.globalRows
        then 1 else 0)) >>= uploadCounted handles m block counts).start a := by
  rw [uploadGathered, RowPartition.ofCounts_eq word, Work.start_ofAttempt_bind, Work.following_ok,
    RowPartition.range, partOf_runningTotals own, Work.start_ofAttempt_bind, Work.following_ok,
    RowPartition.totalRows_eq]
  rfl

end Attached

/-- A lead that knows how many leads are out of order takes its rows or refuses them. -/
theorem uploadCounted_settles [Scalar S] {leads : Nat → Group} {h : Hierarchy} {a : Attached S}
    {handles : Nat → LeadHandles S} {rank : Nat}
    (held : ∃ layout, a.solver.state = some ⟨h, some (handles rank), layout⟩)
    (seat : (handles rank).matrix.leads.rank < (handles rank).matrix.leads.size) (ncols : Nat → Nat)
    {blocks : Nat → List (List (Nat × S))} {m : Nat → RowShare S} {misplaced : Nat}
    (none_misplaced : misplaced = 0 ↔ ∀ lead ∈ (leads rank).hub.ranks, InOrder blocks
      (leads lead) (m lead)) :
    ∃ ended, (Attached.uploadCounted (handles rank) (m rank) (.ofRows (ncols rank) (blocks rank))
        (leadCounts blocks (leads rank)) misplaced).start a = .finished ended ∧
      Settles a ended (Uploads ncols blocks leads m handles rank) fun b => ∃ new,
        Uploaded ncols blocks (leads rank) (m rank) (handles rank) rank new ∧
        b = a.withLead new := by
  obtain ⟨diagonal, prepared⟩ := System.prepare_ofRows (ncols rank) (blocks rank)
    ((leadCounts blocks (leads rank)).take (handles rank).matrix.leads.rank).sum (m rank).globalRows
  obtain ⟨layout, state⟩ := held
  rw [Attached.uploadCounted]
  by_cases ordered : misplaced = 0
  · rw [if_neg (by omega)]
    by_cases takes : (handles rank).matrix.Takes (m rank).globalRows (ncols rank)
        (blocks rank).length (leadCounts blocks (leads rank))
    · refine ⟨_, Attached.start_prepareHandles state takes prepared, fun _ =>
        ⟨rfl, _, ?_, rfl⟩, fun fails => ?_⟩
      · exact ⟨_, prepared, rfl, rfl, rfl, rfl⟩
      · exact absurd ⟨none_misplaced.mp ordered, takes⟩ fails
    · obtain ⟨cause, refused⟩ :=
        Attached.start_prepareHandles_refused a (.ofRows (ncols rank) (blocks rank)) seat takes
      exact ⟨_, refused, fun uploads => absurd uploads.2 takes, fun _ => ⟨cause, rfl⟩⟩
  · rw [if_pos (by omega)]
    exact ⟨_, rfl, fun uploads => absurd (none_misplaced.mpr uploads.1) ordered, fun _ => ⟨_, rfl⟩⟩

theorem uploadTeam_completes [Scalar S] {leads : Nat → Group} (t : Together node A leads)
    {h : Nat → Hierarchy} (member : ∀ rank ∈ A, (h rank).solver = some (leads rank))
    {a : Nat → Attached S} {handles : Nat → LeadHandles S}
    (held : ∀ rank ∈ A, ∃ layout, (a rank).solver.state =
      some ⟨h rank, some (handles rank), layout⟩)
    (seat : ∀ rank ∈ A, (handles rank).matrix.leads.rank < (handles rank).matrix.leads.size)
    {ncols : Nat → Nat} {blocks : Nat → List (List (Nat × S))} {m : Nat → RowShare S}
    (word : ∀ rank ∈ A, (leadCounts blocks (leads rank)).sum < Word.limit)
    (few : ∀ rank ∈ A, (leads rank).hub.ranks.length < Word.limit) :
    Completes A (fun rank => (Attached.uploadTeam (h rank) (handles rank) (m rank)
      (some (.ofRows (ncols rank) (blocks rank)))).start (a rank)) fun v => ∀ rank ∈ A,
        Settles (a rank) (v rank) (Uploads ncols blocks leads m handles rank) fun b => ∃ new,
          Uploaded ncols blocks (leads rank) (m rank) (handles rank) rank new ∧
          b = (a rank).withLead new := by
  classical
  have own : ∀ rank ∈ A, (leadCounts blocks (leads rank))[(leads rank).rank]? =
      some (blocks rank).length := by
    intro rank inside
    rw [leadCounts, List.getElem?_map, t.own rank inside, Option.map_some]
  refine ((t.allGather .word64 fun rank => (blocks rank).length).followedBy
    fun counts brought => ?_).congr
    fun rank inside => Attached.start_uploadTeam (member rank inside) ..
  refine ((t.countRanks (p := fun rank => decide ¬ InOrder blocks (leads rank) (m rank))
    few).followedBy (s := a) (f := fun rank =>
      Attached.uploadCounted (handles rank) (m rank) (.ofRows (ncols rank) (blocks rank))
      (leadCounts blocks (leads rank))) fun misplaced counted => ?_).congr fun rank inside => ?_
  · have : Nonempty (Attempt Unit × Attached S) := ⟨.ok (), a 0⟩
    refine .each (fun rank ended =>
      Settles (a rank) ended (Uploads ncols blocks leads m handles rank) fun b => ∃ new,
      Uploaded ncols blocks (leads rank) (m rank) (handles rank) rank new ∧
      b = (a rank).withLead new)
      fun rank inside => uploadCounted_settles (held rank inside) (seat rank inside) ncols ?_
    rw [counted rank inside, List.countP_eq_zero]
    simp
  · have flag :
        (if ((leadCounts blocks (leads rank)).take (leads rank).rank).sum ≠ (m rank).rowStart ∨
        (leadCounts blocks (leads rank)).sum ≠ (m rank).globalRows then 1 else 0) =
        if decide ¬ InOrder blocks (leads rank) (m rank) then 1 else 0 := by
      simp only [InOrder, ne_eq, decide_eq_true_eq, Decidable.not_and_iff_not_or_not]
    rw [brought rank inside, ← flag]
    exact Attached.start_uploadGathered _ _ _ (word rank inside) (own rank inside) _

end DeviceTeams
