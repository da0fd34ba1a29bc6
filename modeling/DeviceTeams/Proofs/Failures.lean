import DeviceTeams.Proofs.Keeping

/-!
# What operations are refused for

The engine is started, shut down and torn down by the context alone. What ranks do with matrices and
vectors, and how they derive their groups, is refused for other causes only, and collective
operations are never refused: where they fail they abort. Nothing here depends on what the other
ranks bring.
-/
namespace DeviceTeams

variable {S α β σ : Type} {P : Error → Prop}

/-- The causes other than starting the engine, shutting it down and tearing down its resources. -/
def Error.Other : Error → Prop
  | .engine cause => cause ≠ .alreadyStarted ∧ cause ≠ .notRunning ∧ cause ≠ .stillReferenced
  | _ => True

namespace Error

@[simp] theorem other_config (cause : ConfigError) : Other (.config cause) := trivial

@[simp] theorem other_topology (cause : TopologyError) : Other (.topology cause) := trivial

@[simp] theorem other_dimension (cause : DimensionError) : Other (.dimension cause) := trivial

@[simp] theorem other_matrix (cause : MatrixError) : Other (.matrix cause) := trivial

@[simp] theorem other_engine (cause : EngineError) :
    Other (.engine cause) ↔ cause ≠ .alreadyStarted ∧ cause ≠ .notRunning ∧
    cause ≠ .stillReferenced := .rfl

end Error

/-! ## Outcomes -/

/-- If an operation is refused, then for a cause in `P`. -/
def Attempt.Within (P : Error → Prop) : Attempt α → Prop
  | .ok _ => True
  | .error .aborted => True
  | .error (.refused cause) => P cause

namespace Attempt

@[simp] theorem within_ok (value : α) : Within P (.ok value) := trivial

@[simp] theorem within_aborted : Within P (.error .aborted : Attempt α) := trivial

@[simp] theorem within_refused (cause : Error) :
    Within P (.error (.refused cause) : Attempt α) ↔ P cause := .rfl

@[simp] theorem within_abort : Within P (abort : Attempt α) := trivial

@[simp] theorem within_ofOption (option : Option α) : (ofOption option).Within P := by
  cases option <;> trivial

@[simp] theorem within_insist (condition : Bool) : (insist condition).Within P := by
  cases condition <;> trivial

@[simp] theorem within_bind {x : Attempt α} {f : α → Attempt β} :
    (x >>= f).Within P ↔ x.Within P ∧ ∀ value, x = .ok value → (f value).Within P := by
  rcases x with (cause | _) | value <;> simp

theorem Within.bind {x : Attempt α} {f : α → Attempt β} (first : x.Within P)
    (next : ∀ value, (f value).Within P) :
    (x >>= f).Within P :=
  within_bind.mpr ⟨first, fun value _ => next value⟩

@[simp] theorem within_map {x : Attempt α} {f : α → β} : (f <$> x).Within P ↔ x.Within P := by
  rcases x with (cause | _) | value <;> rfl

@[simp] theorem within_ite {condition : Prop} [Decidable condition] {x y : Attempt α} :
    (if condition then x else y).Within P ↔ (condition → x.Within P) ∧
    (¬ condition → y.Within P) := by
  by_cases holds : condition <;> simp [holds]

theorem Within.check {condition : Prop} [Decidable condition] {cause : Error} {rest : Attempt α}
    (fault : P cause) (next : condition → rest.Within P) :
    (if condition then rest else .error (.refused cause)).Within P :=
  within_ite.mpr ⟨next, fun _ => fault⟩

theorem Within.checkNot {condition : Prop} [Decidable condition] {cause : Error} {rest : Attempt α}
    (fault : P cause) (next : ¬ condition → rest.Within P) :
    (if condition then .error (.refused cause) else rest).Within P :=
  within_ite.mpr ⟨fun _ => fault, next⟩

@[simp] theorem Within.mapM {items : List α} {f : α → Attempt β} (h : ∀ item, (f item).Within P) :
    (items.mapM f).Within P := by
  induction items with
  | nil => trivial
  | cons first rest ih => simp [List.mapM_cons, h, ih]

@[simp] theorem Within.forM {items : List α} {f : α → Attempt Unit}
    (h : ∀ item, (f item).Within P) :
    (items.forM f).Within P := by
  induction items with
  | nil => trivial
  | cons first rest ih =>
    rw [List.forM_eq_forM] at ih ⊢
    simp [h, ih]

@[simp] theorem Within.foldlM {items : List α} {f : β → α → Attempt β}
    (h : ∀ value item, (f value item).Within P) (start : β) : (items.foldlM f start).Within P := by
  induction items generalizing start with
  | nil => trivial
  | cons first rest ih => simp [List.foldlM_cons, h, ih]

end Attempt

open Attempt

/-! ## Operations that only abort -/

@[simp] theorem Word.below_within (bound n : Nat) : (below bound n).Within P := by simp [below]

@[simp] theorem Word.add_within (a b : Nat) : (add a b).Within P := below_within ..

@[simp] theorem Word.countUp_within (n : Nat) : (countUp n).Within P := below_within ..

@[simp] theorem Word.request_within (count width : Nat) :
    (request count width).Within P := within_insist _

@[simp] theorem Span.slice_within (s : Span) (items : Array α) :
    (s.slice items).Within P := by simp [slice]

@[simp] theorem partOf_within (offsets : List Nat) (owner : Nat) :
    (partOf offsets owner).Within P := by
  unfold partOf
  split <;> trivial

@[simp] theorem offsetsFrom_within (total : Nat) (counts : List Nat) :
    (offsetsFrom total counts).Within P := by
  induction counts generalizing total with
  | nil => trivial
  | cons count rest ih => simp [offsetsFrom, ih]

@[simp] theorem offsetsOf_within (counts : List Nat) :
    (offsetsOf counts).Within P := offsetsFrom_within ..

@[simp] theorem SegmentTable.ofCounts_within (counts : List Nat) :
    (ofCounts counts).Within P := by simp [ofCounts]

@[simp] theorem SegmentTable.segment_within (table : SegmentTable) (member : Nat) :
    (table.segment member).Within P :=
  partOf_within ..

@[simp] theorem RowPartition.ofCounts_within (counts : List Nat) :
    (ofCounts counts).Within P := by simp [ofCounts]

@[simp] theorem RowPartition.range_within (partition : RowPartition) (team : Nat) :
    (partition.range team).Within P :=
  partOf_within ..

namespace Csr

variable (m : Csr α)

@[simp] theorem rowSpan_within (row : Nat) : (m.rowSpan row).Within P := by
  unfold rowSpan
  split <;> trivial

@[simp] theorem rowSpans_within : m.rowSpans.Within P := by simp [rowSpans]

@[simp] theorem entries_within (s : Span) : (m.entries s).Within P := by simp [entries]

@[simp] theorem rows_within : m.rows.Within P := by simp [rows]

@[simp] theorem get?_within (row column : Nat) : (m.get? row column).Within P := by
  refine .bind (by simp) fun span => .bind (by simp) fun columns => ?_
  split <;> simp

@[simp] theorem spmv_within [Scalar S] (m : Csr S) (x : List S) :
    (m.spmv x).Within P := by simp [spmv]

end Csr

@[simp] theorem RowShare.localBlock_within (m : RowShare S) : m.localBlock.Within P := by
  simp [localBlock, globalRow]

namespace Payload

@[simp] theorem readChoice_within (payload : Payload S) : payload.readChoice.Within P := by
  cases payload <;> trivial

@[simp] theorem readMeetingPoint_within (payload : Payload S) :
    payload.readMeetingPoint.Within P := by
  cases payload <;> trivial

@[simp] theorem readOne_within (kind : Element) (payload : Payload S) :
    (payload.readOne kind).Within P := by
  unfold readOne
  split
  · split <;> trivial
  · trivial

@[simp] theorem readMany_within (kind : Element) (payload : Payload S) :
    (payload.readMany kind).Within P := by
  unfold readMany
  split
  · split <;> trivial
  · trivial

@[simp] theorem readOffer_within (kind : Element) (payload : Payload S) :
    (payload.readOffer kind).Within P := by
  unfold readOffer
  split
  · split <;> trivial
  · trivial

end Payload

/-! ## Tasks -/

def Task.Within (P : Error → Prop) (task : Task S α) : Prop := task.run.Always (Attempt.Within P)

namespace Task

@[simp] theorem within_pure (value : α) : (pure value : Task S α).Within P := trivial

@[simp] theorem within_refused (cause : Error) :
    (throw (.refused cause) : Task S α).Within P ↔ P cause := .rfl

@[simp] theorem within_ofAttempt (outcome : Attempt α) :
    (ofAttempt outcome : Task S α).Within P ↔ outcome.Within P := .rfl

theorem Within.bind {task : Task S α} {f : α → Task S β} (first : task.Within P)
    (next : ∀ value, (f value).Within P) : (task >>= f).Within P := by
  rw [Within, run_bind]
  refine Program.Always.bind first fun outcome within => ?_
  cases outcome with
  | ok value => exact next value
  | error failure => cases failure <;> exact within

end Task

namespace Group

variable (g : Group)

theorem exchange_within (payload : Payload S) : (g.exchange payload).Within P := fun _ _ => trivial

theorem exchange_bind_within {payload : Payload S} {f : Round (Payload S) → Attempt α}
    (h : ∀ round, (f round).Within P) :
    (g.exchange payload >>= fun round => Task.ofAttempt (f round)).Within P :=
  (g.exchange_within payload).bind h

theorem barrier_within : (g.barrier : Task S Unit).Within P :=
  (g.exchange_within _).bind fun _ => Task.within_pure _

theorem allGather_within (kind : Element) (value : kind.Carrier S) :
    (g.allGather kind value).Within P :=
  g.exchange_bind_within fun _ => .mapM fun item => item.readOne_within kind

theorem sumCounts_within (count : Nat) : (g.sumCounts count : Task S Nat).Within P :=
  (g.allGather_within _ _).bind fun _ => .foldlM (fun _ _ => Word.add_within ..) _

theorem sum_within [Scalar S] (value : S) : (g.sum value).Within P :=
  (g.allGather_within _ _).bind fun _ => Task.within_pure _

theorem sumVector_within [Scalar S] (values : List S) : (g.sumVector values).Within P :=
  g.exchange_bind_within fun _ =>
    .foldlM (fun _ item => .bind (item.readMany_within .real) fun _ => by simp) _

theorem broadcast_within (kind : Element) (root : Nat) (values : List (kind.Carrier S)) :
    (g.broadcast kind root values).Within P := by
  refine (g.exchange_within _).bind fun round => ?_
  split
  · exact Task.within_pure _
  · simp [offeredBy]

theorem gather_within (kind : Element) (values : List (kind.Carrier S)) (table : SegmentTable) :
    (g.gather kind values table).Within P := by
  refine Task.Within.bind (by simp) fun _ => (g.exchange_within _).bind fun round => ?_
  split
  · simp
  · exact Task.within_pure _

theorem scatter_within (kind : Element) (values : Option (List (kind.Carrier S)))
    (table : SegmentTable) (length : Nat) : (g.scatter kind values table length).Within P :=
  g.exchange_bind_within fun round => by simp [offeredBy]

theorem joinMembers_within (members : List Nat) (items : List (Payload S)) :
    (g.joinMembers members items).Within P := by
  cases members with
  | nil => trivial
  | cons leader rest =>
    refine .bind (by simp) fun item => .bind (by simp) fun opened => ?_
    cases opened with
    | none => trivial
    | some hub => exact .bind (.mapM fun _ => within_ofOption _) fun _ => trivial

theorem split_within (color : Option Nat) (key : Nat) :
    (g.split color key : Task S (Option Group)).Within P := by
  refine (g.exchange_within _).bind fun round => Task.Within.bind (by simp) fun members => ?_
  exact g.exchange_bind_within fun handed => g.joinMembers_within members handed.items

theorem duplicate_within : (g.duplicate : Task S Group).Within P :=
  (g.split_within _ _).bind fun _ => within_ofOption _

theorem node_within : g.node.Within P := within_ofOption _

theorem nodeName_within : g.nodeName.Within P := g.node_within.bind fun _ => trivial

theorem splitByNode_within : (g.splitByNode : Task S Group).Within P :=
  Task.Within.bind g.node_within fun _ => (g.split_within _ _).bind fun _ => within_ofOption _

end Group

/-! ## Teams -/

theorem Csr.validateRow_within (all : ∀ cause, P (.matrix cause)) (m : Csr α) (row : Nat) :
    (m.validateRow row).Within P := by
  refine .bind (m.rowSpan_within row) fun span => .bind (span.slice_within _) fun columns => ?_
  dsimp only
  split
  · simp [all]
  · simp [all]

/-- A block that is not accepted is refused for what is wrong with a matrix. -/
theorem Csr.validate_within (all : ∀ cause, P (.matrix cause)) (m : Csr α) :
    m.validate.Within P := by
  refine .bind (Word.add_within ..) fun expected => ?_
  simp only [Attempt.throw_eq, Attempt.error_bind]
  refine .check (all _) fun pointerCount => ?_
  refine .bind (within_ofOption _) fun first => .check (all _) fun firstPointer => ?_
  refine .check (all _) fun columnCount => ?_
  refine .bind (within_ofOption _) fun last => .check (all _) fun lastPointer => ?_
  cases (Span.between m.rowPointers.toList).findIdx? fun s => decide (s.stop < s.start) with
  | some row => exact all _
  | none => exact .forM (m.validateRow_within all)

/-- What the check of a block refuses is a fault of the matrix. -/
theorem Csr.matrix_of_validate {m : Csr α} {cause : Error}
    (refused : m.validate = .error (.refused cause)) :
    ∃ fault : MatrixError, cause = .matrix fault := by
  have within := m.validate_within (P := fun cause => ∃ fault, cause = .matrix fault) fun fault =>
    ⟨fault, rfl⟩
  rwa [refused, Attempt.within_refused] at within

theorem Csr.validate_other (m : Csr α) :
    m.validate.Within Error.Other := m.validate_within Error.other_matrix

theorem stitchMember_other (member base : Nat) (pointers : List Int) :
    (stitchMember member base pointers).Within Error.Other := by
  have shift_other : ∀ rest previous, (shiftPointers member base previous rest).Within
      Error.Other := by
    intro rest
    induction rest with
    | nil => exact fun _ => trivial
    | cons pointer rest ih => simp [shiftPointers, ih]
  cases pointers with
  | nil => simp [stitchMember]
  | cons first rest => simp [stitchMember, shift_other]

theorem stitchFrom_other (gathered : Array Int) (member base : Nat) (segments : List Span) :
    (stitchFrom gathered member base segments).Within Error.Other := by
  induction segments generalizing member base with
  | nil => trivial
  | cons segment rest ih =>
    refine .bind (by simp) fun pointers => (stitchMember_other ..).bind fun stitched => ?_
    exact (ih ..).bind fun _ => trivial

theorem stackBlocks_other (nrows ncols : Nat) (pointers : SegmentTable)
    (allPointers allColumns : List Int) (values : List S) :
    (stackBlocks nrows ncols pointers allPointers allColumns values).Within Error.Other := by
  simp [stackBlocks, stitchRowPointers, stitchFrom_other, toColumns, Csr.ofParts,
    Csr.validate_other]

theorem mergeTeam_other (team : Group) (block : Csr S) :
    (mergeTeam team block).Within Error.Other := by
  have signed : ∀ indices, (toSigned indices).Within Error.Other :=
    fun indices => by simp [toSigned]
  refine (team.allGather_within _ _).bind fun rowCounts =>
    (team.allGather_within _ _).bind fun entryCounts => ?_
  refine Task.Within.bind (SegmentTable.ofCounts_within _) fun rows => ?_
  refine Task.Within.bind (SegmentTable.ofCounts_within _) fun entries =>
    Task.Within.bind (by simp) fun pointers => ?_
  refine Task.Within.bind (signed _) fun _ => Task.Within.bind (signed _) fun _ => ?_
  refine (team.gather_within _ _ _).bind fun allPointers =>
    (team.gather_within _ _ _).bind fun allColumns => ?_
  refine (team.gather_within _ _ _).bind fun allValues => ?_
  split
  · exact Task.Within.bind (stackBlocks_other ..) fun _ => Task.within_pure _
  · exact Task.within_pure _

namespace VectorLayout

variable (l : VectorLayout)

theorem checkLocal_other (length : Nat) :
    (l.checkLocal length).Within Error.Other := by simp [checkLocal, localLength]

theorem gather_other (team : Group) (values : List S) : (l.gather team values).Within Error.Other :=
  Task.Within.bind (l.checkLocal_other _) fun _ => team.gather_within _ _ _

theorem scatter_other (team : Group) (values : Option (List S)) (length : Nat) :
    (l.scatter team values length).Within Error.Other := by
  have checked : (l.checkTeam values).Within Error.Other := by
    cases values <;> simp [checkTeam]
  refine Task.Within.bind (l.checkLocal_other _) fun _ => ?_
  dsimp only
  split
  · exact Task.Within.bind checked fun _ => team.scatter_within _ _ _ _
  · exact team.scatter_within _ _ _ _

end VectorLayout

namespace Hierarchy

theorem joinTeam_other (p : Placement) (solver : Option Group) :
    (joinTeam p solver : Task S Hierarchy).Within Error.Other := by
  rw [joinTeam]
  dsimp only
  split
  · exact trivial
  · refine (p.node.split_within _ _).bind fun team => ?_
    cases team with
    | none => exact trivial
    | some team => exact Task.Within.bind (within_insist _) fun _ => Task.within_pure _

theorem survey_other {countDevices : Group → Attempt Nat}
    (counts : ∀ node, (countDevices node).Within Error.Other) (global node : Group) :
    (survey global node countDevices : Task S Placement).Within Error.Other := by
  have assigned : ∀ devices processes rank,
    (Assignment.of devices processes rank).Within Error.Other :=
    fun devices processes rank => by simp [Assignment.of, Word.mul]
  refine Task.Within.bind node.nodeName_within fun nodeName =>
    Task.Within.bind (counts node) fun devices => ?_
  split
  · exact Task.Within.bind trivial fun _ => Task.Within.bind (assigned ..) fun _ =>
      Task.within_pure _
  · exact Task.Within.bind (assigned ..) fun _ => Task.within_pure _

theorem build_other {countDevices : Group → Attempt Nat}
    (counts : ∀ node, (countDevices node).Within Error.Other) (group : Group) :
    (build group countDevices : Task S Hierarchy).Within Error.Other := by
  have divided : (divide group : Task S (Group × Group)).Within Error.Other :=
    group.duplicate_within.bind fun global => global.splitByNode_within.bind fun _ =>
      Task.within_pure _
  refine divided.bind fun groups => (survey_other counts _ _).bind fun p => ?_
  refine Task.Within.bind (p.global.barrier_within.bind fun _ => p.global.split_within _ _)
    fun solver => ?_
  exact joinTeam_other p solver

end Hierarchy

/-! ## Work -/

def Work.Within (P : Error → Prop) (work : Work S σ α) : Prop :=
  ∀ state, (work.start state).Always fun ended => ended.1.Within P

namespace Work

theorem within_pure (value : α) : (pure value : Work S σ α).Within P := fun _ => trivial

theorem within_refused {cause : Error} (h : P cause) :
    (throw (.refused cause) : Work S σ α).Within P := fun _ => h

theorem within_ofAttempt {outcome : Attempt α} (h : outcome.Within P) :
    (ofAttempt outcome : Work S σ α).Within P :=
  fun _ => h

theorem within_ofTask {task : Task S α} (h : task.Within P) :
    (ofTask task : Work S σ α).Within P := fun _ =>
  Program.Always.bind h fun _ within => within

theorem within_note (event : Event) : (note event : Work S σ Unit).Within P := fun _ => trivial

theorem within_modify (change : σ → σ) :
    (modify change : Work S σ PUnit).Within P := fun _ => trivial

theorem within_get : (get : Work S σ σ).Within P := fun _ => trivial

theorem Within.bind {work : Work S σ α} {f : α → Work S σ β} (first : work.Within P)
    (next : ∀ value, (f value).Within P) : (work >>= f).Within P := by
  intro state
  rw [start_bind]
  refine (first state).bind fun ended within => ?_
  obtain ⟨outcome, state'⟩ := ended
  cases outcome with
  | ok value => exact next value state'
  | error failure => cases failure <;> exact within

theorem Within.map {work : Work S σ α} (h : work.Within P) (f : α → β) : (f <$> work).Within P := by
  rw [map_eq_pure_bind]
  exact h.bind fun _ => within_pure _

end Work

namespace Attached

/-- What an attempt at some work hands over is refused for the causes of the work, and the attempt
is not refused. -/
theorem attempt_bind_within {work : Step S α} {f : Attempt α → Step S β} (first : work.Within P)
    (next : ∀ outcome, outcome.Within P → (f outcome).Within P) :
    (attempt work >>= f).Within P := by
  intro a
  rw [Work.start_bind, attempt, Work.start_tryCatch, Work.start_map, bind_assoc, bind_assoc]
  refine (first a).bind fun ended within => ?_
  obtain ⟨outcome, a'⟩ := ended
  rcases outcome with (cause | _) | value
  · exact next _ within a'
  · exact trivial
  · exact next _ within a'

theorem initialized_bind_within {f : Instance S → Step S β}
    (next : ∀ inst, (f inst).Within Error.Other) :
    (initialized >>= f).Within Error.Other := by
  refine Work.Within.bind (Work.Within.bind Work.within_get fun a => ?_) next
  cases a.solver.state with
  | none => exact Work.within_refused (by simp)
  | some inst => exact Work.within_pure _

theorem leadsOf_other (hierarchy : Hierarchy) : (leadsOf hierarchy).Within Error.Other := by
  unfold leadsOf
  split <;> simp

variable [Scalar S]

theorem prepareHandles_other (handles : LeadHandles S) (globalRows : Nat) (block : Csr S)
    (partition : RowPartition) :
    (prepareHandles handles globalRows block partition).Within Error.Other := by
  have uploaded : (handles.matrix.upload globalRows block partition).Within Error.Other := by
    simp [MatrixHandle.upload]
  have prepared : ∀ m : MatrixHandle S, (handles.solver.setup m).Within Error.Other := by
    intro m
    unfold SolverHandle.setup
    split
    · simp
    · exact .bind (by simp [System.prepare]) fun _ => trivial
  have bound : ∀ (v : VectorHandle S) (m : MatrixHandle S), (v.bind m).Within Error.Other := by
    intro v m
    unfold VectorHandle.bind
    split <;> simp
  refine Work.Within.bind (Work.within_ofAttempt uploaded) fun m =>
    (Work.within_modify _).bind fun _ => ?_
  refine Work.Within.bind (Work.within_ofAttempt (prepared m)) fun _ =>
    (Work.within_modify _).bind fun _ => ?_
  refine Work.Within.bind (Work.within_ofAttempt (bound _ m)) fun _ =>
    (Work.within_modify _).bind fun _ => ?_
  exact Work.Within.bind (Work.within_ofAttempt (bound _ m)) fun _ => Work.within_modify _

theorem uploadTeam_other (hierarchy : Hierarchy) (handles : LeadHandles S) (m : RowShare S)
    (block : Option (Csr S)) :
    (uploadTeam hierarchy handles m block).Within Error.Other := by
  cases block with
  | none => exact Work.within_refused (by simp)
  | some block =>
    refine Work.Within.bind (Work.within_ofAttempt (leadsOf_other hierarchy)) fun leads => ?_
    refine Work.Within.bind (Work.within_ofTask (leads.allGather_within _ _)) fun counts => ?_
    refine Work.Within.bind (Work.within_ofAttempt (RowPartition.ofCounts_within _))
      fun partition => ?_
    refine Work.Within.bind (Work.within_ofAttempt (partition.range_within _)) fun rows => ?_
    refine Work.Within.bind (Work.within_ofTask (leads.sumCounts_within _)) fun count => ?_
    dsimp only
    split
    · exact Work.Within.bind (Work.within_refused (by simp)) fun _ => prepareHandles_other _ _ _ _
    · exact prepareHandles_other _ _ _ _

omit [Scalar S] in
theorem checkOrder_other (hierarchy : Hierarchy) (m : RowShare S) (counts : List Nat) :
    (checkOrder hierarchy m counts).Within Error.Other := by
  have ordered : (checkTeamRows hierarchy.team m counts : Task S Unit).Within Error.Other := by
    refine Task.Within.bind (hierarchy.team.allGather_within _ _) fun starts =>
      .forM fun before => ?_
    simp
  refine attempt_bind_within (Work.within_ofTask ordered) fun order within => ?_
  refine Work.Within.bind (Work.within_ofTask (hierarchy.global.sumCounts_within _))
    fun misordered => ?_
  refine Work.Within.bind (Work.within_ofAttempt within) fun _ => ?_
  split
  · exact Work.within_refused (by simp)
  · exact Work.within_pure _

theorem uploadRows_other (inst : Instance S) (m : RowShare S) (block : Option (Csr S)) :
    (uploadRows inst m block).Within Error.Other := by
  have announced : ∀ upload : Attempt Unit, upload.Within Error.Other → (do
      let verdict : List Nat ←
        Work.ofTask (inst.hierarchy.team.broadcast .word64 0 [if upload.toBool then 0 else 1])
      Work.ofAttempt upload
      unless verdict = [0] do throw (TopologyError.rejectedByLead : Failure) :
        Step S Unit).Within Error.Other := by
    refine fun upload within =>
      Work.Within.bind (Work.within_ofTask (Group.broadcast_within _ _ _ _)) fun verdict => ?_
    refine Work.Within.bind (Work.within_ofAttempt within) fun _ => ?_
    split
    · exact Work.within_pure _
    · exact Work.within_refused (by simp)
  unfold uploadRows
  cases inst.lead with
  | none =>
    simp only [pure_bind]
    exact announced _ (within_ok ())
  | some handles => exact attempt_bind_within (uploadTeam_other _ _ _ _) announced

omit [Scalar S] in
theorem recordMatrix_other (layout : VectorLayout) :
    (recordMatrix layout : Step S Unit).Within Error.Other := by
  refine (Work.within_modify _).bind fun _ => Work.within_get.bind fun a => ?_
  refine Work.Within.bind (Work.within_ofAttempt (Word.countUp_within _)) fun uploads => ?_
  exact (Work.within_modify _).bind fun _ => Work.within_modify _

/-- Setting a matrix has nothing to do with the lifetime of the engine. -/
theorem setMatrix_other (m : RowShare S) : (setMatrix m).Within Error.Other := by
  refine initialized_bind_within fun inst =>
    Work.Within.bind (Work.within_ofAttempt m.localBlock_within) fun block => ?_
  refine Work.Within.bind (Work.within_ofTask (mergeTeam_other _ block)) fun merged => ?_
  refine (checkOrder_other _ _ _).bind fun _ => (uploadRows_other _ _ _).bind fun _ => ?_
  exact recordMatrix_other _

end Attached

/-! ## The iteration -/

namespace BiCgStab

variable [Scalar S] (system : System S) (leads : Group)

theorem dot_within (x y : List S) :
    (dot leads x y).Within P := Work.within_ofTask (leads.sum_within _)

theorem norm_within (x : List S) :
    (norm leads x).Within P := (dot_within leads x x).bind fun _ => Work.within_pure _

theorem product_within (x : List S) : (product system leads x).Within P := by
  refine Work.within_ofTask (Task.Within.bind (by simp [System.place]) fun placed => ?_)
  exact (leads.sumVector_within _).bind fun whole => system.block.spmv_within whole

theorem pass_within (shadow : List S) (target : S) (finished : Nat) (carry : Carry S) :
    (pass system leads shadow target finished carry).Within P := by
  refine (dot_within leads _ _).bind fun rho => ?_
  split
  · exact Work.within_pure _
  refine (product_within system leads _).bind fun image =>
    (dot_within leads _ _).bind fun projection => ?_
  split
  · exact Work.within_pure _
  refine (norm_within leads _).bind fun half => ?_
  split
  · exact (Work.within_modify _).bind fun _ => Work.within_pure _
  refine (product_within system leads _).bind fun halfImage =>
    (dot_within leads _ _).bind fun halfProduct => ?_
  refine (dot_within leads _ _).bind fun square => ?_
  split
  · exact Work.within_pure _
  refine (Work.within_modify _).bind fun _ => (norm_within leads _).bind fun size => ?_
  split
  · exact Work.within_pure _
  split
  · exact Work.within_pure _
  split
  · exact Work.within_pure _
  exact Work.within_pure _

theorem iterate_within (left finished : Nat) (shadow : List S) (target : S) (carry : Carry S) :
    (iterate system leads shadow target finished left carry).Within P := by
  induction left generalizing finished carry with
  | zero => exact Work.within_pure _
  | succ left ih =>
    refine (pass_within system leads _ _ _ _).bind fun left => ?_
    cases left with
    | inl answer => exact Work.within_pure _
    | inr carry => exact ih _ _

theorem opening_within (settings : Settings S) (b : List S) :
    (opening system leads settings b).Within P := by
  refine (norm_within leads b).bind fun size => ?_
  split
  · exact (Work.within_modify _).bind fun _ => Work.within_pure _
  refine Work.within_get.bind fun x => (product_within system leads x).bind fun start => ?_
  refine (norm_within leads _).bind fun norm => ?_
  split
  · exact Work.within_pure _
  · exact Work.within_pure _

/-- The iteration fails only where a collective operation or a product aborts. -/
theorem solve_within (settings : Settings S) (b : List S) :
    (solve system leads settings b).Within P := by
  refine (opening_within system leads settings b).bind fun left => ?_
  cases left with
  | inl answer => exact Work.within_pure _
  | inr first => exact iterate_within _ _ _ _ _ _ _

end BiCgStab

/-! ## Solving -/

section Solving

variable [Scalar S]

omit [Scalar S] in
theorem VectorHandle.upload_other (v : VectorHandle S) (data : List S) :
    (v.upload data).Within Error.Other := by
  unfold upload
  split <;> simp

omit [Scalar S] in
theorem SolverHandle.checkSolve_other (handle : SolverHandle S) (rhs solution : VectorHandle S) :
    (handle.checkSolve rhs solution).Within Error.Other := by
  unfold checkSolve
  split
  · simp
  · simp

omit [Scalar S] in
theorem SolverHandle.lastStatus_other (handle : SolverHandle S) :
    handle.lastStatus.Within Error.Other := by
  unfold lastStatus
  split <;> simp

theorem SolverHandle.solve_other (handle : SolverHandle S) (rhs solution : VectorHandle S) :
    (handle.solve rhs solution).Always fun answer => answer.1.Within Error.Other := by
  have checked := handle.checkSolve_other rhs solution
  rw [SolverHandle.solve]
  cases found : handle.checkSolve rhs solution with
  | error failure =>
    rw [found] at checked
    cases failure <;> exact checked
  | ok system =>
    have iterated :=
      BiCgStab.solve_within (P := Error.Other) system handle.leads handle.settings rhs.data
    refine (iterated solution.data).bind ?_
    rintro ⟨outcome, data⟩ within
    rcases outcome with failure | answer
    · cases failure <;> exact within
    · exact trivial

namespace Attached

def concludeTeam (hierarchy : Hierarchy) (length : Nat) (outcome : Attempt Unit)
    (solver : SolverHandle S) (solution : VectorHandle S) : Step S (Status × List S) := do
  modifyLead fun handles => { handles with solver, solution }
  Work.ofAttempt outcome
  let status ← Work.ofAttempt solver.lastStatus
  unless status.isSuccess do Work.note (unsuccessful status hierarchy)
  let data ← Work.ofAttempt (solution.download length)
  pure (status, data)

omit [Scalar S] in
theorem concludeTeam_other (hierarchy : Hierarchy) (length : Nat) {outcome : Attempt Unit}
    (within : outcome.Within Error.Other) (solver : SolverHandle S) (solution : VectorHandle S) :
    (concludeTeam hierarchy length outcome solver solution).Within Error.Other := by
  have loaded : (solution.download length).Within Error.Other := by simp [VectorHandle.download]
  refine (Work.within_modify _).bind fun _ =>
    Work.Within.bind (Work.within_ofAttempt within) fun _ => ?_
  refine Work.Within.bind (Work.within_ofAttempt solver.lastStatus_other) fun status => ?_
  dsimp only
  split
  · exact Work.Within.bind (Work.within_ofAttempt loaded) fun _ => Work.within_pure _
  · refine Work.Within.bind (Work.within_note _) fun _ => ?_
    exact Work.Within.bind (Work.within_ofAttempt loaded) fun _ => Work.within_pure _

theorem solveTeam_other (hierarchy : Hierarchy) (handles : LeadHandles S) (x b : List S) :
    (solveTeam hierarchy handles x b).Within Error.Other := by
  refine Work.Within.bind (Work.within_ofAttempt (handles.solution.upload_other x))
    fun solution => ?_
  refine (Work.within_modify _).bind fun _ => ?_
  refine Work.Within.bind (Work.within_ofAttempt (handles.rhs.upload_other b)) fun rhs => ?_
  refine (Work.within_modify _).bind fun _ a => ?_
  rw [Work.start_lift_bind]
  refine (handles.solver.solve_other rhs solution).bind fun answer within => ?_
  exact concludeTeam_other hierarchy x.length within answer.2.1 answer.2.2 a

omit [Scalar S] in
theorem checkVectors_other (hierarchy : Hierarchy) (layout : VectorLayout) (x b : List S) :
    (checkVectors hierarchy layout x b).Within Error.Other := by
  refine Work.Within.bind (Work.within_ofAttempt (within_ofOption _)) fun expected => ?_
  refine Work.Within.bind (Work.within_ofTask (Group.sumCounts_within _ _)) fun mismatches => ?_
  split
  · exact Work.within_refused (by simp)
  · exact Work.within_pure _

theorem solveOnLead_other (inst : Instance S) (teamX teamB : Option (List S)) :
    (solveOnLead inst teamX teamB).Within Error.Other := by
  unfold solveOnLead
  split
  · exact (solveTeam_other _ _ _ _).bind fun _ => Work.within_pure _
  · exact Work.within_pure _

omit [Scalar S] in
theorem recordSolve_other (status : Status) :
    (recordSolve status : Step S Unit).Within Error.Other := by
  refine Work.within_get.bind fun a =>
    Work.Within.bind (Work.within_ofAttempt (Word.countUp_within _)) fun solves => ?_
  refine (Work.within_modify _).bind fun _ => ?_
  dsimp only
  split
  · exact Work.within_modify _
  · refine Work.Within.bind (Work.within_ofAttempt (Word.countUp_within _)) fun failed => ?_
    exact (Work.within_modify _).bind fun _ => Work.within_modify _

/-- Solving has nothing to do with the lifetime of the engine. -/
theorem solve_other (x b : List S) : (solve x b).Within Error.Other := by
  refine initialized_bind_within fun inst => ?_
  cases inst.layout with
  | none => exact Work.within_refused (by simp)
  | some layout =>
    refine (checkVectors_other _ layout x b).bind fun _ => ?_
    refine Work.Within.bind (Work.within_ofTask (layout.gather_other _ _)) fun teamX => ?_
    refine Work.Within.bind (Work.within_ofTask (layout.gather_other _ _)) fun teamB => ?_
    refine (solveOnLead_other _ _ _).bind fun answer => ?_
    refine Work.Within.bind (Work.within_ofTask (Group.broadcast_within _ _ _ _)) fun code => ?_
    refine Work.Within.bind (Work.within_ofTask (layout.scatter_other _ _ _)) fun own => ?_
    refine Work.Within.bind (Work.within_ofAttempt (within_ofOption _)) fun status => ?_
    exact (recordSolve_other status).bind fun _ => Work.within_pure _

end Attached

end Solving

end DeviceTeams
