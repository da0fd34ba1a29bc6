import DeviceTeams.Proofs.Keeping
import DeviceTeams.Proofs.Loading
import DeviceTeams.Proofs.Shares

/-!
# Matrices that have been taken

If setting a matrix ends well on all ranks, then its rows are in order, the leads hold the rows of
their teams, and all columns are inside of the system. The shares need not say the same about the
size of the matrix: the leads have compared what counts.
-/
namespace DeviceTeams

variable {S α β σ : Type} {A : Finset Nat} {node : Nat → Nat} {G : Nat → Group}
  {h : Nat → Hierarchy}
  {a : Nat → Attached S} {handles : Nat → LeadHandles S} {inst : Nat → Instance S}
  {m : Nat → RowShare S}

/-! ## What success requires -/

/-- Whatever the others bring, a task can only succeed if a condition holds. -/
def Task.Requires (condition : Prop) (task : Task S α) : Prop :=
  task.run.Always fun outcome => ∀ value, outcome = .ok value → condition

namespace Task

variable {condition : Prop}

theorem Requires.bind {f : α → Task S β} (task : Task S α)
    (next : ∀ value, (f value).Requires condition) :
    (task >>= f).Requires condition := by
  rw [Requires, run_bind]
  refine (Program.always_true task.run).bind fun outcome _ => ?_
  cases outcome with
  | ok value => exact next value
  | error failure => exact fun value wrong => nomatch wrong

theorem requires_ofAttempt_bind {x : Attempt α} (f : α → Task S β)
    (holds : ∀ value, x = .ok value → condition) :
    (Task.ofAttempt x >>= f).Requires condition := by
  rw [Requires, run_ofAttempt_bind]
  cases found : x with
  | ok value => exact (Program.always_true _).mono fun _ _ _ _ => holds value found
  | error failure => exact fun value wrong => nomatch wrong

end Task

theorem lt_of_toSigned {indices : List Nat} {signed : List Int}
    (taken : toSigned indices = .ok signed) :
    ∀ index ∈ indices, index < 2 ^ 63 := by
  have each := Attempt.mapM_eq_ok_iff.mp taken
  intro index member
  obtain ⟨place, bound, rfl⟩ := List.getElem_of_mem member
  have own := each.get (i := place) bound (each.length_eq ▸ bound)
  by_contra large
  have outside : ¬ indices[place] < 0x8000000000000000 := large
  rw [List.get_eq_getElem, if_neg outside] at own
  cases own

/-- Columns past the range of signed words are never merged. -/
theorem mergeTeam_requires (team : Group) (block : Csr S) :
    (mergeTeam team block).Requires (∀ column ∈ block.colIndices.toList, column < 2 ^ 63) := by
  rw [mergeTeam]
  refine .bind _ fun _ =>
    .bind _ fun _ => .bind _ fun _ => .bind _ fun _ => .bind _ fun _ => .bind _ fun _ => ?_
  exact Task.requires_ofAttempt_bind _ fun _ => lt_of_toSigned

/-- Rows that have been merged are tidy in the columns of the lead. -/
theorem merging_eq_ok_iff {ncols : Nat} {rows : Nat → List (List (Nat × S))} {team : Group}
    {merge : TeamMerge S} (taken : merging ncols rows team = .ok merge) :
    merge = merged ncols rows team ∧
      (team.rank = 0 → ∀ row ∈ (team.hub.ranks.map rows).flatten, Tidy ncols row) := by
  rw [merging] at taken
  split at taken
  · next first =>
    cases checked : (Csr.ofRows ncols (team.hub.ranks.map rows).flatten).validate with
    | error failure =>
      rw [checked] at taken
      cases taken
    | ok done =>
      rw [checked] at taken
      cases taken
      exact ⟨rfl, fun _ => (Csr.validate_ofRows.mp checked).2⟩
  · next other =>
    cases taken
    exact ⟨rfl, fun first => absurd first other⟩

/-! ## Success on all ranks -/

variable [Scalar S]

omit [Scalar S] in
/-- A matrix is recorded with its rows, unless there have been too many before. -/
theorem Attached.recordMatrix_ends (b : Attached S) (layout : VectorLayout) : ∃ ended,
    (recordMatrix layout).start b = .finished ended ∧
    (ended.1 = .ok () → ended.2 = b.loaded layout) := by
  by_cases few : b.solver.stats.matrixUploads + 1 < 2 ^ 32
  · exact ⟨_, start_recordMatrix b layout few, fun _ => rfl⟩
  · rw [recordMatrix, modifySolver, Work.start_modify_bind, Work.start_get_bind,
      Word.countUp_of_not_lt few, Work.start_ofAttempt_bind, Work.following_error]
    refine ⟨_, rfl, fun wrong => ?_⟩
    cases wrong

omit [Scalar S] in
/-- Setting a matrix succeeds only with rows whose columns are in the range of signed words. -/
theorem Attached.columns_lt_of_merged (team : Group) (ncols : Nat) (rows : List (List (Nat × S)))
    (next : TeamMerge S → Step S Unit) (a : Attached S) :
    ((mergeTeam team (.ofRows ncols rows)).run >>=
      fun outcome => Work.following next (outcome, a)).Always fun ended =>
        ended.1 = .ok () → ∀ row ∈ rows, ∀ entry ∈ row, entry.1 < 2 ^ 63 := by
  refine Program.Always.bind (mergeTeam_requires _ _) fun outcome holds => ?_
  cases outcome with
  | ok merged =>
    refine (Program.always_true _).mono fun _ _ _ row belongs entry within => ?_
    exact holds merged rfl entry.1
      (List.mem_map_of_mem (List.mem_flatten.mpr ⟨row, belongs, within⟩))
  | error failure =>
    intro wrong
    cases wrong

structure Taken (h : Nat → Hierarchy) (rows : Nat → List (List (Nat × S))) (m : Nat → RowShare S)
    (handles : Nat → LeadHandles S) (members : List Nat) (before : Attached S) (rank : Nat)
    (left : Attached S) :
    Prop where
  tidy : (h rank).isLead → ∀ row ∈ teamBlock h rows rank, Tidy (m rank).globalCols row
  accepted : Accepted h (fun rank => (m rank).globalCols) rows m handles members rank
  received : ∃ after, Received (fun rank => (m rank).globalCols) (teamBlock h rows) h m handles
    before rank after ∧
    left = after.loaded (teamLayout (h rank).team rows)

/-- Where all ranks come to a good end, their teams have merged tidy rows, and they have gone on
with these. -/
theorem merged_of_ends (ranked : Ranked node A G h) (opened : Open A h handles a inst)
    {rows : Nat → List (List (Nat × S))}
    (block : ∀ rank ∈ A, (m rank).localBlock = .ok (.ofRows (m rank).globalCols (rows rank)))
    (fits : ∀ rank ∈ A, Fits rows (G rank).hub.ranks) {rounds rounds' : Rounds}
    {v : Nat → Attempt Unit × Attached S}
    (reach : Reaches A rounds (fun rank => (Attached.setMatrix (m rank)).start (a rank)) rounds'
      fun rank => .finished (v rank)) (succeeded : ∀ rank ∈ A, (v rank).1 = .ok ()) :
    (∀ rank ∈ A, (h rank).isLead → ∀ row ∈ teamBlock h rows rank, Tidy (m rank).globalCols row) ∧
    ∃ rounds₁, Reaches A rounds₁ (fun rank => (Attached.placeRows (h rank) (inst rank) (m rank)
        (merged (m rank).globalCols rows (h rank).team)).start (a rank) >>=
          Work.following fun _ => Attached.recordMatrix (teamLayout (h rank).team rows)) rounds'
      fun rank => .finished (v rank) := by
  have first := reach.congr
    (fun rank inside => (Attached.start_setMatrix opened inside (block rank inside)).symm)
    fun _ _ => rfl
  have small : ∀ rank ∈ A, ∀ row ∈ rows rank, ∀ entry ∈ row, entry.1 < 2 ^ 63 := fun rank inside =>
    first.always inside (Attached.columns_lt_of_merged _ _ _ _ (a rank)) (succeeded rank inside)
  obtain ⟨rounds₁, merge, values, second⟩ :=
    (mergeTeam_completes ranked.team (fun rank => (m rank).globalCols) small
      (ranked.team_fits fits)).rest first
  have rejects := Hierarchy.rejects_following (A := A) (v := v) (a := a) (f := fun rank merge =>
    Attached.placeRows (h rank) (inst rank) (m rank) merge >>= fun _ =>
      Attached.recordMatrix ⟨merge.rows, (h rank).team.rank⟩) fun rank inside =>
        ⟨(), succeeded rank inside⟩
  have tidy : ∀ rank ∈ A, merge rank = .ok (merged (m rank).globalCols rows (h rank).team) ∧
      ((h rank).team.rank = 0 → ∀ row ∈ teamBlock h rows rank, Tidy (m rank).globalCols row) := by
    intro rank inside
    obtain ⟨value, ok⟩ := rejects.ok second inside
    rw [ok]
    rw [values rank inside] at ok
    obtain ⟨rfl, tidy⟩ := merging_eq_ok_iff ok
    exact ⟨rfl, tidy⟩
  refine ⟨fun rank inside lead =>
    (tidy rank inside).2 (by simpa [ranked.isLead rank inside] using lead), rounds₁, ?_⟩
  refine second.congr (fun rank inside => ?_) fun _ _ => rfl
  rw [(tidy rank inside).1]
  exact (Work.start_bind ..).symm

/-- Ranks that have all taken a matrix hold it. -/
theorem taken_of_ends (ranked : Ranked node A G h) (opened : Open A h handles a inst)
    {rows : Nat → List (List (Nat × S))}
    (block : ∀ rank ∈ A, (m rank).localBlock = .ok (.ofRows (m rank).globalCols (rows rank)))
    (stop : ∀ rank ∈ A, (m rank).rowStart + (rows rank).length < Word.limit)
    (fits : ∀ rank ∈ A, Fits rows (G rank).hub.ranks)
    (one : ∀ rank ∈ A, ∀ other ∈ A, other ∈ (G rank).hub.ranks) {rounds rounds' : Rounds}
    {v : Nat → Attempt Unit × Attached S}
    (reach : Reaches A rounds (fun rank => (Attached.setMatrix (m rank)).start (a rank)) rounds'
      fun rank => .finished (v rank)) (succeeded : ∀ rank ∈ A, (v rank).1 = .ok ()) :
    ∀ rank ∈ A, Taken h rows m handles (G rank).hub.ranks (a rank) rank (v rank).2 := by
  obtain ⟨tidy, rounds₁, placing⟩ := merged_of_ends ranked opened block fits reach succeeded
  obtain ⟨rounds₂, placed, settled, recording⟩ :=
    (placeRows_completes ranked opened (fun rank => (m rank).globalCols) stop fits one).rest placing
  intro rank inside
  have accepted : Accepted h (fun rank => (m rank).globalCols) rows m handles
      (G rank).hub.ranks rank := by
    by_contra fails
    obtain ⟨cause, refused⟩ := (settled rank inside).refuses fails
    have ends : v rank = (.error (.refused cause), a rank) :=
      recording.value_of_finished inside (by rw [refused]; rfl)
    have wrong := succeeded rank inside
    rw [ends] at wrong
    cases wrong
  obtain ⟨ok, received⟩ := (settled rank inside).accepts accepted
  obtain ⟨ended, records, loaded⟩ :=
    Attached.recordMatrix_ends (placed rank).2 (teamLayout (h rank).team rows)
  have same : v rank = ended := by
    refine recording.value_of_finished inside ?_
    rw [show placed rank = (.ok (), (placed rank).2) from Prod.ext ok rfl, Work.following_ok]
    exact records
  subst same
  exact ⟨tidy rank inside, accepted, (placed rank).2, received, loaded (succeeded rank inside)⟩

end DeviceTeams
