import DeviceTeams.Proofs.Agreement
import DeviceTeams.Proofs.Entries
import DeviceTeams.Proofs.Taking
import DeviceTeams.Proofs.TeamOrder
import DeviceTeams.Proofs.Verdicts

/-!
# When the ranks agree on a matrix

Ranks of one world set a matrix, each with a share that has been checked on its own, whatever the
shares say about the size of the matrix. A rank with a column past the signed words and a lead with
a column past its own leave their teams, and a lead whose matrix is not square is refused together
with its team only. The ranks all succeed or all are refused exactly if nothing of that divides
them.
-/
namespace DeviceTeams

variable {S : Type} {A : Finset Nat} {node : Nat → Nat} {G : Nat → Group} {h : Nat → Hierarchy}
  {a : Nat → Attached S} {handles : Nat → LeadHandles S} {inst : Nat → Instance S}
  {m : Nat → RowShare S} {cols : Nat → Nat} {rows : Nat → List (List (Nat × S))}

/-! ## Checks that refuse -/

theorem toSigned_refused {indices : List Nat} {failure : Failure}
    (fails : toSigned indices = .error failure) :
    ∃ cause, failure = .refused cause := by
  induction indices with
  | nil => cases fails
  | cons first rest ih =>
    rw [toSigned, List.mapM_cons] at fails
    by_cases small : first < 0x8000000000000000
    · rw [if_pos small, Attempt.ok_bind] at fails
      cases later : toSigned rest with
      | error failure' =>
        rw [toSigned] at later
        rw [later] at fails
        cases fails
        exact ih (by rw [toSigned, later])
      | ok signed =>
        rw [toSigned] at later
        rw [later] at fails
        cases fails
    · rw [if_neg small] at fails
      cases fails
      exact ⟨_, rfl⟩

/-- Rows have a column that is not a signed word. -/
theorem unsigned_iff {lines : List (List (Nat × S))} :
    (∃ failure, toSigned (lines.flatten.map (·.1)) = .error failure) ↔
      ∃ row ∈ lines, ∃ entry ∈ row, 2 ^ 63 ≤ entry.1 := by
  constructor
  · rintro ⟨failure, fails⟩
    by_contra none
    have small : ∀ index ∈ lines.flatten.map (·.1), index < 2 ^ 63 := by
      intro index member
      obtain ⟨entry, within, rfl⟩ := List.mem_map.mp member
      obtain ⟨row, belongs, among⟩ := List.mem_flatten.mp within
      by_contra large
      exact none ⟨row, belongs, entry, among, Nat.not_lt.mp large⟩
    cases (toSigned_eq small).symm.trans fails
  · rintro ⟨row, belongs, entry, among, large⟩
    have member := List.mem_map_of_mem (f := (·.1)) (List.mem_flatten.mpr ⟨row, belongs, among⟩)
    cases found : toSigned (lines.flatten.map (·.1)) with
    | error failure => exact ⟨failure, rfl⟩
    | ok signed => exact absurd (lt_of_toSigned found _ member) (Nat.not_lt.mpr large)

/-! ## What comes of the merging -/

def unsignedTeam (h : Nat → Hierarchy) (rows : Nat → List (List (Nat × S))) (rank : Nat) : Bool :=
  (h rank).team.hub.ranks.any fun member => !(toSigned ((rows member).flatten.map (·.1))).toBool

/-- What comes of the merging on a rank, as far as it does not wait. -/
def mergeVerdict (h : Nat → Hierarchy) (cols : Nat → Nat)
    (rows : Nat → List (List (Nat × S))) (rank : Nat) :
    Attempt Unit :=
  if unsignedTeam h rows rank then (toSigned ((rows rank).flatten.map (·.1))).map fun _ => ()
  else (merging (cols rank) rows (h rank).team).map fun _ => ()

def mergedTeam (h : Nat → Hierarchy) (cols : Nat → Nat) (rows : Nat → List (List (Nat × S)))
    (rank : Nat) : Bool :=
  (h rank).team.hub.ranks.all fun member => (mergeVerdict h cols rows member).toBool

theorem Attempt.map_eq_error_iff {α β : Type} {x : Attempt α} {f : α → β} {failure : Failure} :
    x.map f = .error failure ↔ x = .error failure := by
  cases x <;> simp [Except.map]

theorem Attempt.map_eq_ok_iff {α β : Type} {x : Attempt α} {f : α → β} {value : β} :
    x.map f = .ok value ↔ ∃ value', x = .ok value' ∧ f value' = value := by
  cases x <;> simp [Except.map]

theorem Attempt.not_toBool_iff {α : Type} {x : Attempt α} :
    x.toBool = false ↔ ∃ failure, x = .error failure := by
  cases x <;> simp [Except.toBool]

theorem unsignedTeam_iff {rank : Nat} : unsignedTeam h rows rank ↔
    ∃ member ∈ (h rank).team.hub.ranks, ∃ failure, toSigned ((rows member).flatten.map (·.1)) =
      .error failure := by
  simp only [unsignedTeam, List.any_eq_true, Bool.not_eq_true', Attempt.not_toBool_iff]

theorem not_mergedTeam_iff {rank : Nat} : ¬ mergedTeam h cols rows rank ↔
    ∃ member ∈ (h rank).team.hub.ranks, ∃ failure, mergeVerdict h cols rows member =
      .error failure := by
  simp only [mergedTeam, List.all_eq_true, not_forall, Bool.not_eq_true,
    Attempt.not_toBool_iff, exists_prop]

namespace Ranked

variable (ranked : Ranked node A G h)
include ranked

theorem unsignedTeam_eq {rank member : Nat} (inside : rank ∈ A)
    (belongs : member ∈ (h rank).team.hub.ranks) :
    unsignedTeam h rows member = unsignedTeam h rows rank := by
  rw [unsignedTeam, unsignedTeam, (ranked.team.of_mem inside belongs).2]

theorem mergedTeam_eq {rank member : Nat} (inside : rank ∈ A)
    (belongs : member ∈ (h rank).team.hub.ranks) :
    mergedTeam h cols rows member = mergedTeam h cols rows rank := by
  rw [mergedTeam, mergedTeam, (ranked.team.of_mem inside belongs).2]

/-- A rank with a column that is not a signed word is refused. -/
theorem mergeVerdict_of_unsigned {rank : Nat} (inside : rank ∈ A) {failure : Failure}
    (fails : toSigned ((rows rank).flatten.map (·.1)) = .error failure) :
    mergeVerdict h cols rows rank = .error failure := by
  have unsigned : unsignedTeam h rows rank :=
    unsignedTeam_iff.mpr ⟨rank, ranked.team.mem inside, failure, fails⟩
  rw [mergeVerdict, if_pos unsigned, fails]
  rfl

/-- A team with a column that is not a signed word does not come through the merging. -/
theorem not_mergedTeam_of_unsigned {rank : Nat} (inside : rank ∈ A)
    (unsigned : unsignedTeam h rows rank) :
    ¬ mergedTeam h cols rows rank := by
  obtain ⟨member, belongs, failure, fails⟩ := unsignedTeam_iff.mp unsigned
  exact not_mergedTeam_iff.mpr ⟨member, belongs, failure,
    ranked.mergeVerdict_of_unsigned (ranked.team.of_mem inside belongs).1 fails⟩

/-- Only a lead is refused by the merging, and only together with a reason. -/
theorem merging_refused (fits : ∀ rank ∈ A, Fits rows (G rank).hub.ranks) {rank : Nat}
    (inside : rank ∈ A) {failure : Failure}
    (fails : merging (cols rank) rows (h rank).team = .error failure) :
    (h rank).team.rank = 0 ∧ ∃ cause, failure = .refused cause := by
  rw [merging] at fails
  split at fails
  · next first =>
    refine ⟨first, ?_⟩
    have word := (ranked.team_fits fits rank inside).stacked_lt
      (List.length_pos_of_mem (ranked.team.mem inside))
    have refused := Attempt.map_eq_error_iff.mp fails
    by_cases tidy : ∀ row ∈ ((h rank).team.hub.ranks.map rows).flatten, Tidy (cols rank) row
    · cases ((Csr.validate_ofRows_decides word).accepts tidy).symm.trans refused
    · obtain ⟨cause, same⟩ := (Csr.validate_ofRows_decides word).refuses tidy
      cases same.symm.trans refused
      exact ⟨cause, rfl⟩
  · cases fails

theorem mergeVerdict_refused (fits : ∀ rank ∈ A, Fits rows (G rank).hub.ranks) {rank : Nat}
    (inside : rank ∈ A) {failure : Failure}
    (fails : mergeVerdict h cols rows rank = .error failure) :
    ∃ cause, failure = .refused cause := by
  rw [mergeVerdict] at fails
  split at fails
  · exact toSigned_refused (Attempt.map_eq_error_iff.mp fails)
  · exact (ranked.merging_refused fits inside (Attempt.map_eq_error_iff.mp fails)).2

/-- All ranks are refused by the merging exactly if each of them has a column that is not a signed
word. -/
theorem all_refused_iff (fits : ∀ rank ∈ A, Fits rows (G rank).hub.ranks)
    (tidy : ∀ rank ∈ A, ∀ row ∈ rows rank, Tidy (cols rank) row) :
    (∀ rank ∈ A, ∃ failure, mergeVerdict h cols rows rank = .error failure) ↔
      ∀ rank ∈ A, ∃ failure, toSigned ((rows rank).flatten.map (·.1)) = .error failure := by
  constructor
  · intro all rank inside
    by_cases unsigned : unsignedTeam h rows rank
    · obtain ⟨failure, fails⟩ := all rank inside
      rw [mergeVerdict, if_pos unsigned] at fails
      exact ⟨failure, Attempt.map_eq_error_iff.mp fails⟩
    -- Each member is a lead, so the rank is alone in its team, and its own rows are tidy in its own
    -- columns.
    · have first : ∀ member ∈ (h rank).team.hub.ranks, (h member).team.rank = 0 := by
        intro member belongs
        have member_inside := (ranked.team.of_mem inside belongs).1
        obtain ⟨failure, fails⟩ := all member member_inside
        rw [mergeVerdict, ranked.unsignedTeam_eq inside belongs, if_neg unsigned] at fails
        exact (ranked.merging_refused fits member_inside (Attempt.map_eq_error_iff.mp fails)).1
      have alone : ∀ member ∈ (h rank).team.hub.ranks, member = rank := by
        intro member belongs
        obtain ⟨member_inside, meets⟩ := ranked.team.of_mem inside belongs
        have own := ranked.team.own member member_inside
        have own' := ranked.team.own rank inside
        rw [meets, first member belongs] at own
        rw [first rank (ranked.team.mem inside), own, Option.some.injEq] at own'
        exact own'
      have merges : merging (cols rank) rows (h rank).team = .ok _ :=
        merging_eq_ok ranked.team (ranked.team_fits fits) inside fun _ member belongs row among =>
          tidy rank inside row (alone member belongs ▸ among)
      obtain ⟨failure, fails⟩ := all rank inside
      rw [mergeVerdict, if_neg unsigned, merges] at fails
      cases fails
  · intro all rank inside
    obtain ⟨failure, fails⟩ := all rank inside
    exact ⟨failure, ranked.mergeVerdict_of_unsigned inside fails⟩

/-- No rank is refused by the merging exactly if all columns are signed words and the rows of each
team are tidy in the columns of its lead. -/
theorem none_refused_iff (fits : ∀ rank ∈ A, Fits rows (G rank).hub.ranks) :
    (∀ rank ∈ A, ∃ value, mergeVerdict h cols rows rank = .ok value) ↔
      (∀ rank ∈ A, ∀ row ∈ rows rank, ∀ entry ∈ row, entry.1 < 2 ^ 63) ∧
      ∀ rank ∈ A, (h rank).isLead → ∀ member ∈ (h rank).team.hub.ranks, ∀ row ∈ rows member, Tidy
        (cols rank) row := by
  constructor
  · intro all
    have small : ∀ rank ∈ A, ∀ row ∈ rows rank, ∀ entry ∈ row, entry.1 < 2 ^ 63 := by
      intro rank inside row belongs entry among
      by_contra large
      obtain ⟨failure, fails⟩ := unsigned_iff.mpr ⟨row, belongs, entry, among, Nat.not_lt.mp large⟩
      obtain ⟨value, passes⟩ := all rank inside
      cases (ranked.mergeVerdict_of_unsigned inside fails).symm.trans passes
    refine ⟨small, fun rank inside lead => ?_⟩
    have signed : ¬ unsignedTeam h rows rank := fun unsigned => by
      obtain ⟨member, belongs, fails⟩ := unsignedTeam_iff.mp unsigned
      obtain ⟨row, among, entry, within, large⟩ := unsigned_iff.mp fails
      exact Nat.not_lt.mpr large
        (small member (ranked.team.of_mem inside belongs).1 row among entry within)
    obtain ⟨value, passes⟩ := all rank inside
    rw [mergeVerdict, if_neg signed] at passes
    obtain ⟨merge, merges, _⟩ := Attempt.map_eq_ok_iff.mp passes
    have first : (h rank).team.rank = 0 := by simpa [ranked.isLead rank inside] using lead
    intro member belongs row among
    exact (merging_eq_ok_iff merges).2 first row
      (List.mem_flatten.mpr ⟨_, List.mem_map_of_mem belongs, among⟩)
  · rintro ⟨small, tidy⟩ rank inside
    have signed : ¬ unsignedTeam h rows rank := fun unsigned => by
      obtain ⟨member, belongs, fails⟩ := unsignedTeam_iff.mp unsigned
      obtain ⟨row, among, entry, within, large⟩ := unsigned_iff.mp fails
      exact Nat.not_lt.mpr large
        (small member (ranked.team.of_mem inside belongs).1 row among entry within)
    have merges : merging (cols rank) rows (h rank).team = .ok _ :=
      merging_eq_ok ranked.team (ranked.team_fits fits) inside fun first =>
        tidy rank inside (by simpa [ranked.isLead rank inside] using first)
    refine ⟨(), ?_⟩
    rw [mergeVerdict, if_neg signed, merges]
    rfl

end Ranked

/-! ## Ranks that are not merged -/

variable [Scalar S]

namespace Attached

def placeMerged (hierarchy : Hierarchy) (inst : Instance S) (m : RowShare S) (merge : TeamMerge S) :
    Step S Unit := do
  checkOrder hierarchy m merge.rows.counts
  uploadRows inst m merge.block
  recordMatrix ⟨merge.rows, hierarchy.team.rank⟩

def uploadMerged (hierarchy : Hierarchy) (inst : Instance S) (m : RowShare S)
    (merge : TeamMerge S) : Step S Unit := do
  uploadRows inst m merge.block
  recordMatrix ⟨merge.rows, hierarchy.team.rank⟩

theorem start_placeMerged (hierarchy : Hierarchy) (inst : Instance S) (m : RowShare S)
    (merge : TeamMerge S) (b : Attached S) : (placeMerged hierarchy inst m merge).start b =
      (checkOrder hierarchy m merge.rows.counts).start b >>=
        Work.following fun _ => uploadMerged hierarchy inst m merge := by
  rw [placeMerged, Work.start_bind]
  rfl

theorem start_setMatrix_placed (opened : Open A h handles a inst) {rank : Nat}
    (inside : rank ∈ A) {block : Csr S} (taken : (m rank).localBlock = .ok block) :
    (setMatrix (m rank)).start (a rank) = (mergeTeam (h rank).team block).run >>= fun outcome =>
        Work.following (placeMerged (h rank) (inst rank) (m rank)) (outcome, a rank) := by
  rw [start_setMatrix opened inside taken]
  simp only [placeRows, bind_assoc]
  rfl

end Attached

/-- Where a rank comes to with the merging: the teams with a column that is not a signed word stop
before the blocks are gathered, and the others merge them. -/
def mergeStage (h : Nat → Hierarchy) (inst : Nat → Instance S) (m : Nat → RowShare S)
    (a : Nat → Attached S) (cols : Nat → Nat) (rows : Nat → List (List (Nat × S))) (rank : Nat) :
    Program S (Attempt Unit × Attached S) :=
  if unsignedTeam h rows rank then
    Task.following (deliverRows (cols rank) rows (h rank).team (rows rank))
      (toSigned ((rows rank).flatten.map (·.1))) >>=
      fun outcome => Work.following (Attached.placeMerged (h rank) (inst rank) (m rank))
      (outcome, a rank)
  else Work.following (Attached.placeMerged (h rank) (inst rank) (m rank))
    (merging (cols rank) rows (h rank).team, a rank)

/-- A rank that the merging refuses has come to its end. -/
theorem mergeStage_of_error {rank : Nat} {failure : Failure}
    (fails : mergeVerdict h cols rows rank = .error failure) :
    mergeStage h inst m a cols rows rank = .finished (.error failure, a rank) := by
  rw [mergeVerdict] at fails
  rw [mergeStage]
  split at fails
  · next unsigned =>
    rw [if_pos unsigned, Attempt.map_eq_error_iff.mp fails]
    rfl
  · next signed =>
    rw [if_neg signed, Attempt.map_eq_error_iff.mp fails]
    rfl

/-- A rank that the merging does not refuse, in a team that comes through it, goes on to the order
of the rows. -/
theorem mergeStage_of_ok {rank : Nat} (signed : ¬ unsignedTeam h rows rank) {value : Unit}
    (passes : mergeVerdict h cols rows rank = .ok value) : mergeStage h inst m a cols rows rank =
      (Attached.checkOrder (h rank) (m rank)
        ((h rank).team.hub.ranks.map fun member => (rows member).length)).start
        (a rank) >>= Work.following fun _ =>
          Attached.uploadMerged (h rank) (inst rank) (m rank)
            (merged (cols rank) rows (h rank).team) := by
  rw [mergeVerdict, if_neg signed] at passes
  obtain ⟨merge, merges, _⟩ := Attempt.map_eq_ok_iff.mp passes
  have same := (merging_eq_ok_iff merges).1
  subst same
  rw [mergeStage, if_neg signed, merges, Work.following_ok, Attached.start_placeMerged]
  rfl

/-- Where a rank comes to with the order of the rows: teams that come through the merging are about
to count the ranks whose order is wrong, and the others stay where the merging leaves them. -/
def countStage (h : Nat → Hierarchy) (inst : Nat → Instance S) (m : Nat → RowShare S)
    (a : Nat → Attached S) (cols : Nat → Nat) (rows : Nat → List (List (Nat × S)))
    (order : Nat → Attempt Unit) (rank : Nat) :
    Program S (Attempt Unit × Attached S) :=
  if mergedTeam h cols rows rank then
    (Attached.countMisordered (h rank).global (order rank)).start (a rank) >>=
      Work.following fun _ =>
      Attached.uploadMerged (h rank) (inst rank) (m rank) (merged (cols rank) rows (h rank).team)
  else mergeStage h inst m a cols rows rank

namespace Ranked

variable (ranked : Ranked node A G h)
include ranked

/-- A rank that the merging does not refuse waits for its team. -/
theorem mergeStage_waits (inst : Nat → Instance S) (m : Nat → RowShare S)
    (a : Nat → Attached S) {rank : Nat} (inside : rank ∈ A) {value : Unit}
    (passes : mergeVerdict h cols rows rank = .ok value) : ∃ payload resume,
      mergeStage h inst m a cols rows rank = .meet (h rank).team.hub
      (h rank).team.rank payload resume := by
  by_cases unsigned : unsignedTeam h rows rank
  · rw [mergeVerdict, if_pos unsigned] at passes
    obtain ⟨columns, signed, _⟩ := Attempt.map_eq_ok_iff.mp passes
    obtain ⟨payload, resume, meets⟩ : ∃ payload resume,
        (deliverRows (cols rank) rows (h rank).team (rows rank) columns).run =
          .meet (h rank).team.hub (h rank).team.rank payload resume :=
      deliverRows_waits ranked.team inside (cols rank) columns
    rw [mergeStage, if_pos unsigned, signed, Task.following_ok, meets]
    exact ⟨_, _, rfl⟩
  · obtain ⟨payload, resume, meets⟩ := Attached.checkOrder_waits (h rank) (m rank)
      ((h rank).team.hub.ranks.map fun member => (rows member).length) (a rank)
    rw [mergeStage_of_ok unsigned passes, meets]
    exact ⟨_, _, rfl⟩

/-- All ranks come to where the merging leaves them. -/
theorem reaches_mergeStage (opened : Open A h handles a inst)
    (block : ∀ rank ∈ A, (m rank).localBlock = .ok (.ofRows (cols rank) (rows rank)))
    (fits : ∀ rank ∈ A, Fits rows (G rank).hub.ranks) (rounds : Rounds) : ∃ rounds',
      Reaches A rounds (fun rank => (Attached.setMatrix (m rank)).start (a rank)) rounds'
        (mergeStage h inst m a cols rows) := by
  have stops := ranked.team.filter_const (p := fun rank => unsignedTeam h rows rank)
    fun rank inside member belongs holds => (ranked.unsignedTeam_eq inside belongs).trans holds
  have goes := ranked.team.filter_const (p := fun rank => ¬ unsignedTeam h rows rank)
    fun rank inside member belongs fails => ranked.unsignedTeam_eq inside belongs ▸ fails
  have small : ∀ rank ∈ A.filter fun rank => ¬ unsignedTeam h rows rank,
      ∀ row ∈ rows rank, ∀ entry ∈ row, entry.1 < 2 ^ 63 := by
    intro rank member row belongs entry within
    obtain ⟨inside, signed⟩ := Finset.mem_filter.mp member
    by_contra large
    apply signed
    exact unsignedTeam_iff.mpr ⟨rank, ranked.team.mem inside, unsigned_iff.mpr
      ⟨row, belongs, entry, within, Nat.not_lt.mp large⟩⟩
  obtain ⟨rounds₁, first⟩ := mergeTeam_reaches stops cols
    (fun rank member => ranked.team_fits fits rank (Finset.mem_filter.mp member).1) rounds
  obtain ⟨rounds₂, w, second, values⟩ := mergeTeam_completes goes cols small
    (fun rank member => ranked.team_fits fits rank (Finset.mem_filter.mp member).1) rounds₁
  let place : Nat → Attempt (TeamMerge S) → Program S (Attempt Unit × Attached S) :=
    fun rank outcome =>
      Work.following (Attached.placeMerged (h rank) (inst rank) (m rank)) (outcome, a rank)
  refine ⟨rounds₂, ((first.andThen place).both (second.andThen place)).congr
    (fun rank inside => Attached.start_setMatrix_placed opened inside (block rank inside))
    fun rank inside => ?_⟩
  rw [mergeStage]
  split
  · rfl
  · next signed =>
    rw [values rank (Finset.mem_filter.mpr ⟨inside, signed⟩)]
    rfl

omit [Scalar S] in
/-- The members of a team that comes through the merging are not refused. -/
theorem exists_mergeVerdict {rank : Nat} (inside : rank ∈ A) (whole : mergedTeam h cols rows rank) :
    ∃ value, mergeVerdict h cols rows rank = .ok value := by
  cases found : mergeVerdict h cols rows rank with
  | ok value => exact ⟨value, rfl⟩
  | error failure =>
    exact absurd whole (not_mergedTeam_iff.mpr ⟨rank, ranked.team.mem inside, failure, found⟩)

/-- The teams that come through the merging go on to where all ranks meet. -/
theorem reaches_countStage (stop : ∀ rank ∈ A, (m rank).rowStart + (rows rank).length < Word.limit)
    (rounds : Rounds) :
    ∃ rounds' order, Reaches A rounds (mergeStage h inst m a cols rows) rounds'
      (countStage h inst m a cols rows order) := by
  have whole := ranked.team.filter_const (p := fun rank => mergedTeam h cols rows rank)
    fun rank inside member belongs holds => (ranked.mergedTeam_eq inside belongs).trans holds
  obtain ⟨rounds', order, ordered⟩ := checkOrder_reaches (a := a) whole
    (fun rank member => stop rank (Finset.mem_filter.mp member).1) rounds
  refine ⟨rounds', order,
    ((ordered.andThen fun rank => Work.following fun _ => Attached.uploadMerged (h rank)
    (inst rank) (m rank) (merged (cols rank) rows (h rank).team)).congr (fun rank member => ?_)
      fun _ _ => rfl).widen (Finset.filter_subset ..) |>.congr (fun _ _ => rfl)
      fun rank inside => ?_⟩
  · obtain ⟨inside, holds⟩ := Finset.mem_filter.mp member
    obtain ⟨value, passes⟩ := ranked.exists_mergeVerdict inside holds
    exact mergeStage_of_ok
      (fun unsigned => ranked.not_mergedTeam_of_unsigned inside unsigned holds) passes
  · simp only [countStage, Finset.mem_filter, inside, true_and]

/-- A rank that the merging refuses has come to its end. -/
theorem countStage_of_error {order : Nat → Attempt Unit} {rank : Nat} (inside : rank ∈ A)
    {failure : Failure} (fails : mergeVerdict h cols rows rank = .error failure) :
    countStage h inst m a cols rows order rank = .finished (.error failure, a rank) := by
  have apart : ¬ mergedTeam h cols rows rank := fun whole => by
    obtain ⟨value, passes⟩ := ranked.exists_mergeVerdict inside whole
    cases passes.symm.trans fails
  rw [countStage, if_neg apart]
  exact mergeStage_of_error fails

/-- A rank that the merging does not refuse waits for its team or for all ranks, and thereby for one
that is refused. -/
theorem countStage_waits (one : ∀ rank ∈ A, ∀ other ∈ A, other ∈ (G rank).hub.ranks)
    (some_refused : ∃ rank ∈ A, ∃ failure, mergeVerdict h cols rows rank = .error failure)
    {order : Nat → Attempt Unit} {rank : Nat} (inside : rank ∈ A) {value : Unit}
    (passes : mergeVerdict h cols rows rank = .ok value) : ∃ hub seat payload resume,
      countStage h inst m a cols rows order rank = .meet hub seat payload resume ∧
      hub.ranks[seat]? = some rank ∧
        ∃ refusing ∈ hub.ranks, refusing ∈ A ∧ ∃ failure, mergeVerdict h cols rows refusing =
          .error failure := by
  rw [countStage]
  by_cases whole : mergedTeam h cols rows rank
  · obtain ⟨refusing, among, fails⟩ := some_refused
    obtain ⟨payload, resume, meets⟩ :=
      Attached.countMisordered_waits (h rank).global (order rank) (a rank)
    rw [if_pos whole, meets]
    refine ⟨_, _, payload, fun round => resume round >>= _,
      rfl, ranked.global.own rank inside, refusing, ?_, among, fails⟩
    rw [ranked.global_ranks rank inside]
    exact one rank inside refusing among
  · obtain ⟨refusing, belongs, fails⟩ := not_mergedTeam_iff.mp whole
    obtain ⟨payload, resume, meets⟩ := ranked.mergeStage_waits inst m a inside passes
    rw [if_neg whole, meets]
    exact ⟨_, _, payload, resume, rfl, ranked.team.own rank inside, refusing, belongs,
      (ranked.team.of_mem inside belongs).1, fails⟩

/-- If the merging refuses a rank, then the others wait: for that rank, or for one of their
teams. -/
theorem halts_of_unmerged (opened : Open A h handles a inst)
    (block : ∀ rank ∈ A, (m rank).localBlock = .ok (.ofRows (cols rank) (rows rank)))
    (stop : ∀ rank ∈ A, (m rank).rowStart + (rows rank).length < Word.limit)
    (fits : ∀ rank ∈ A, Fits rows (G rank).hub.ranks)
    (one : ∀ rank ∈ A, ∀ other ∈ A, other ∈ (G rank).hub.ranks)
    (some_refused : ∃ rank ∈ A, ∃ failure, mergeVerdict h cols rows rank = .error failure)
    (rounds : Rounds) :
    ∃ left, Halts A rounds (fun rank => (Attached.setMatrix (m rank)).start (a rank)) left ∧
      (Agree A left ↔ ∀ rank ∈ A, ∃ failure, mergeVerdict h cols rows rank = .error failure) ∧
      ∀ rank ∈ A, (left rank).isSome ↔ ∃ failure, mergeVerdict h cols rows rank =
        .error failure := by
  obtain ⟨rounds₁, merges⟩ := ranked.reaches_mergeStage opened block fits rounds
  obtain ⟨rounds₂, order, counts⟩ := ranked.reaches_countStage stop rounds₁
  obtain ⟨left, halts, agrees⟩ := halts_of_refusals
    (fun rank inside failure fails =>
      ⟨ranked.mergeVerdict_refused fits inside fails, ranked.countStage_of_error inside fails⟩)
    some_refused (fun rank inside value passes =>
      ranked.countStage_waits one some_refused inside passes) rounds₂
  exact ⟨left, halts.after (merges.trans counts), agrees⟩

end Ranked

/-! ## What divides the ranks -/

/-- A share has an entry in a column past a number of columns. -/
def RowShare.Exceeds (m : RowShare S) (bound : Nat) : Prop :=
  ∃ row column value, m.Stores row column value ∧ bound ≤ column

/-- The blocks can be merged: all columns are signed words, and those of a team are columns of the
matrix that its lead has. -/
structure Mergeable (h : Nat → Hierarchy) (m : Nat → RowShare S) (n : Nat) : Prop where
  signed : ∀ rank < n, ¬ (m rank).Exceeds (2 ^ 63)
  inside : ∀ rank < n, ¬ (m rank).Exceeds (m (leadOf h rank)).globalCols

/-- Shares that do not divide the ranks: each of them has a column that is not a signed word, or the
blocks can be merged and the rows are not where they belong for some lead, or the matrices of all
leads are square, or none of them is. -/
inductive Unanimous (h : Nat → Hierarchy) (m : Nat → RowShare S) (n : Nat) : Prop
  | unsigned (all : ∀ rank < n, (m rank).Exceeds (2 ^ 63))
  | misplaced (merge : Mergeable h m n) {lead : Nat} (below : lead < n) (leads : (h lead).isLead)
      (fails : ¬ Tiles h (List.range n) (fun member => (m member).rowStart)
        (fun member => (m member).localRows) (m lead).globalRows)
  | square (merge : Mergeable h m n) (all : ∀ lead < n, (h lead).isLead →
      (m lead).globalRows = (m lead).globalCols)
  | oblong (merge : Mergeable h m n) (none : ∀ lead < n, (h lead).isLead →
      (m lead).globalRows ≠ (m lead).globalCols)

omit [Scalar S] in
theorem RowShare.Valid.exceeds_iff {m : RowShare S} (valid : m.Valid)
    {lines : List (List (Nat × S))} (block : m.localBlock = .ok (.ofRows m.globalCols lines))
    {bound : Nat} :
    m.Exceeds bound ↔ ∃ row ∈ lines, ∃ entry ∈ row, bound ≤ entry.1 := by
  constructor
  · rintro ⟨row, column, value, stored, past⟩
    obtain ⟨place, entries, _, found, among⟩ := (valid.stores_iff block).mp stored
    exact ⟨entries, List.mem_of_getElem? found, _, among, past⟩
  · rintro ⟨entries, belongs, ⟨column, value⟩, among, past⟩
    obtain ⟨place, found⟩ := List.mem_iff_getElem?.mp belongs
    exact ⟨_, column, value, (valid.stores_iff block).mpr ⟨place, entries, rfl, found, among⟩, past⟩

omit [Scalar S] in
/-- A checked share has no entry past its own columns. -/
theorem RowShare.Valid.not_exceeds {m : RowShare S} (valid : m.Valid) {bound : Nat}
    (enough : m.globalCols ≤ bound) :
    ¬ m.Exceeds bound := by
  obtain ⟨lines, block, tidy, _⟩ := valid.exists_rows
  rw [valid.exceeds_iff block]
  rintro ⟨row, belongs, entry, among, past⟩
  have := (tidy row belongs).inside entry among
  omega

omit [Scalar S] in
/-- Ranks that settle something agree if it holds for all of them or for none. -/
theorem agree_of_settles {σ : Type} {b : Nat → σ} {v : Nat → Attempt Unit × σ}
    {condition : Nat → Prop} {changed : Nat → σ → Prop}
    (settled : ∀ rank ∈ A, Settles (b rank) (v rank) (condition rank) (changed rank)) :
    Agree A (fun rank => some (v rank)) ↔ (∀ rank ∈ A, condition rank) ∨
    ∀ rank ∈ A, ¬ condition rank := by
  constructor
  · rintro (all | all)
    · left
      intro rank inside
      obtain ⟨left, same⟩ := all rank inside
      by_contra fails
      obtain ⟨cause, refused⟩ := (settled rank inside).refuses fails
      cases (Option.some.inj same).symm.trans refused
    · right
      intro rank inside holds
      obtain ⟨cause, left, same⟩ := all rank inside
      have accepted := ((settled rank inside).accepts holds).1
      rw [Option.some.inj same] at accepted
      cases accepted
  · rintro (all | none)
    · left
      intro rank inside
      exact ⟨(v rank).2,
        congrArg some (Prod.ext ((settled rank inside).accepts (all rank inside)).1 rfl)⟩
    · right
      intro rank inside
      obtain ⟨cause, refused⟩ := (settled rank inside).refuses (none rank inside)
      exact ⟨cause, b rank, congrArg some refused⟩

/-! ## All inputs -/

section World

variable {nodes : List Nat}

omit [Scalar S] in
/-- No rank is refused by the merging exactly if the blocks can be merged. -/
theorem none_refused_iff_mergeable
    (ranked : Ranked (fun rank => nodes.getD rank 0) (Finset.range nodes.length)
      (Group.world nodes) h)
    (valid : ∀ rank ∈ Finset.range nodes.length, (m rank).Valid)
    (blocks : ∀ rank ∈ Finset.range nodes.length, (m rank).localBlock =
      .ok (.ofRows (m rank).globalCols (rows rank)) ∧
      (∀ row ∈ rows rank, Tidy (m rank).globalCols row) ∧ (rows rank).length = (m rank).localRows)
    (fits : ∀ rank ∈ Finset.range nodes.length, Fits rows (Group.world nodes rank).hub.ranks) :
    (∀ rank ∈ Finset.range nodes.length, ∃ value,
      mergeVerdict h (fun rank => (m rank).globalCols) rows rank = .ok value) ↔
      Mergeable h m nodes.length := by
  rw [ranked.none_refused_iff fits]
  have exceeds : ∀ rank ∈ Finset.range nodes.length, ∀ bound, ¬ (m rank).Exceeds bound ↔
      ∀ row ∈ rows rank, ∀ entry ∈ row, entry.1 < bound := by
    intro rank inside bound
    rw [(valid rank inside).exceeds_iff (blocks rank inside).1]
    simp only [not_exists, not_and, Nat.not_le]
  constructor
  · rintro ⟨small, tidy⟩
    refine ⟨fun rank below => ?_, fun rank below => ?_⟩
    · exact (exceeds rank (Finset.mem_range.mpr below) _).mpr
        (small rank (Finset.mem_range.mpr below))
    · have inside := Finset.mem_range.mpr below
      have belongs := ranked.team.mem inside
      rw [← (ranked.team.of_mem inside (ranked.leadOf_mem inside)).2] at belongs
      exact (exceeds rank inside _).mpr fun row among entry within =>
        (tidy _ (ranked.leadOf_inside inside) (ranked.isLead_leadOf inside) rank belongs row
          among).inside entry within
  · intro merge
    refine ⟨fun rank inside =>
      (exceeds rank inside _).mp (merge.signed rank (Finset.mem_range.mp inside)), ?_⟩
    intro lead inside leads member belongs row among
    have member_inside := (ranked.team.of_mem inside belongs).1
    have within := merge.inside member (Finset.mem_range.mp member_inside)
    rw [ranked.leadOf_eq inside belongs, ranked.leadOf_self inside leads] at within
    exact ⟨((blocks member member_inside).2.1 row among).ascending,
      (exceeds member member_inside _).mp within row among⟩

def InPlace (h : Nat → Hierarchy) (m : Nat → RowShare S) (n : Nat) : Prop :=
  ∀ lead < n, (h lead).isLead → Tiles h (List.range n) (fun member => (m member).rowStart)
    (fun member => (m member).localRows) (m lead).globalRows

omit [Scalar S] in
/-- Blocks are accepted on a rank whose lead has a square matrix if the rows are where they
belong. -/
theorem accepted_iff_inPlace
    (ranked : Ranked (fun rank => nodes.getD rank 0) (Finset.range nodes.length)
      (Group.world nodes) h)
    (counts : ∀ rank ∈ Finset.range nodes.length, (rows rank).length = (m rank).localRows)
    (seats : ∀ rank ∈ Finset.range nodes.length, (h rank).isLead →
      (handles rank).matrix.leads.rank = (h rank).leads.rank ∧ (handles rank).matrix.leads.size =
      (h rank).leads.size)
    {rank : Nat} (inside : rank ∈ Finset.range nodes.length) :
    Accepted h (fun rank => (m rank).globalCols) rows m handles
    (Group.world nodes rank).hub.ranks rank ↔
      (m (leadOf h rank)).globalRows = (m (leadOf h rank)).globalCols ∧
      InPlace h m nodes.length := by
  have counts' : ∀ member ∈ List.range nodes.length, (rows member).length = (m member).localRows :=
    fun member among => counts member (Finset.mem_range.mpr (List.mem_range.mp among))
  rw [accepted_iff_tiles ranked inside _ rows seats]
  refine and_congr_right fun _ =>
    ⟨fun tiles lead below leads => ?_, fun tiles lead among leads => ?_⟩
  · exact (tiles lead (List.mem_range.mpr below) leads).congr fun member among =>
      (counts' member among).symm
  · exact (tiles lead (List.mem_range.mp among) leads).congr counts'

omit [Scalar S] in
/-- Shares whose blocks can be merged do not divide the ranks if the rows are misplaced for some
lead, or if the matrices of all leads are square, or none of them is. -/
theorem unanimous_iff_of_merged {n : Nat} (merge : Mergeable h m n) : Unanimous h m n ↔
    ¬ InPlace h m n ∨ (∀ lead < n, (h lead).isLead → (m lead).globalRows = (m lead).globalCols) ∨
      ∀ lead < n, (h lead).isLead → (m lead).globalRows ≠ (m lead).globalCols := by
  constructor
  · intro unanimous
    cases unanimous with
    | unsigned all =>
      exact .inr (.inl fun lead below _ => absurd (all lead below) (merge.signed lead below))
    | misplaced _ below leads fails => exact .inl fun tiles => fails (tiles _ below leads)
    | square _ all => exact .inr (.inl all)
    | oblong _ none => exact .inr (.inr none)
  · rintro (misplaced | all | none)
    · simp only [InPlace, not_forall] at misplaced
      obtain ⟨lead, below, leads, fails⟩ := misplaced
      exact .misplaced merge below leads fails
    · exact .square merge all
    · exact .oblong merge none

omit [Scalar S] in
/-- Blocks that can be merged are accepted on all ranks or on none exactly if the shares do not
divide the ranks. -/
theorem accepted_together_iff
    (ranked : Ranked (fun rank => nodes.getD rank 0) (Finset.range nodes.length)
      (Group.world nodes) h)
    (counts : ∀ rank ∈ Finset.range nodes.length, (rows rank).length = (m rank).localRows)
    (seats : ∀ rank ∈ Finset.range nodes.length, (h rank).isLead →
      (handles rank).matrix.leads.rank = (h rank).leads.rank ∧ (handles rank).matrix.leads.size =
      (h rank).leads.size)
    (merge : Mergeable h m nodes.length) :
    ((∀ rank ∈ Finset.range nodes.length, Accepted h
      (fun rank => (m rank).globalCols) rows m handles (Group.world nodes rank).hub.ranks rank) ∨
      ∀ rank ∈ Finset.range nodes.length, ¬ Accepted h
        (fun rank => (m rank).globalCols) rows m handles
        (Group.world nodes rank).hub.ranks rank) ↔ Unanimous h m nodes.length := by
  have accepted := fun rank (inside : rank ∈ Finset.range nodes.length) =>
    accepted_iff_inPlace ranked counts seats inside
  have of_lead : ∀ lead < nodes.length, (h lead).isLead →
      (Accepted h (fun rank => (m rank).globalCols) rows m handles
      (Group.world nodes lead).hub.ranks lead ↔
        (m lead).globalRows = (m lead).globalCols ∧ InPlace h m nodes.length) := by
    intro lead below leads
    have own := accepted lead (Finset.mem_range.mpr below)
    rwa [ranked.leadOf_self (Finset.mem_range.mpr below) leads] at own
  have lead_below : ∀ rank ∈ Finset.range nodes.length, leadOf h rank < nodes.length :=
    fun rank inside => Finset.mem_range.mp (ranked.leadOf_inside inside)
  rw [unanimous_iff_of_merged merge]
  by_cases tiles : InPlace h m nodes.length
  · simp only [tiles, and_true] at accepted of_lead
    rw [or_iff_right (not_not_intro tiles)]
    refine or_congr ⟨fun all lead below leads => ?_, fun all rank inside => ?_⟩
      ⟨fun none lead below leads square => ?_, fun none rank inside accepts => ?_⟩
    · exact (of_lead lead below leads).mp (all lead (Finset.mem_range.mpr below))
    · exact (accepted rank inside).mpr
        (all _ (lead_below rank inside) (ranked.isLead_leadOf inside))
    · exact none lead (Finset.mem_range.mpr below) ((of_lead lead below leads).mpr square)
    · exact none _ (lead_below rank inside) (ranked.isLead_leadOf inside)
        ((accepted rank inside).mp accepts)
  · exact iff_of_true (.inr fun rank inside accepts => tiles ((accepted rank inside).mp accepts).2)
      (.inl tiles)

omit [Scalar S] in
/-- Blocks that cannot be merged divide the ranks unless each rank has a column that is not a signed
word. -/
theorem unanimous_iff_of_unmerged {n : Nat} (unmerged : ¬ Mergeable h m n) :
    Unanimous h m n ↔ ∀ rank < n, (m rank).Exceeds (2 ^ 63) := by
  refine ⟨fun unanimous => ?_, .unsigned⟩
  cases unanimous with
  | unsigned all => exact all
  | misplaced merge => exact absurd merge unmerged
  | square merge => exact absurd merge unmerged
  | oblong merge => exact absurd merge unmerged

omit [Scalar S] in
/-- The merging refuses all ranks exactly if each has a column that is not a signed word. -/
theorem all_refused_iff_unsigned
    (ranked : Ranked (fun rank => nodes.getD rank 0) (Finset.range nodes.length)
      (Group.world nodes) h)
    (valid : ∀ rank ∈ Finset.range nodes.length, (m rank).Valid)
    (blocks : ∀ rank ∈ Finset.range nodes.length, (m rank).localBlock =
      .ok (.ofRows (m rank).globalCols (rows rank)) ∧
      (∀ row ∈ rows rank, Tidy (m rank).globalCols row) ∧ (rows rank).length = (m rank).localRows)
    (fits : ∀ rank ∈ Finset.range nodes.length, Fits rows (Group.world nodes rank).hub.ranks) :
    (∀ rank ∈ Finset.range nodes.length, ∃ failure,
      mergeVerdict h (fun rank => (m rank).globalCols) rows rank = .error failure) ↔
        ∀ rank < nodes.length, (m rank).Exceeds (2 ^ 63) := by
  rw [ranked.all_refused_iff fits fun rank inside => (blocks rank inside).2.1]
  simp only [Finset.mem_range]
  refine forall₂_congr fun rank below => ?_
  have inside := Finset.mem_range.mpr below
  rw [unsigned_iff, (valid rank inside).exceeds_iff (blocks rank inside).1]

/-- Ranks whose blocks can be merged all come to an end. -/
theorem halts_of_merged {a : Nat → Attached S}
    (ranked : Ranked (fun rank => nodes.getD rank 0) (Finset.range nodes.length)
      (Group.world nodes) h)
    (opened : Open (Finset.range nodes.length) h handles a inst)
    (seats : ∀ rank ∈ Finset.range nodes.length, (h rank).isLead →
      (handles rank).matrix.leads.rank = (h rank).leads.rank ∧ (handles rank).matrix.leads.size =
      (h rank).leads.size)
    (blocks : ∀ rank ∈ Finset.range nodes.length, (m rank).localBlock =
      .ok (.ofRows (m rank).globalCols (rows rank)) ∧
      (∀ row ∈ rows rank, Tidy (m rank).globalCols row) ∧ (rows rank).length = (m rank).localRows)
    (stop : ∀ rank ∈ Finset.range nodes.length, (m rank).rowStart + (rows rank).length < Word.limit)
    (fits : ∀ rank ∈ Finset.range nodes.length, Fits rows (Group.world nodes rank).hub.ranks)
    (merge : Mergeable h m nodes.length)
    (passes : ∀ rank ∈ Finset.range nodes.length, ∃ value,
      mergeVerdict h (fun rank => (m rank).globalCols) rows rank = .ok value)
    (few : ∀ rank < nodes.length, (a rank).solver.stats.matrixUploads < 2 ^ 32 - 1)
    (rounds : Rounds) :
    ∃ v : Nat → Attempt Unit × Attached S,
      Halts (Finset.range nodes.length) rounds
      (fun rank => (Attached.setMatrix (m rank)).start (a rank))
        (fun rank => some (v rank)) ∧
      (Agree (Finset.range nodes.length) (fun rank => some (v rank)) ↔
        Unanimous h m nodes.length) := by
  obtain ⟨small, tidy⟩ := (ranked.none_refused_iff fits).mp passes
  obtain ⟨rounds', v, reach, settled⟩ := setMatrix_completes_of_signed ranked opened _
    (fun rank inside => (blocks rank inside).1) small tidy stop fits
    (fun _ _ other inside => List.mem_range.mpr (Finset.mem_range.mp inside))
    (fun rank inside => by have := few rank (Finset.mem_range.mp inside); omega) rounds
  refine ⟨v, .of_finished reach, (agree_of_settles settled).trans ?_⟩
  exact accepted_together_iff ranked (fun rank inside => (blocks rank inside).2.2) seats merge

/-- Whatever the shares say, the ranks come to rest, and they agree exactly if the shares do not
divide them. -/
theorem halts_setMatrix {nodes : List Nat} {a : Nat → Attached S} (used : Used nodes a)
    (groups : ∀ rank < nodes.length, (a rank).solver.hierarchy = some (h rank))
    (checked : ∀ rank < nodes.length, (m rank).validate = .ok ())
    (memory : ((List.range nodes.length).map fun rank => (m rank).bytes).sum < 2 ^ 64)
    (few : ∀ rank < nodes.length, (a rank).solver.stats.matrixUploads < 2 ^ 32 - 1)
    (rounds : Rounds) : ∃ left,
      Halts (Finset.range nodes.length) rounds
      (fun rank => (Attached.setMatrix (m rank)).start (a rank)) left ∧
      (Agree (Finset.range nodes.length) left ↔ Unanimous h m nodes.length) ∧
      ((∀ rank < nodes.length, (left rank).isSome) ↔
        (∀ rank < nodes.length, (m rank).Exceeds (2 ^ 63)) ∨ Mergeable h m nodes.length) := by
  have valid : ∀ rank ∈ Finset.range nodes.length, (m rank).Valid := fun rank inside =>
    RowShare.validate_eq_ok_iff.mp (checked rank (Finset.mem_range.mp inside))
  obtain ⟨pointers, entries, word⟩ := room_of_bytes
      (fun rank (member : rank ∈ List.range nodes.length) =>
    valid rank (Finset.mem_range.mpr (List.mem_range.mp member))) memory
  rw [List.length_range] at word
  obtain ⟨handles, inst, ranked, opened, seats⟩ := used.opened_at word groups
  obtain ⟨rows, blocks, stop, fits⟩ := rows_of_valid (G := Group.world nodes) valid
    (fun rank _ member belongs => Finset.mem_range.mpr (List.mem_range.mp belongs))
    (fun _ _ => pointers)
    fun _ _ => entries
  have mergeable := none_refused_iff_mergeable ranked valid blocks fits
  have unsigned := all_refused_iff_unsigned ranked valid blocks fits
  by_cases refused : ∃ rank ∈ Finset.range nodes.length, ∃ failure,
      mergeVerdict h (fun rank => (m rank).globalCols) rows rank = .error failure
  · obtain ⟨left, halts, agrees, ended⟩ :=
      ranked.halts_of_unmerged opened (fun rank inside => (blocks rank inside).1)
      stop fits (fun _ _ other inside => List.mem_range.mpr (Finset.mem_range.mp inside))
      refused rounds
    obtain ⟨rank, inside, failure, fails⟩ := refused
    have unmerged : ¬ Mergeable h m nodes.length := fun merge => by
      obtain ⟨value, passes⟩ := mergeable.mpr merge rank inside
      cases passes.symm.trans fails
    refine ⟨left, halts, (agrees.trans unsigned).trans
      (unanimous_iff_of_unmerged unmerged).symm, ?_⟩
    rw [or_iff_left unmerged, ← unsigned]
    simp only [Finset.mem_range] at ended ⊢
    exact forall₂_congr ended
  · have passes : ∀ rank ∈ Finset.range nodes.length, ∃ value,
        mergeVerdict h (fun rank => (m rank).globalCols) rows rank = .ok value := by
      intro rank inside
      cases found : mergeVerdict h (fun rank => (m rank).globalCols) rows rank with
      | ok value => exact ⟨value, rfl⟩
      | error failure => exact absurd ⟨rank, inside, failure, found⟩ refused
    have merge := mergeable.mp passes
    obtain ⟨v, halts, agrees⟩ :=
      halts_of_merged ranked opened seats blocks stop fits merge passes few rounds
    exact ⟨_, halts, agrees, iff_of_true (fun _ _ => rfl) (.inr merge)⟩

/-- Ranks that have initialized an instance together set a matrix, each with a checked share of its
own; all shares are in one memory. Whatever the order of their steps, they all succeed or are all
refused exactly if the shares do not divide them. All of them come to an end exactly if the blocks
can be merged or each rank has a column that is not a signed word; otherwise some wait for ranks
that have been refused. -/
theorem setMatrix_agree_iff {nodes : List Nat} {a : Nat → Attached S} (used : Used nodes a)
    (groups : ∀ rank < nodes.length, (a rank).solver.hierarchy = some (h rank))
    (checked : ∀ rank < nodes.length, (m rank).validate = .ok ())
    (memory : ((List.range nodes.length).map fun rank => (m rank).bytes).sum < 2 ^ 64)
    (few : ∀ rank < nodes.length, (a rank).solver.stats.matrixUploads < 2 ^ 32 - 1)
    {hubs : Hubs S} {rounds : Rounds} (resting : hubs.Resting rounds) : ∃ left,
      (World.ofPrograms nodes.length
        (fun rank => (Attached.setMatrix (m rank)).start (a rank)) hubs).EndsWith
        ((List.range nodes.length).map left) ∧
      (Agree (Finset.range nodes.length) left ↔ Unanimous h m nodes.length) ∧
      ((∀ rank < nodes.length, (left rank).isSome) ↔
        (∀ rank < nodes.length, (m rank).Exceeds (2 ^ 63)) ∨ Mergeable h m nodes.length) := by
  obtain ⟨left, halts, agrees, ended⟩ := halts_setMatrix used groups checked memory few rounds
  exact ⟨left, halts.endsWith resting, agrees, ended⟩

def unitShare (cols rank : Nat) : RowShare Float :=
  ⟨2, cols, rank, rank, .ofRows 1 [[(0, 1.0)]], .ofRows 0 [[]], #[]⟩

theorem validate_unitShare {rank : Nat} (below : rank < 2) :
    (unitShare 2 rank).validate = .ok () ∧ (unitShare (3 - rank) rank).validate = .ok () := by
  have place : rank = 0 ∨ rank = 1 := by omega
  rcases place with rfl | rfl
  · exact ⟨rfl, rfl⟩
  · exact ⟨rfl, rfl⟩

/-- Two ranks with a row of one matrix each agree on it. -/
theorem setMatrix_agree_pair :
    ∃ (a : Nat → Attached Float) (left : Nat → Option (Attempt Unit × Attached Float)),
    Used [0, 1] a ∧
    (World.ofPrograms 2 (fun rank => (Attached.setMatrix (unitShare 2 rank)).start (a rank))
      []).EndsWith ((List.range 2).map left) ∧ Agree (Finset.range 2) left := by
  obtain ⟨h, a, used, states⟩ := Call.Feasible.used (S := Float) [0, 1]
    (Call.plain (Group.world [0, 1] 0) 1) (fun _ => 0) (by decide) (fun _ _ _ _ _ => rfl)
    (fun _ _ => Call.feasible_plain _ (by decide) (by decide))
  obtain ⟨left, ends, agrees, _⟩ := setMatrix_agree_iff used (h := h) (m := unitShare 2)
    (fun rank below => (states rank below).1)
    (fun rank below => (validate_unitShare below).1) (by decide)
    (fun rank below => by rw [(states rank below).2]; decide) Hubs.resting_nil
  have valid : ∀ rank < 2, (unitShare 2 rank).Valid := fun rank below =>
    RowShare.validate_eq_ok_iff.mp (validate_unitShare below).1
  refine ⟨a, left, used, ends,
    agrees.mpr (.square ⟨fun rank below => ?_, fun rank below => ?_⟩ fun _ _ _ => rfl)⟩
  · exact (valid rank below).not_exceeds (show 2 ≤ 2 ^ 63 by decide)
  · exact (valid rank below).not_exceeds (Nat.le_refl 2)

/-- Two ranks, each alone on its machine, have the rows of two matrices: that of the first rank has
a column more than rows. The first rank is refused and the second takes the matrix. -/
theorem setMatrix_disagree_pair :
    ∃ (a : Nat → Attached Float) (left : Nat → Option (Attempt Unit × Attached Float)),
    Used [0, 1] a ∧ (∀ rank < 2, (unitShare (3 - rank) rank).validate = .ok ()) ∧
    (World.ofPrograms 2
      (fun rank => (Attached.setMatrix (unitShare (3 - rank) rank)).start (a rank)) []).EndsWith
      ((List.range 2).map left) ∧ ¬ Agree (Finset.range 2) left := by
  obtain ⟨h, a, used, states⟩ := Call.Feasible.used (S := Float) [0, 1]
    (Call.plain (Group.world [0, 1] 0) 1) (fun _ => 0) (by decide) (fun _ _ _ _ _ => rfl)
    (fun _ _ => Call.feasible_plain _ (by decide) (by decide))
  have groups : ∀ rank < 2, (a rank).solver.hierarchy = some (h rank) :=
    fun rank below => (states rank below).1
  obtain ⟨left, halts, agrees, _⟩ :=
    halts_setMatrix used (h := h) (m := fun rank => unitShare (3 - rank) rank) groups
    (fun rank below => (validate_unitShare below).2) (by decide)
    (fun rank below => by rw [(states rank below).2]; decide) fun _ => 0
  have valid : ∀ rank < 2, (unitShare (3 - rank) rank).Valid := fun rank below =>
    RowShare.validate_eq_ok_iff.mp (validate_unitShare below).2
  refine ⟨a, left, used, fun rank below => (validate_unitShare below).2,
    halts.endsWith Hubs.resting_nil, fun agree => ?_⟩
  -- Both ranks are leads.
  obtain ⟨handles, inst, ranked, _, _⟩ := used.opened_at (by decide) groups
  have lead : ∀ rank < 2, (h rank).isLead := by
    intro rank below
    refine ranked.isLead_of_alone (Finset.mem_range.mpr below) fun other among same => ?_
    have other_below : other < 2 := List.mem_range.mp among
    have place : rank = 0 ∨ rank = 1 := by omega
    have place' : other = 0 ∨ other = 1 := by omega
    rcases place with rfl | rfl <;> rcases place' with rfl | rfl
    · rfl
    · exact absurd same (by decide)
    · exact absurd same (by decide)
    · rfl
  have tiles : Tiles h (List.range 2) (fun rank => rank) (fun _ => 1) 2 :=
    ranked.tiles_of_unbroken (ranked.unbroken_of_leads lead) (fun rank _ => by simp) rfl
  cases agrees.mp agree with
  | unsigned all =>
    exact (valid 0 (by decide)).not_exceeds (show 3 ≤ 2 ^ 63 by decide) (all 0 (by decide))
  | misplaced _ _ _ fails => exact fails tiles
  | square _ all => exact absurd (all 0 (by decide) (lead 0 (by decide))) (by decide)
  | oblong _ none => exact none 1 (by decide) (lead 1 (by decide)) rfl

end World

end DeviceTeams
