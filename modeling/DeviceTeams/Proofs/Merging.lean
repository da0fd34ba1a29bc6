import DeviceTeams.Proofs.Collectives
import DeviceTeams.Proofs.OffsetTables
import DeviceTeams.Teams.Merge
import Mathlib.Algebra.BigOperators.Group.List.Basic
import Mathlib.Algebra.Order.BigOperators.Group.List
import Mathlib.Algebra.Order.Ring.Nat

/-!
# Stacking the blocks of a team

The blocks that the members of a team send to their lead are stacked to the block of all their rows
in team order: shifting the pointers of each member by the entries before it gives the running
totals of all row lengths.
-/
namespace DeviceTeams

variable {S : Type}

/-! ## Pointers -/

theorem slice_eq {α : Type} {s : Span} {items : List α} (ordered : s.start ≤ s.stop)
    (inside : s.stop ≤ items.length) :
    s.slice items.toArray = .ok (s.cut items) := by
  rw [Span.slice, if_pos ⟨ordered, by simpa using inside⟩, Span.cut]
  simp

theorem tail_runningTotals_append (start : Nat) (counts later : List Nat) :
    (runningTotals start (counts ++ later)).tail =
      (runningTotals start counts).tail ++ (runningTotals (start + counts.sum) later).tail := by
  induction counts generalizing start with
  | nil => simp [runningTotals]
  | cons count rest ih =>
    obtain ⟨all, found⟩ := runningTotals_eq_cons (start + count) (rest ++ later)
    obtain ⟨own, found'⟩ := runningTotals_eq_cons (start + count) rest
    have step := ih (start + count)
    rw [found, found'] at step
    rw [List.cons_append, runningTotals, runningTotals, List.tail_cons, List.tail_cons, found,
      found', List.sum_cons, ← Nat.add_assoc, List.cons_append]
    exact congrArg _ step

theorem shiftPointers_eq (member base start : Nat) (counts : List Nat)
    (word : base + start + counts.sum < Word.limit) :
    shiftPointers member base start ((runningTotals start counts).tail.map Int.ofNat) =
      .ok (runningTotals (base + start) counts).tail := by
  induction counts generalizing start with
  | nil => rfl
  | cons count rest ih =>
    rw [List.sum_cons] at word
    obtain ⟨own, found⟩ := runningTotals_eq_cons (start + count) rest
    obtain ⟨moved, found'⟩ := runningTotals_eq_cons (base + start + count) rest
    have later := ih (start + count) (by omega)
    rw [← Nat.add_assoc] at later
    rw [found, found', List.tail_cons, List.tail_cons] at later
    have rises : ¬ Int.ofNat (start + count) < (start : Int) :=
      Int.not_lt.mpr (Int.ofNat_le.mpr (Nat.le_add_right start count))
    rw [runningTotals, runningTotals, List.tail_cons, List.tail_cons, found, found',
      List.map_cons, shiftPointers, if_neg rises]
    have sum : Word.add base (Int.ofNat (start + count)).toNat = .ok (base + start + count) := by
      show Word.add base (start + count) = _
      rw [Word.add_of_lt (by omega), Nat.add_assoc]
    rw [sum]
    simp only [Attempt.ok_bind]
    have cast : (Int.ofNat (start + count)) = ((start + count : Nat) : Int) := rfl
    rw [cast, later]
    rfl

theorem stitchMember_eq (member base : Nat) (counts : List Nat)
    (word : base + counts.sum < Word.limit) :
    stitchMember member base ((runningTotals 0 counts).map Int.ofNat) =
      .ok ((runningTotals base counts).tail, base + counts.sum) := by
  obtain ⟨rest, found⟩ := runningTotals_eq_cons 0 counts
  have shifted := shiftPointers_eq member base 0 counts word
  have last : (rest.map Int.ofNat).getLastD 0 = Int.ofNat counts.sum := by
    have final := getLast?_runningTotals 0 counts
    rw [found, Nat.zero_add] at final
    cases rest with
    | nil =>
      rw [List.getLast?_singleton, Option.some.injEq] at final
      rw [← final]
      rfl
    | cons first others =>
      rw [List.getLast?_cons_cons] at final
      rw [List.getLastD_eq_getLast?, List.getLast?_map, final]
      rfl
  have stop : Word.add base ((rest.map Int.ofNat).getLastD 0).toNat = .ok (base + counts.sum) := by
    rw [last]
    exact Word.add_of_lt word
  have shifted' : shiftPointers member base 0 (rest.map Int.ofNat) =
      .ok (runningTotals base counts).tail := by
    rw [found] at shifted
    exact shifted
  rw [found, List.map_cons, stitchMember, if_pos (show Int.ofNat 0 = 0 from rfl)]
  simp only [shifted', stop, Attempt.ok_bind, Attempt.pure_eq]

def stitchParts (member base : Nat) : List (List Int) → Attempt (List Nat)
  | [] => .ok []
  | pointers :: rest => do
    let (shifted, stop) ← stitchMember member base pointers
    let later ← stitchParts (member + 1) stop rest
    pure (shifted ++ later)

/-- The spans of a table cut the gathered pointers into those of the members. -/
theorem stitchFrom_flatten (front : List Int) (member base : Nat) (parts : List (List Int)) :
    stitchFrom (front ++ parts.flatten).toArray member base
      (Span.between (runningTotals front.length (parts.map List.length))) =
      stitchParts member base parts := by
  induction parts generalizing front member base with
  | nil => rfl
  | cons pointers rest ih =>
    have own : (Span.mk front.length (front.length + pointers.length)).slice
        (front ++ (pointers :: rest).flatten).toArray = .ok pointers := by
      rw [slice_eq (Nat.le_add_right ..) (by simp)]
      simp [Span.cut]
    rw [List.map_cons, between_runningTotals, stitchFrom, own, Attempt.ok_bind, stitchParts]
    cases stitchMember member base pointers with
    | error failure => rfl
    | ok stitched =>
      have later := ih (front ++ pointers) (member + 1) stitched.2
      rw [List.length_append, List.append_assoc, ← List.flatten_cons] at later
      simp only [Attempt.ok_bind, later]

theorem stitchRowPointers_flatten (parts : List (List Int)) :
    stitchRowPointers parts.flatten
    ⟨parts.map List.length, runningTotals 0 (parts.map List.length)⟩ =
      stitchParts 0 0 parts >>= fun later => pure (0 :: later) := by
  have stitched := stitchFrom_flatten [] 0 0 parts
  rw [List.nil_append, List.length_nil] at stitched
  rw [stitchRowPointers, SegmentTable.total_eq, if_pos List.length_flatten, stitched]

theorem stitchParts_eq (member base : Nat) (parts : List (List Nat))
    (word : base + parts.flatten.sum < Word.limit) :
    stitchParts member base (parts.map fun counts => (runningTotals 0 counts).map Int.ofNat) =
      .ok (runningTotals base parts.flatten).tail := by
  induction parts generalizing member base with
  | nil => rfl
  | cons counts rest ih =>
    rw [List.flatten_cons, List.sum_append] at word
    rw [List.map_cons, stitchParts, stitchMember_eq member base counts (by omega)]
    simp only [Attempt.ok_bind]
    rw [ih (member + 1) (base + counts.sum) (by omega), List.flatten_cons,
      tail_runningTotals_append]
    rfl

theorem stitchRowPointers_eq (parts : List (List Nat)) (word : parts.flatten.sum < Word.limit) :
    stitchRowPointers (parts.map fun counts => (runningTotals 0 counts).map Int.ofNat).flatten
      ⟨parts.map fun counts => counts.length + 1,
        runningTotals 0 (parts.map fun counts => counts.length + 1)⟩ =
      .ok (runningTotals 0 parts.flatten) := by
  have lengths : (parts.map fun counts => (runningTotals 0 counts).map Int.ofNat).map List.length =
      parts.map fun counts => counts.length + 1 := by simp
  obtain ⟨rest, found⟩ := runningTotals_eq_cons 0 parts.flatten
  rw [← lengths, stitchRowPointers_flatten, stitchParts_eq 0 0 parts (by simpa using word), found]
  rfl

theorem toSigned_eq {indices : List Nat} (small : ∀ index ∈ indices, index < 2 ^ 63) :
    toSigned indices = .ok (indices.map Int.ofNat) :=
  Attempt.mapM_of fun index member => if_pos (small index member)

theorem toColumns_eq (columns : List Nat) : toColumns (columns.map Int.ofNat) = .ok columns := by
  refine (Attempt.mapM_map_of (h := id) fun column _ => ?_).trans (by rw [List.map_id])
  have positive : 0 ≤ Int.ofNat column := Int.natCast_nonneg column
  rw [if_pos positive]
  rfl

/-! ## Stacking -/

/-- Stacking the members' blocks gives the block of all their rows, if that passes the check. -/
theorem stackBlocks_eq (ncols : Nat) (parts : List (List (List (Nat × S))))
    (entries : parts.flatten.flatten.length < Word.limit) :
    stackBlocks parts.flatten.length ncols
      ⟨parts.map fun rows => rows.length + 1,
        runningTotals 0 (parts.map fun rows => rows.length + 1)⟩
      (parts.map fun rows => (runningTotals 0 (rows.map List.length)).map Int.ofNat).flatten
      (parts.map fun rows => (rows.flatten.map (·.1)).map Int.ofNat).flatten
      (parts.map fun rows => rows.flatten.map (·.2)).flatten =
      (Csr.ofRows ncols parts.flatten).validate.map fun _ => .ofRows ncols parts.flatten := by
  have pointers := stitchRowPointers_eq (parts.map fun rows => rows.map List.length) (by
    rw [← List.map_flatten, ← List.length_flatten]
    exact entries)
  simp only [List.map_map, Function.comp_def, List.length_map] at pointers
  have columns : (parts.map fun rows => (rows.flatten.map (·.1)).map Int.ofNat).flatten =
      (parts.flatten.flatten.map (·.1)).map Int.ofNat := by
    rw [List.flatten_flatten, List.map_flatten, List.map_flatten]
    simp only [List.map_map, Function.comp_def]
  have values : (parts.map fun rows => rows.flatten.map (·.2)).flatten =
      parts.flatten.flatten.map (·.2) := by
    rw [List.flatten_flatten, List.map_flatten]
    simp only [List.map_map, Function.comp_def]
  have lengths : (parts.map fun rows => rows.map List.length).flatten =
    parts.flatten.map List.length :=
    List.map_flatten.symm
  rw [stackBlocks, pointers, Attempt.ok_bind, columns, toColumns_eq, Attempt.ok_bind, values,
    lengths, Csr.ofParts]
  show (Csr.ofRows ncols parts.flatten).validate.bind _ = _
  cases (Csr.ofRows ncols parts.flatten).validate <;> rfl

/-! ## Merging -/

variable {A : Finset Nat} {node : Nat → Nat} {G : Nat → Group} {ncols : Nat}
  {rows : Nat → List (List (Nat × S))}

/-- What a member of a team knows after the blocks of the team have been merged. -/
def merged (ncols : Nat) (rows : Nat → List (List (Nat × S))) (team : Group) : TeamMerge S where
  rows := ⟨team.hub.ranks.map fun member => (rows member).length,
    runningTotals 0 (team.hub.ranks.map fun member => (rows member).length)⟩
  entries := ⟨team.hub.ranks.map fun member => (rows member).flatten.length,
    runningTotals 0 (team.hub.ranks.map fun member => (rows member).flatten.length)⟩
  block := if team.rank = 0 then some (.ofRows ncols (team.hub.ranks.map rows).flatten) else none

structure Fits (rows : Nat → List (List (Nat × S))) (members : List Nat) : Prop where
  pointers : (members.map fun member => (rows member).length + 1).sum * 8 < 2 ^ 63
  entries : (members.map fun member => (rows member).flatten.length).sum * 8 < 2 ^ 63

namespace Fits

variable {members : List Nat} (fits : Fits rows members)
include fits

theorem pointers_lt : (members.map fun member => (rows member).length + 1).sum < Word.limit :=
  Word.lt_limit_of_bytes fits.pointers

theorem entries_lt : (members.map fun member => (rows member).flatten.length).sum < 2 ^ 60 := by
  have := fits.entries
  omega

theorem rows_lt :
    (members.map fun member => (rows member).length).sum + members.length < Word.limit := by
  have total := fits.pointers_lt
  rwa [List.sum_map_add, List.map_const', List.sum_replicate_nat, Nat.mul_one] at total

theorem ofCounts_rows : SegmentTable.ofCounts (members.map fun member => (rows member).length) =
    .ok ⟨members.map fun member => (rows member).length,
      runningTotals 0 (members.map fun member => (rows member).length)⟩ :=
  SegmentTable.ofCounts_eq (Nat.lt_of_le_of_lt (Nat.le_add_right ..) fits.rows_lt)

theorem ofCounts_entries :
    SegmentTable.ofCounts (members.map fun member => (rows member).flatten.length) =
    .ok ⟨members.map fun member => (rows member).flatten.length,
      runningTotals 0 (members.map fun member => (rows member).flatten.length)⟩ :=
  SegmentTable.ofCounts_eq (Nat.lt_trans fits.entries_lt (by decide))

/-- The rows of a team with a member, and one pointer more, can be counted. -/
theorem stacked_lt (some_member : 0 < members.length) :
    (members.map rows).flatten.length + 1 < Word.limit := by
  have total := fits.rows_lt
  rw [List.length_flatten, List.map_map]
  show (members.map fun member => (rows member).length).sum + 1 < _
  omega

theorem entries_le {member : Nat} (belongs : member ∈ members) :
    (rows member).flatten.length < 2 ^ 60 :=
  Nat.lt_of_le_of_lt (List.single_le_sum (fun _ _ => Nat.zero_le _) _
    (List.mem_map_of_mem (f := fun member => (rows member).flatten.length) belongs)) fits.entries_lt

theorem ofCounts_pointers :
    (do
      SegmentTable.ofCounts
        (← (members.map fun member => (rows member).length).mapM fun count => Word.add count 1) :
      Attempt SegmentTable) =
    .ok ⟨members.map fun member => (rows member).length + 1,
      runningTotals 0 (members.map fun member => (rows member).length + 1)⟩ := by
  have each : (members.map fun member => (rows member).length).mapM
      (fun count => Word.add count 1) =
      .ok (members.map fun member => (rows member).length + 1) := by
    refine Attempt.mapM_map_of fun member belongs => Word.add_of_lt ?_
    have own := List.mem_map_of_mem (f := fun member => (rows member).length + 1) belongs
    exact Nat.lt_of_le_of_lt (List.single_le_sum (fun _ _ => Nat.zero_le _) _ own) fits.pointers_lt
  rw [each]
  exact SegmentTable.ofCounts_eq fits.pointers_lt

/-- The row pointers of a member are signed words. -/
theorem toSigned_pointers (ncols : Nat) {member : Nat} (belongs : member ∈ members) :
    toSigned (Csr.ofRows ncols (rows member)).rowPointers.toList =
      .ok ((runningTotals 0 ((rows member).map List.length)).map Int.ofNat) := by
  refine toSigned_eq fun pointer among => ?_
  have bound := le_of_mem_runningTotals among
  rw [Nat.zero_add, ← List.length_flatten] at bound
  have := fits.entries_le belongs
  omega

/-- Stacking the blocks of a team gives the block of all its rows, if that passes the check. -/
theorem stackBlocks_members (ncols : Nat) :
    stackBlocks (members.map fun member => (rows member).length).sum ncols
      ⟨members.map fun member => (rows member).length + 1,
        runningTotals 0 (members.map fun member => (rows member).length + 1)⟩
      (members.map fun member =>
        (runningTotals 0 ((rows member).map List.length)).map Int.ofNat).flatten
      (members.map fun member => ((rows member).flatten.map (·.1)).map Int.ofNat).flatten
      (members.map fun member => (rows member).flatten.map (·.2)).flatten =
    (Csr.ofRows ncols (members.map rows).flatten).validate.map fun _ =>
      .ofRows ncols (members.map rows).flatten := by
  have lengths : (members.map rows).flatten.length =
      (members.map fun member => (rows member).length).sum := by
    rw [List.length_flatten, List.map_map]
    rfl
  have entries : (members.map rows).flatten.flatten.length =
      (members.map fun member => (rows member).flatten.length).sum := by
    rw [List.flatten_flatten, List.length_flatten, List.map_map, List.map_map]
    rfl
  have stacked := stackBlocks_eq ncols (members.map rows) (by
    rw [entries]
    exact Nat.lt_trans fits.entries_lt (by decide))
  simpa only [lengths, List.map_map, Function.comp_def] using stacked

end Fits

/-- What a member of a team makes of the merging. The lead refuses blocks with columns outside of
its own. -/
def merging (ncols : Nat) (rows : Nat → List (List (Nat × S))) (team : Group) :
    Attempt (TeamMerge S) :=
  if team.rank = 0 then
    (Csr.ofRows ncols (team.hub.ranks.map rows).flatten).validate.map fun _ =>
      merged ncols rows team
  else .ok (merged ncols rows team)

/-- What a member of a team does once the members know how many rows and entries each of them has,
and it has its own columns as signed words. -/
def delivering (team : Group) (block : Csr S) (rows entries pointers : SegmentTable)
    (localPointers localColumns : List Int) : Task S (TeamMerge S) := do
  let allPointers ← team.gather .int64 localPointers pointers
  let allColumns ← team.gather .int64 localColumns entries
  let allValues ← team.gather .real block.values.toList entries
  match allPointers, allColumns, allValues with
  | some allPointers, some allColumns, some values =>
    let stacked ← Task.ofAttempt
      (stackBlocks rows.total block.ncols pointers allPointers allColumns values)
    pure { rows, entries, block := some stacked }
  | _, _, _ => pure { rows, entries, block := none }

def tableOf (count : Nat → Nat) (team : Group) : SegmentTable :=
  ⟨team.hub.ranks.map count, runningTotals 0 (team.hub.ranks.map count)⟩

def deliverRows (ncols : Nat) (rows : Nat → List (List (Nat × S))) (team : Group)
    (own : List (List (Nat × S))) :
    List Int → Task S (TeamMerge S) :=
  delivering team (.ofRows ncols own) (tableOf (fun member => (rows member).length) team)
    (tableOf (fun member => (rows member).flatten.length) team)
    (tableOf (fun member => (rows member).length + 1) team)
    ((runningTotals 0 (own.map List.length)).map Int.ofNat)

/-- What a member of a team does once the members know how many rows and entries each of them
has. -/
def tabulating (team : Group) (block : Csr S) (rowCounts entryCounts : List Nat) :
    Task S (TeamMerge S) := do
  let rows ← Task.ofAttempt (SegmentTable.ofCounts rowCounts)
  let entries ← Task.ofAttempt (SegmentTable.ofCounts entryCounts)
  let pointers ← Task.ofAttempt do
    SegmentTable.ofCounts (← rowCounts.mapM fun count => Word.add count 1)
  let localPointers ← Task.ofAttempt (toSigned block.rowPointers.toList)
  let localColumns ← Task.ofAttempt (toSigned block.colIndices.toList)
  delivering team block rows entries pointers localPointers localColumns

/-- The tables of a team that fits are made without fail, so that a member comes to deliver its rows
once its columns are signed words. -/
theorem tabulating_eq {team : Group} (fits : Fits rows team.hub.ranks) (ncols : Nat) {member : Nat}
    (belongs : member ∈ team.hub.ranks) :
    (tabulating team (Csr.ofRows ncols (rows member))
      (team.hub.ranks.map fun member => (rows member).length)
      (team.hub.ranks.map fun member => (rows member).flatten.length)).run =
    Task.following (deliverRows ncols rows team (rows member))
      (toSigned ((rows member).flatten.map (·.1))) := by
  have columns : (Csr.ofRows ncols (rows member)).colIndices.toList =
      (rows member).flatten.map (·.1) := rfl
  simp only [tabulating, fits.ofCounts_rows, fits.ofCounts_entries, fits.ofCounts_pointers,
    fits.toSigned_pointers ncols belongs, columns, Task.run_ofAttempt_bind, Task.following_ok]
  rfl

/-- The members of all teams come to where each of them delivers its rows, if its columns are signed
words. -/
theorem mergeTeam_reaches (t : Together node A G) (ncols : Nat → Nat)
    (fits : ∀ rank ∈ A, Fits rows (G rank).hub.ranks) (rounds : Rounds) : ∃ rounds',
      Reaches A rounds (fun rank => (mergeTeam (G rank) (Csr.ofRows (ncols rank) (rows rank))).run)
      rounds' fun rank =>
        Task.following (deliverRows (ncols rank) rows (G rank) (rows rank))
          (toSigned ((rows rank).flatten.map (·.1))) := by
  have nnz : ∀ rank, (Csr.ofRows (ncols rank) (rows rank)).nnz =
      (rows rank).flatten.length := fun rank => by
    rw [Csr.nnz, Csr.size_values_ofRows, List.length_flatten]
  obtain ⟨rounds₁, first⟩ :=
    (t.allGather .word64 fun rank => (Csr.ofRows (ncols rank) (rows rank)).nrows).reaches
    (f := fun rank rowCounts => do
      let entryCounts : List Nat ← (G rank).allGather .word64
        (Csr.ofRows (ncols rank) (rows rank)).nnz
      tabulating (G rank) (Csr.ofRows (ncols rank) (rows rank)) rowCounts entryCounts) rounds
  obtain ⟨rounds₂, second⟩ :=
    (t.allGather .word64 fun rank => (Csr.ofRows (ncols rank) (rows rank)).nnz).reaches rounds₁
  refine ⟨rounds₂, (first.congr (fun _ _ => rfl) fun _ _ => rfl).trans
    (second.congr (fun _ _ => rfl) fun rank inside => ?_)⟩
  simp only [nnz]
  exact tabulating_eq (fits rank inside) (ncols rank) (t.mem inside)

/-- A member that delivers its rows waits for its team. -/
theorem deliverRows_waits (t : Together node A G) {rank : Nat} (inside : rank ∈ A) (ncols : Nat)
    (columns : List Int) :
    ∃ payload resume, (deliverRows ncols rows (G rank) (rows rank) columns).run =
      .meet (G rank).hub (G rank).rank payload resume := by
  have announced : Attempt.insist
      ((tableOf (fun member => (rows member).length + 1) (G rank)).counts[(G rank).rank]? =
      some ((runningTotals 0 ((rows rank).map List.length)).map Int.ofNat).length) = .ok () := by
    refine Attempt.insist_of ?_
    rw [tableOf, List.getElem?_map, t.own rank inside]
    simp
  rw [deliverRows, delivering, Group.gather, announced]
  exact ⟨_, _, rfl⟩

/-- All members of all teams come through the exchanges with which their blocks are merged. -/
theorem mergeTeam_completes (t : Together node A G) (ncols : Nat → Nat)
    (small : ∀ rank ∈ A, ∀ row ∈ rows rank, ∀ entry ∈ row, entry.1 < 2 ^ 63)
    (fits : ∀ rank ∈ A, Fits rows (G rank).hub.ranks) :
    Completes A (fun rank => (mergeTeam (G rank) (Csr.ofRows (ncols rank) (rows rank))).run)
    fun w =>
      ∀ rank ∈ A, w rank = merging (ncols rank) rows (G rank) := by
  have localColumns : ∀ rank ∈ A, toSigned ((rows rank).flatten.map (·.1)) =
      .ok (((rows rank).flatten.map (·.1)).map Int.ofNat) := by
    refine fun rank inside => toSigned_eq fun column member => ?_
    obtain ⟨entry, among, rfl⟩ := List.mem_map.mp member
    obtain ⟨row, belongs, within⟩ := List.mem_flatten.mp among
    exact small rank inside row belongs entry within
  suffices delivers : Completes A (fun rank => (deliverRows (ncols rank) rows (G rank) (rows rank)
      (((rows rank).flatten.map (·.1)).map Int.ofNat)).run) fun w =>
        ∀ rank ∈ A, w rank = merging (ncols rank) rows (G rank) by
    intro rounds
    obtain ⟨rounds₁, first⟩ := mergeTeam_reaches t ncols fits rounds
    obtain ⟨rounds₂, w, second, values⟩ := delivers rounds₁
    exact ⟨rounds₂, w,
      first.trans (second.congr (fun rank inside => by rw [localColumns rank inside]; rfl)
      fun _ _ => rfl), values⟩
  refine Succeeds.followed_eq (t.gather .int64 _ (fun rank inside => ?_) fun rank inside => ?_) ?_
  · simp [tableOf]
  · rw [tableOf, SegmentTable.total_eq]
    exact (fits rank inside).pointers
  refine Succeeds.followed_eq (t.gather .int64 _ (fun rank inside => ?_) fun rank inside => ?_) ?_
  · simp only [tableOf, List.length_map]
  · rw [tableOf, SegmentTable.total_eq]
    exact (fits rank inside).entries
  refine Succeeds.followed_eq
    (t.gather .real (fun rank => (Csr.ofRows (ncols rank) (rows rank)).values.toList)
    (fun rank inside => ?_) fun rank inside => ?_) ?_
  · simp only [tableOf, Array.length_toList, Csr.size_values_ofRows, List.length_flatten]
  · rw [tableOf, SegmentTable.total_eq]
    exact (fits rank inside).entries
  refine .of_finished (v := fun rank => merging (ncols rank) rows (G rank))
    (fun rank inside => ?_) fun _ _ => rfl
  by_cases first : (G rank).rank = 0
  · have stacked := (fits rank inside).stackBlocks_members (ncols rank)
    simp only [if_pos first, tableOf, SegmentTable.total_eq]
    refine (congrArg (fun result => (Task.ofAttempt result >>= _ : Task S (TeamMerge S)).run)
      stacked).trans ?_
    rw [Task.run_ofAttempt_bind, merging, if_pos first]
    cases (Csr.ofRows (ncols rank) ((G rank).hub.ranks.map rows).flatten).validate with
    | error failure => rfl
    | ok done => simp only [merged, if_pos first]; rfl
  · simp only [if_neg first, merging, merged]
    rfl

/-- The lead of a team takes blocks whose rows are tidy in its own columns. -/
theorem merging_eq_ok (t : Together node A G)
    (fits : ∀ rank ∈ A, Fits rows (G rank).hub.ranks) {rank : Nat} (inside : rank ∈ A) {ncols : Nat}
    (tidy : (G rank).rank = 0 → ∀ member ∈ (G rank).hub.ranks, ∀ row ∈ rows member,
      Tidy ncols row) :
    merging ncols rows (G rank) = .ok (merged ncols rows (G rank)) := by
  rw [merging]
  split
  · next first =>
    have valid : (Csr.ofRows ncols ((G rank).hub.ranks.map rows).flatten).validate = .ok () := by
      refine Csr.validate_ofRows.mpr ⟨?_, fun row member => ?_⟩
      · have some_member : 0 < (G rank).hub.ranks.length := List.length_pos_of_mem (t.mem inside)
        have := (fits rank inside).rows_lt
        rw [List.length_flatten, List.map_map]
        show ((G rank).hub.ranks.map fun member => (rows member).length).sum + 1 < _
        omega
      · obtain ⟨part, among, belongs⟩ := List.mem_flatten.mp member
        obtain ⟨other, found, rfl⟩ := List.mem_map.mp among
        exact tidy first other found row belongs
    rw [valid]
    rfl
  · rfl

/-- All members of all teams come through the merging of their blocks. -/
theorem mergeTeam_succeeds (t : Together node A G) (ncols : Nat → Nat)
    (small : ∀ rank ∈ A, ∀ row ∈ rows rank, ∀ entry ∈ row, entry.1 < 2 ^ 63)
    (tidy : ∀ rank ∈ A, (G rank).rank = 0 → ∀ member ∈ (G rank).hub.ranks, ∀ row ∈ rows member, Tidy
      (ncols rank) row)
    (fits : ∀ rank ∈ A, Fits rows (G rank).hub.ranks) :
    Succeeds A (fun rank => mergeTeam (G rank) (Csr.ofRows (ncols rank) (rows rank))) fun w =>
      ∀ rank ∈ A, w rank = merged (ncols rank) rows (G rank) := by
  refine (mergeTeam_completes t ncols small fits).mono
    fun w values =>
      ⟨fun rank => merged (ncols rank) rows (G rank), fun rank inside => ?_, fun _ _ => rfl⟩
  rw [values rank inside]
  exact merging_eq_ok t fits inside (tidy rank inside)

end DeviceTeams
