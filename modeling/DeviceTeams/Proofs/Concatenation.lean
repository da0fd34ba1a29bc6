import DeviceTeams.Proofs.Failures
import DeviceTeams.Proofs.Uploads

/-!
# What merging makes of the blocks of a team

The lead of a team gets the blocks of all members one below the other, in the order of their seats
and with as many columns as its own block has, unless a member has a column past these. The tables
that all members get tell where the rows of each member start.
-/
namespace DeviceTeams

variable {S : Type} {node : Nat → Nat} {G : Nat → Group} {members : List Nat}
  {block : Nat → Csr S} {width : Nat}

/-! ## Blocks one below the other -/

structure Tabulates (members : List Nat) (block : Nat → Csr S) (merge : TeamMerge S) : Prop where
  rows : SegmentTable.ofCounts (members.map fun member => (block member).nrows) = .ok merge.rows
  entries : SegmentTable.ofCounts (members.map fun member => (block member).nnz) = .ok merge.entries

/-- A block has the rows of all members' blocks, those of each member from the offset in the table
on. -/
structure Concatenates (members : List Nat) (block : Nat → Csr S) (table : SegmentTable)
    (stacked : Csr S) : Prop where
  valid : stacked.validate = .ok ()
  nrows_eq : stacked.nrows = (members.map fun member => (block member).nrows).sum
  nnz_eq : stacked.nnz = (members.map fun member => (block member).nnz).sum
  rows : ∀ (seat member : Nat), members[seat]? = some member →
    ∃ first, table.offsets[seat]? = some first ∧
    ∀ row < (block member).nrows, ∃ entries, (block member).rowEntries row = .ok entries ∧
      stacked.rowEntries (first + row) = .ok entries

def Covers (width : Nat) (members : List Nat) (block : Nat → Csr S) : Prop :=
  ∀ member ∈ members, ∀ column ∈ (block member).colIndices, column < width

/-- How the merging ends on a member of a team, where `width` is the number of columns of its own
block. -/
structure MergesTo (team : Group) (block : Nat → Csr S) (width : Nat)
    (outcome : Attempt (TeamMerge S)) : Prop where
  others : team.rank ≠ 0 → ∃ merge, outcome = .ok merge ∧ Tabulates team.hub.ranks block merge ∧
    merge.block = none
  lead : team.rank = 0 → Covers width team.hub.ranks block → ∃ merge stacked, outcome = .ok merge ∧
    Tabulates team.hub.ranks block merge ∧ merge.block = some stacked ∧ stacked.ncols = width ∧
    Concatenates team.hub.ranks block merge.rows stacked
  refused : team.rank = 0 → ¬ Covers width team.hub.ranks block →
    ∃ cause : MatrixError, outcome = .error cause

/-- A row of a part is the row of the whole that lies as far behind the parts before it. -/
theorem Csr.rowEntries_flatten {ncols seat row : Nat} {parts : List (List (List (Nat × S)))}
    {part : List (List (Nat × S))} (found : parts[seat]? = some part) (inside : row < part.length) :
    ∃ entries,
      (Csr.ofRows ncols part).rowEntries row = .ok entries ∧
      (Csr.ofRows width parts.flatten).rowEntries ((parts.take seat).flatten.length + row) =
      .ok entries := by
  have here := List.getElem?_eq_getElem inside
  exact ⟨_, rowEntries_ofRows here, rowEntries_ofRows (getElem?_flatten_of_found found here)⟩

/-- The lead of a team can ask for the buffers that it receives pointers, columns and values in. -/
structure Receives (members : List Nat) (block : Nat → Csr S) : Prop where
  pointers : Word.request (members.map fun member => (block member).nrows + 1).sum 8 = .ok ()
  entries : Word.request (members.map fun member => (block member).nnz).sum 8 = .ok ()

section Rows

variable {ncols : Nat → Nat} {rows : Nat → List (List (Nat × S))}
  (same : ∀ member ∈ members, block member = .ofRows (ncols member) (rows member))
include same

theorem nrows_members : (members.map fun member => (block member).nrows) =
    members.map fun member => (rows member).length := by
  apply List.map_congr_left
  intro member belongs
  rw [same member belongs]
  rfl

theorem nnz_members : (members.map fun member => (block member).nnz) =
    members.map fun member => (rows member).flatten.length := by
  apply List.map_congr_left
  intro member belongs
  rw [same member belongs, Csr.nnz, Csr.size_values_ofRows, List.length_flatten]

theorem Receives.fits (receives : Receives members block) : Fits rows members := by
  obtain ⟨pointers, entries⟩ := receives
  have counts := congrArg (List.map (· + 1)) (nrows_members same)
  simp only [List.map_map, Function.comp_def] at counts
  rw [counts] at pointers
  rw [nnz_members same] at entries
  exact ⟨Word.request_eq_ok_iff.mp pointers, Word.request_eq_ok_iff.mp entries⟩

/-- The block of all members' rows has the rows of their blocks. -/
theorem concatenates_ofRows
    (valid : (Csr.ofRows width (members.map rows).flatten).validate = .ok ()) :
    Concatenates members block ⟨members.map fun member => (rows member).length,
      runningTotals 0 (members.map fun member => (rows member).length)⟩
      (Csr.ofRows width (members.map rows).flatten) := by
  constructor
  · exact valid
  · rw [nrows_members same]
    simp only [Csr.ofRows, List.length_flatten, List.map_map, Function.comp_def]
  · rw [nnz_members same, Csr.nnz, Csr.size_values_ofRows, ← List.length_flatten,
      List.flatten_flatten, List.length_flatten, List.map_map, List.map_map]
    rfl
  · intro seat member found
    have bound := (List.getElem?_eq_some_iff.mp found).1
    have part : (members.map rows)[seat]? = some (rows member) := by
      rw [List.getElem?_map, found, Option.map_some]
    have first : ((members.map rows).take seat).flatten.length =
        ((members.map fun member => (rows member).length).take seat).sum := by
      rw [List.length_flatten, ← List.map_take, List.map_map, ← List.map_take]
      rfl
    refine ⟨((members.map rows).take seat).flatten.length, ?_, ?_⟩
    · rw [getElem?_runningTotals, List.length_map, if_pos (Nat.le_of_lt bound), Nat.zero_add, first]
    · intro row inside
      rw [same member (List.mem_of_getElem? found)] at inside ⊢
      exact Csr.rowEntries_flatten part inside

/-- Rows that are tidy in the columns of their members are tidy in other columns exactly if these
cover them. -/
theorem covers_iff (tidy : ∀ member ∈ members, ∀ row ∈ rows member, Tidy (ncols member) row) :
    Covers width members block ↔ ∀ row ∈ (members.map rows).flatten, Tidy width row := by
  constructor
  · intro covers row among
    obtain ⟨part, found, belongs⟩ := List.mem_flatten.mp among
    obtain ⟨member, inside, rfl⟩ := List.mem_map.mp found
    have covered := covers member inside
    rw [same member inside, Csr.forall_colIndices_ofRows] at covered
    exact ⟨(tidy member inside row belongs).ascending, covered row belongs⟩
  · intro all member inside
    rw [same member inside, Csr.forall_colIndices_ofRows]
    intro row belongs
    exact (all row (List.mem_flatten.mpr ⟨_, List.mem_map_of_mem inside, belongs⟩)).inside

end Rows

/-! ## The merging -/

theorem tabulates_merged {team : Group} {ncols : Nat → Nat} {rows : Nat → List (List (Nat × S))}
    (same : ∀ member ∈ team.hub.ranks, block member = .ofRows (ncols member) (rows member))
    (fits : Fits rows team.hub.ranks) :
    Tabulates team.hub.ranks block (merged width rows team) := by
  constructor
  · rw [nrows_members same]
    exact fits.ofCounts_rows
  · rw [nnz_members same]
    exact fits.ofCounts_entries

variable {n : Nat}

/-- What merging ends with. -/
theorem merging_mergesTo (t : Together node (Finset.range n) G) {ncols : Nat → Nat}
    {rows : Nat → List (List (Nat × S))}
    (same : ∀ rank < n, block rank = .ofRows (ncols rank) (rows rank))
    (tidy : ∀ rank < n, ∀ row ∈ rows rank, Tidy (ncols rank) row)
    (fits : ∀ rank ∈ Finset.range n, Fits rows (G rank).hub.ranks) {rank : Nat} (below : rank < n) :
    MergesTo (G rank) block width (merging width rows (G rank)) := by
  have inside := Finset.mem_range.mpr below
  have mates : ∀ member ∈ (G rank).hub.ranks, member < n := fun member belongs =>
    Finset.mem_range.mp (t.of_mem inside belongs).1
  have same' : ∀ member ∈ (G rank).hub.ranks, block member = .ofRows (ncols member) (rows member) :=
    fun member belongs => same member (mates member belongs)
  have tabulates : Tabulates (G rank).hub.ranks block (merged width rows (G rank)) :=
    tabulates_merged same' (fits rank inside)
  have decides : Decides (Csr.ofRows width ((G rank).hub.ranks.map rows).flatten).validate
      (Covers width (G rank).hub.ranks block) := by
    have word := (fits rank inside).stacked_lt (List.length_pos_of_mem (t.mem inside))
    refine (Csr.validate_ofRows_decides word).congr (covers_iff same' ?_).symm
    exact fun member belongs => tidy member (mates member belongs)
  constructor
  · intro other
    refine ⟨merged width rows (G rank), ?_, tabulates, ?_⟩
    · rw [merging, if_neg other]
    · rw [merged, if_neg other]
  · intro first covered
    have valid := decides.accepts covered
    refine ⟨merged width rows (G rank), .ofRows width ((G rank).hub.ranks.map rows).flatten, ?_,
      tabulates, ?_, rfl, concatenates_ofRows same' valid⟩
    · rw [merging, if_pos first, valid]
      rfl
    · rw [merged, if_pos first]
  · intro first uncovered
    obtain ⟨_, refused⟩ := decides.refuses uncovered
    obtain ⟨cause, rfl⟩ := Csr.matrix_of_validate refused
    refine ⟨cause, ?_⟩
    rw [merging, if_pos first, refused]
    rfl

/-- Ranks of a world merge the blocks of their teams, in whatever order they take their steps: each
lead gets the blocks of its members one below the other, or is refused if its columns do not cover
theirs. -/
theorem mergeTeam_concatenates (t : Together node (Finset.range n) G)
    (valid : ∀ rank < n, (block rank).validate = .ok ())
    (signed : ∀ rank < n, ∀ column ∈ (block rank).colIndices, column < 2 ^ 63)
    (room : ∀ rank < n, Receives (G rank).hub.ranks block) {hubs : Hubs S} {rounds : Rounds}
    (resting : hubs.Resting rounds) : ∃ v : Nat → Attempt (TeamMerge S),
      (World.ofPrograms n (fun rank => (mergeTeam (G rank) (block rank)).run) hubs).EndsWith
        ((List.range n).map fun rank => some (v rank)) ∧
      ∀ rank < n, MergesTo (G rank) block (block rank).ncols (v rank) := by
  have each : ∀ rank < n, ∃ rows : List (List (Nat × S)), block rank =
      .ofRows (block rank).ncols rows ∧
      ∀ row ∈ rows, Tidy (block rank).ncols row := by
    intro rank below
    obtain ⟨rows, same, _, tidy⟩ := Csr.validate_eq_ok_iff.mp (valid rank below)
    exact ⟨rows, same, tidy⟩
  -- What is known of merging rows holds of these blocks, since a block that passes the check is
  -- that of its rows.
  choose! rows same tidy using each
  have fits : ∀ rank ∈ Finset.range n, Fits rows (G rank).hub.ranks := fun rank inside =>
    Receives.fits
      (fun member belongs => same member (Finset.mem_range.mp (t.of_mem inside belongs).1))
      (room rank (Finset.mem_range.mp inside))
  have small : ∀ rank ∈ Finset.range n, ∀ row ∈ rows rank, ∀ entry ∈ row, entry.1 < 2 ^ 63 := by
    intro rank inside
    have below := Finset.mem_range.mp inside
    have columns := signed rank below
    rwa [same rank below, Csr.forall_colIndices_ofRows] at columns
  have completes : Completes (Finset.range n)
      (fun rank => (mergeTeam (G rank) (block rank)).run) fun v =>
      ∀ rank ∈ Finset.range n, v rank = merging (block rank).ncols rows (G rank) :=
    (mergeTeam_completes t (fun rank => (block rank).ncols) small fits).congr fun rank inside => by
      rw [← same rank (Finset.mem_range.mp inside)]
  obtain ⟨v, values, ends⟩ := completes.endsWith resting
  refine ⟨v, ends, fun rank below => ?_⟩
  rw [values rank (Finset.mem_range.mpr below)]
  exact merging_mergesTo t same tidy fits below

def unevenBlocks (rank : Nat) : Csr Float :=
  if rank = 0 then ⟨1, 2, #[0, 1], #[1], #[1.0]⟩ else ⟨2, 1, #[0, 0, 1], #[0], #[2.0]⟩

theorem mergeTeam_concatenates_uneven : ∃ v : Nat → Attempt (TeamMerge Float),
    (World.ofPrograms 2 (fun rank => (mergeTeam (Group.world [0, 0] rank) (unevenBlocks rank)).run)
      []).EndsWith [some (v 0), some (v 1)] ∧
    ∀ rank < 2, MergesTo (Group.world [0, 0] rank) unevenBlocks
      (unevenBlocks rank).ncols (v rank) := by
  apply mergeTeam_concatenates (Together.world [0, 0]) _ _ _ Hubs.resting_nil
  · rintro (_ | _ | rank) below
    · rfl
    · rfl
    · exact absurd below (by simp)
  · rintro (_ | _ | rank) below
    · decide
    · decide
    · exact absurd below (by simp)
  · rintro rank below
    constructor <;> rfl

end DeviceTeams
