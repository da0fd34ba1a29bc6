import DeviceTeams.Proofs.Loaded
import DeviceTeams.Proofs.Stacking

/-!
# The stored entries of a matrix

A share stores each of its entries in one of its two blocks. Ranks that hold the rows of a matrix
together store every entry in the row of the joint system where it belongs. So the entries, together
with the numbers of rows of the teams, determine the system, however the rows of a team are divided
among its members.
-/
namespace DeviceTeams

variable {S : Type}

/-! ## The entries of a share -/

def Csr.Stores (block : Csr S) (row column : Nat) (value : S) : Prop :=
  ∃ rows entries, block.rows = .ok rows ∧ rows[row]? = some entries ∧ (column, value) ∈ entries

theorem Csr.stores_ofRows {ncols row column : Nat} {value : S} {rows : List (List (Nat × S))} :
    (ofRows ncols rows).Stores row column value ↔ ∃ entries, rows[row]? = some entries ∧
    (column, value) ∈ entries := by
  constructor
  · rintro ⟨rows', entries, same, found, among⟩
    rw [rows_ofRows, Except.ok.injEq] at same
    exact ⟨entries, same ▸ found, among⟩
  · rintro ⟨entries, found, among⟩
    exact ⟨rows, entries, rows_ofRows, found, among⟩

/-- A share stores a value at a place of the whole matrix: in its diagonal block if the column is
one of its own, and otherwise in the other block, at the place of the column in the map. -/
def RowShare.Stores (m : RowShare S) (row column : Nat) (value : S) : Prop :=
  ∃ place, row = m.rowStart + place ∧
    ((∃ c, m.diagonal.Stores place c value ∧ column = m.colStart + c) ∨
      ∃ c, m.offDiagonal.Stores place c value ∧ m.columnMap[c]? = some column)

/-- What a share stores is what its rows hold in global columns. -/
theorem RowShare.Valid.stores_iff {m : RowShare S} (valid : m.Valid) {rows : List (List (Nat × S))}
    (block : m.localBlock = .ok (.ofRows m.globalCols rows)) {row column : Nat} {value : S} :
    m.Stores row column value ↔
      ∃ place entries, row = m.rowStart + place ∧ rows[place]? = some entries ∧
        (column, value) ∈ entries := by
  obtain ⟨diagonals, halves, _⟩ := Csr.validate_eq_ok_iff.mp valid.diagonal
  obtain ⟨offDiagonals, halves', _, tidy⟩ := Csr.validate_eq_ok_iff.mp valid.offDiagonal
  have same : diagonals.length = offDiagonals.length := by
    have count : m.diagonal.nrows = diagonals.length := by rw [halves]; rfl
    have count' : m.offDiagonal.nrows = offDiagonals.length := by rw [halves']; rfl
    rw [← count, ← count', valid.sameRows]
  have joined : List.zipWith m.joined diagonals offDiagonals = rows := by
    have blocks :=
      congrArg Csr.rows (Except.ok.inj ((valid.localBlock_eq halves halves').symm.trans block))
    rw [Csr.rows_ofRows, Csr.rows_ofRows] at blocks
    exact Except.ok.inj blocks
  have mapped : ∀ {place c : Nat} {offDiagonal : List (Nat × S)}, offDiagonals[place]? =
      some offDiagonal →
      (c, value) ∈ offDiagonal → m.columnMap[c]? = some (m.columnMap.getD c 0) := by
    intro place c offDiagonal found among
    have inside : c < m.columnMap.size :=
      valid.mapped ▸ (tidy _ (List.mem_of_getElem? found)).inside _ among
    rw [Array.getD_eq_getD_getElem?, Array.getElem?_eq_getElem inside, Option.getD_some]
  subst joined
  constructor
  · rintro ⟨place, rfl, ⟨c, stored, rfl⟩ | ⟨c, stored, at_column⟩⟩
    · rw [halves, Csr.stores_ofRows] at stored
      obtain ⟨diagonal, found, among⟩ := stored
      have found' := List.getElem?_eq_getElem (same ▸ (List.getElem?_eq_some_iff.mp found).1)
      exact ⟨place, _, rfl, List.getElem?_zipWith_eq_some.mpr ⟨_, _, found, found', rfl⟩,
        mem_joined.mpr (.inl (mem_shifted.mpr ⟨c, among, rfl⟩))⟩
    · rw [halves', Csr.stores_ofRows] at stored
      obtain ⟨offDiagonal, found, among⟩ := stored
      have found' := List.getElem?_eq_getElem (same.symm ▸ (List.getElem?_eq_some_iff.mp found).1)
      rw [mapped found among, Option.some.injEq] at at_column
      exact ⟨place, _, rfl, List.getElem?_zipWith_eq_some.mpr ⟨_, _, found', found, rfl⟩,
        mem_joined.mpr (.inr (mem_widened.mpr ⟨c, among, at_column.symm⟩))⟩
  · rintro ⟨place, entries, rfl, found, among⟩
    obtain ⟨diagonal, offDiagonal, here, here', rfl⟩ := List.getElem?_zipWith_eq_some.mp found
    refine ⟨place, rfl, ?_⟩
    rw [halves, halves']
    rcases mem_joined.mp among with own | other
    · obtain ⟨c, stored, at_column⟩ := mem_shifted.mp own
      exact .inl ⟨c, Csr.stores_ofRows.mpr ⟨_, here, stored⟩, at_column⟩
    · obtain ⟨c, stored, rfl⟩ := mem_widened.mp other
      exact .inr ⟨c, Csr.stores_ofRows.mpr ⟨_, here', stored⟩, mapped here' stored⟩

/-! ## The entries of a world -/

variable [Scalar S] {nodes : List Nat} {m : Nat → RowShare S} {h : Nat → Hierarchy}
  {new : Nat → Group} {rows : Nat → List (List (Nat × S))}

namespace Holding

variable (holding : Holding nodes m h new rows)
include holding

/-- The bands of the leads are as long as the rows of their teams are many. -/
theorem band_lengths : ((leadRanks h nodes.length).map (teamBlock h rows)).map List.length =
    (leadRanks h nodes.length).map (teamRows h fun rank => (m rank).localRows) := by
  rw [List.map_map]
  refine List.map_congr_left fun lead among => ?_
  have below := List.mem_range.mp (List.mem_filter.mp among).1
  show (teamBlock h rows lead).length = _
  rw [length_teamBlock]
  refine congrArg List.sum (List.map_congr_left fun member belongs => ?_)
  exact holding.count member (Finset.mem_range.mp
    (holding.shared.ranked.team.of_mem (Finset.mem_range.mpr below) belongs).1)

/-- Every row of the joint system is a row of one rank. -/
theorem row_owner {row : Nat} {entries : List (Nat × S)}
    (found : ((leadRanks h nodes.length).map (teamBlock h rows)).flatten[row]? = some entries) :
    ∃ owner < nodes.length, ∃ place, (rows owner)[place]? = some entries ∧
      row = (m owner).rowStart + place := by
  have ranked := holding.shared.ranked
  rw [leadRanks, flatten_teamBlocks, ← List.flatMap_def] at found
  have bound := (List.getElem?_eq_some_iff.mp found).1
  obtain ⟨seat, owner, place, at_seat, here, front⟩ := flatMap_found found
  obtain ⟨lead, among, belongs⟩ := List.mem_flatMap.mp (List.mem_of_getElem? at_seat)
  have lead_inside := Finset.mem_range.mpr (List.mem_range.mp (List.mem_filter.mp among).1)
  have inside := (ranked.team.of_mem lead_inside belongs).1
  refine ⟨owner, Finset.mem_range.mp inside, place, here, ?_⟩
  have start := ranked.starts_inOrder inside
    (holding.tiles.congr fun member among => holding.count member (List.mem_range.mp among)) at_seat
  have length := congrArg List.length front
  rw [List.length_take_of_le (Nat.le_of_lt bound), List.length_append,
    List.length_take_of_le (Nat.le_of_lt (List.getElem?_eq_some_iff.mp here).1),
    List.length_flatMap] at length
  rw [start]
  exact length

/-- A row of the joint system holds what the ranks store in it. -/
theorem mem_row_iff (valid : ∀ rank < nodes.length, (m rank).Valid) {row : Nat}
    {entries : List (Nat × S)}
    (found : ((leadRanks h nodes.length).map (teamBlock h rows)).flatten[row]? = some entries)
    (column : Nat) (value : S) :
    (column, value) ∈ entries ↔ ∃ rank < nodes.length, (m rank).Stores row column value := by
  obtain ⟨owner, below, place, here, position⟩ := holding.row_owner found
  constructor
  · intro stored
    exact ⟨owner, below, ((valid owner below).stores_iff (holding.block owner below)).mpr
      ⟨place, entries, position, here, stored⟩⟩
  · rintro ⟨rank, below', stored⟩
    obtain ⟨place', entries', position', here', stored⟩ :=
      ((valid rank below').stores_iff (holding.block rank below')).mp stored
    -- Two ranks have no row in common.
    have same : rank = owner := by
      by_contra differ
      have apart := holding.shared.ranked.rows_apart (Finset.mem_range.mpr below) holding.tiles
        (List.mem_range.mpr below') (List.mem_range.mpr below) differ
      have bound := (List.getElem?_eq_some_iff.mp here).1
      have bound' := (List.getElem?_eq_some_iff.mp here').1
      rw [holding.count owner below] at bound
      rw [holding.count rank below'] at bound'
      omega
    subst same
    rw [position, Nat.add_left_cancel_iff] at position'
    rw [← position', here, Option.some.injEq] at here'
    exact here' ▸ stored

/-- Worlds whose teams have the same numbers of rows and that store the same entries hold the same
system. -/
theorem joint_eq {nodes' : List Nat} {m' : Nat → RowShare S} {h' : Nat → Hierarchy}
    {new' : Nat → Group} {rows' : Nat → List (List (Nat × S))}
    (holding' : Holding nodes' m' h' new' rows') (valid : ∀ rank < nodes.length, (m rank).Valid)
    (valid' : ∀ rank < nodes'.length, (m' rank).Valid)
    (teams : (leadRanks h nodes.length).map (teamRows h fun rank => (m rank).localRows) =
      (leadRanks h' nodes'.length).map (teamRows h' fun rank => (m' rank).localRows))
    (stored : ∀ row column value, (∃ rank < nodes.length, (m rank).Stores row column value) ↔
      ∃ rank < nodes'.length, (m' rank).Stores row column value) :
    jointOf h rows nodes.length = jointOf h' rows' nodes'.length := by
  have lengths := holding.band_lengths.trans (teams.trans holding'.band_lengths.symm)
  have total : ((leadRanks h nodes.length).map (teamBlock h rows)).flatten.length =
      ((leadRanks h' nodes'.length).map (teamBlock h' rows')).flatten.length := by
    rw [List.length_flatten, List.length_flatten, lengths]
  refine congrArg Joint.ofBands
    (List.eq_iff_flatten_eq.mpr ⟨List.ext_getElem total fun row bound bound' => ?_, lengths⟩)
  have found := List.getElem?_eq_getElem bound
  have found' := List.getElem?_eq_getElem bound'
  obtain ⟨owner, below, place, here, _⟩ := holding.row_owner found
  obtain ⟨owner', below', place', here', _⟩ := holding'.row_owner found'
  refine eq_of_ascending (holding.tidy owner below _ (List.mem_of_getElem? here)).ascending
    (holding'.tidy owner' below' _ (List.mem_of_getElem? here')).ascending fun column value => ?_
  rw [holding.mem_row_iff valid found, holding'.mem_row_iff valid' found']
  exact stored row column value

end Holding
end DeviceTeams
