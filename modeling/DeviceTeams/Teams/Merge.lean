import DeviceTeams.Matrix.RowShare
import DeviceTeams.Ranks.Group

/-!
# Merging the blocks of a team

Every member of a team sends its row pointers, columns and values to the lead, which stacks the
blocks in team order. The row pointers of a member start at zero again, so they are shifted by the
number of entries of the members before it; the lengths that the members announce tell where one
member's pointers end.
-/
namespace DeviceTeams

/-- Shifts one member's pointers behind its leading zero, checking that they never decrease. -/
def shiftPointers (member base : Nat) (previous : Int) : List Int → Attempt (List Nat)
  | [] => .ok []
  | pointer :: rest => do
    if pointer < previous then throw (MatrixError.memberDecreases member previous pointer : Failure)
    let shifted ← Word.add base pointer.toNat
    let later ← shiftPointers member base pointer rest
    pure (shifted :: later)

/-- The shifted pointers of one member and the number of entries up to its end. -/
def stitchMember (member base : Nat) (pointers : List Int) : Attempt (List Nat × Nat) := do
  match pointers with
  | [] => throw (MatrixError.emptyMember member : Failure)
  | first :: rest =>
    unless first = 0 do throw (MatrixError.memberFirstPointer member first : Failure)
    let shifted ← shiftPointers member base 0 rest
    let stop ← Word.add base (rest.getLastD 0).toNat
    pure (shifted, stop)

/-- Stitches the pointers of the members from `member` on, `base` entries having come before. -/
def stitchFrom (gathered : Array Int) (member base : Nat) : List Span → Attempt (List Nat)
  | [] => .ok []
  | segment :: rest => do
    let (shifted, stop) ← stitchMember member base (← segment.slice gathered)
    let later ← stitchFrom gathered (member + 1) stop rest
    pure (shifted ++ later)

/-- Joins the row pointers of several members into those of the stacked block. The table gives the
number of pointers of each member, one more than it has rows. -/
def stitchRowPointers (gathered : List Int) (segments : SegmentTable) : Attempt (List Nat) := do
  unless gathered.length = segments.total do
    throw (MatrixError.gatheredPointers gathered.length segments.total : Failure)
  let later ← stitchFrom gathered.toArray 0 0 (Span.between segments.offsets)
  pure (0 :: later)

/-- Unsigned words as signed ones. -/
def toSigned (indices : List Nat) : Attempt (List Int) :=
  indices.mapM fun index =>
    if index < 0x8000000000000000 then .ok (Int.ofNat index)
    else throw (MatrixError.indexTooLarge index : Failure)

/-- Signed words as column indices. -/
def toColumns (columns : List Int) : Attempt (List Nat) :=
  columns.mapM fun column =>
    if 0 ≤ column then .ok column.toNat else throw (MatrixError.negativeColumn column : Failure)

/-- What a member of a team knows after its blocks have been merged. -/
structure TeamMerge (S : Type) where
  /-- The number of rows of every member. -/
  rows : SegmentTable
  /-- The number of entries of every member. -/
  entries : SegmentTable
  /-- The stacked block, on the lead only. -/
  block : Option (Csr S)

/-- The stacked block, from the pointers, columns and values of all members. -/
def stackBlocks {S : Type} (nrows ncols : Nat) (pointers : SegmentTable)
    (allPointers allColumns : List Int) (values : List S) : Attempt (Csr S) := do
  let rowPointers ← stitchRowPointers allPointers pointers
  let columns ← toColumns allColumns
  Csr.ofParts nrows ncols rowPointers.toArray columns.toArray values.toArray

/-- Merges the members' blocks on the lead. -/
def mergeTeam {S : Type} (team : Group) (block : Csr S) : Task S (TeamMerge S) := do
  let rowCounts : List Nat ← team.allGather .word64 block.nrows
  let entryCounts : List Nat ← team.allGather .word64 block.nnz
  let rows ← Task.ofAttempt (SegmentTable.ofCounts rowCounts)
  let entries ← Task.ofAttempt (SegmentTable.ofCounts entryCounts)
  let pointers ← Task.ofAttempt do
    SegmentTable.ofCounts (← rowCounts.mapM fun count => Word.add count 1)
  let localPointers ← Task.ofAttempt (toSigned block.rowPointers.toList)
  let localColumns ← Task.ofAttempt (toSigned block.colIndices.toList)
  let allPointers ← team.gather .int64 localPointers pointers
  let allColumns ← team.gather .int64 localColumns entries
  let allValues ← team.gather .real block.values.toList entries
  match allPointers, allColumns, allValues with
  | some allPointers, some allColumns, some values =>
    let stacked ← Task.ofAttempt
      (stackBlocks rows.total block.ncols pointers allPointers allColumns values)
    pure { rows, entries, block := some stacked }
  | _, _, _ => pure { rows, entries, block := none }

end DeviceTeams
