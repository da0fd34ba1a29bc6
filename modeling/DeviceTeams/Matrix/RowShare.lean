import DeviceTeams.Matrix.Triplets

/-!
# One process's share of a distributed matrix

A process owns consecutive global rows. The columns of its own column range form the diagonal block
and are numbered from the start of that range. The other columns form the off-diagonal block, whose
compressed columns are mapped to global ones by an ascending list.
-/
namespace DeviceTeams

/-- The rows of a distributed matrix that one process owns. -/
structure RowShare (S : Type) where
  globalRows : Nat
  globalCols : Nat
  rowStart : Nat
  colStart : Nat
  diagonal : Csr S
  offDiagonal : Csr S
  /-- The global column of each off-diagonal column. -/
  columnMap : Array Nat
deriving BEq, Repr

namespace RowShare

variable {S : Type}

def localRows (m : RowShare S) : Nat := m.diagonal.nrows

def localNnz (m : RowShare S) : Nat := m.diagonal.nnz + m.offDiagonal.nnz

def rowSpan (m : RowShare S) : Span := ⟨m.rowStart, m.rowStart + m.diagonal.nrows⟩

def colSpan (m : RowShare S) : Span := ⟨m.colStart, m.colStart + m.diagonal.ncols⟩

/-- Checks both blocks, that they fit together and into the global matrix, and that the column map
ascends and stays outside the diagonal columns. -/
def validate (m : RowShare S) : Attempt Unit := do
  m.diagonal.validate
  m.offDiagonal.validate
  unless m.diagonal.nrows = m.offDiagonal.nrows do
    throw (MatrixError.blockRows m.diagonal.nrows m.offDiagonal.nrows : Failure)
  let rowStop ← Word.add m.rowStart m.diagonal.nrows
  if m.globalRows < rowStop then
    throw (MatrixError.rowsOutside m.rowStart rowStop m.globalRows : Failure)
  let colStop ← Word.add m.colStart m.diagonal.ncols
  if m.globalCols < colStop then
    throw (MatrixError.columnsOutside m.colStart colStop m.globalCols : Failure)
  unless m.offDiagonal.ncols = m.columnMap.size do
    throw (MatrixError.columnMapLength m.offDiagonal.ncols m.columnMap.size : Failure)
  unless ascending m.columnMap.toList do throw (MatrixError.columnMapNotAscending : Failure)
  match m.columnMap.toList.find? fun c =>
    m.globalCols ≤ c || (Span.mk m.colStart colStop).contains c with
  | some column => throw (MatrixError.columnMapEntry column : Failure)
  | none => pure ()

def assemble (m : RowShare S) : Attempt (RowShare S) := do
  m.validate
  pure m

/-- Drops every number that equals the one before it. -/
def dropRepeats : List Nat → List Nat
  | [] => []
  | [n] => [n]
  | n :: next :: rest =>
    if n = next then dropRepeats (next :: rest) else n :: dropRepeats (next :: rest)

/-- The columns outside the diagonal range, each once, in ascending order. -/
def mapColumns (cols : Span) (triplets : List (Triplet S)) : List Nat :=
  dropRepeats (((triplets.map (·.column)).filter fun c => !cols.contains c).mergeSort)

def diagonalPart (rows cols : Span) (triplets : List (Triplet S)) : List (Triplet S) :=
  (triplets.filter fun t => cols.contains t.column).map fun t =>
    ⟨t.row - rows.start, t.column - cols.start, t.value⟩

/-- The entries of the off-diagonal block, with the position of the column in the map for a
column. -/
def offDiagonalPart (rows cols : Span) (columnMap : List Nat) (triplets : List (Triplet S)) :
    List (Triplet S) :=
  (triplets.filter fun t => !cols.contains t.column).map fun t =>
    ⟨t.row - rows.start, columnMap.idxOf t.column, t.value⟩

/-- Assembles a share from entries in global numbering, all of whose rows must lie in `rows`. -/
def ofTriplets [Scalar S] (globalRows globalCols : Nat) (rows cols : Span)
    (triplets : List (Triplet S)) :
    Attempt (RowShare S) := do
  match triplets.find? fun t => !rows.contains t.row || globalCols ≤ t.column with
  | some t =>
    throw (MatrixError.entryOutside t.row t.column rows.start rows.stop globalCols : Failure)
  | none => pure ()
  let columnMap := mapColumns cols triplets
  let diagonal ← Csr.ofTriplets rows.length cols.length (diagonalPart rows cols triplets)
  let offDiagonal ← Csr.ofTriplets rows.length columnMap.length
    (offDiagonalPart rows cols columnMap triplets)
  assemble {
    globalRows, globalCols, rowStart := rows.start, colStart := cols.start, diagonal, offDiagonal
    columnMap := columnMap.toArray }

/-- One row in global numbering: the off-diagonal entries left of the diagonal range, the diagonal
entries, and the remaining off-diagonal entries. -/
def globalRow (m : RowShare S) (diagonal offDiagonal : List (Nat × S)) :
    Attempt (List (Nat × S)) := do
  let mapped ← offDiagonal.mapM fun (column, value) => do
    pure ((← .ofOption m.columnMap[column]?), value)
  let isLeft (entry : Nat × S) : Bool := entry.1 < m.colStart
  let own := diagonal.map fun (column, value) => (m.colStart + column, value)
  pure (mapped.takeWhile isLeft ++ own ++ mapped.dropWhile isLeft)

/-- The share as a single block with global columns. Both blocks are sorted by row, so the result is
too. -/
def localBlock (m : RowShare S) : Attempt (Csr S) := do
  let rows ← ((← m.diagonal.rows).zip (← m.offDiagonal.rows)).mapM fun (diagonal, offDiagonal) =>
    m.globalRow diagonal offDiagonal
  let entries := rows.flatten
  pure {
    nrows := m.localRows
    ncols := m.globalCols
    rowPointers := (runningTotals 0 (rows.map List.length)).toArray
    colIndices := (entries.map (·.1)).toArray
    values := (entries.map (·.2)).toArray }

end RowShare
end DeviceTeams
