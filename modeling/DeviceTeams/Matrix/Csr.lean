import DeviceTeams.Scalar

/-!
# Sparse matrices, row by row

A block stores its entries row by row: `rowPointers[r]` is the position of the first entry of row
`r`, and the last pointer is the number of entries. The fields are not checked when they are stored;
`validate` checks them and names the first rule that is broken. Reading a block whose fields are
wrong aborts where a pointer or a column leads outside, and only there.
-/
namespace DeviceTeams

/-- A sparse block with `nrows` rows and `ncols` columns. -/
structure Csr (T : Type) where
  nrows : Nat
  ncols : Nat
  rowPointers : Array Nat
  colIndices : Array Nat
  values : Array T
deriving BEq, Repr

/-- Positions from `start` up to and without `stop`; empty when `stop` does not lie past `start`. -/
structure Span where
  start : Nat
  stop : Nat
deriving BEq, DecidableEq, Repr

namespace Span

def length (s : Span) : Nat := s.stop - s.start

def contains (s : Span) (position : Nat) : Bool := s.start ≤ position && position < s.stop

/-- The part of an array that a span covers; aborts if the span is reversed or leads past the
end. -/
def slice {α : Type} (s : Span) (items : Array α) : Attempt (List α) :=
  if s.start ≤ s.stop ∧ s.stop ≤ items.size then
    .ok (items.extract s.start s.stop).toList else .abort

/-- The spans between neighbouring pointers. -/
def between (pointers : List Nat) : List Span :=
  List.zipWith Span.mk pointers pointers.tail

end Span

/-- Whether each number is below the next one. -/
def ascending (numbers : List Nat) : Bool :=
  (numbers.zip numbers.tail).all fun pair => pair.1 < pair.2

/-- Finds `wanted` in ascending numbers by halving. In numbers that are not ascending it may miss
it. -/
def searchSorted? (numbers : Array Nat) (wanted : Nat) : Option Nat :=
  if numbers.size = 0 then none
  else
    let base := narrow 0 numbers.size
    if numbers.getD base 0 = wanted then some base else none
where
  /-- Halves the window of the given size that starts at `base` until one position is left. -/
  narrow (base size : Nat) : Nat :=
    if 1 < size then
      let half := size / 2
      narrow (if wanted < numbers.getD (base + half) 0 then base else base + half) (size - half)
    else base
  termination_by size

namespace Csr

variable {T : Type}

def nnz (m : Csr T) : Nat := m.values.size

/-- The positions of one row's entries, as the pointers give them. -/
def rowSpan (m : Csr T) (row : Nat) : Attempt Span :=
  match m.rowPointers[row]?, m.rowPointers[row + 1]? with
  | some start, some stop => .ok ⟨start, stop⟩
  | _, _ => .abort

/-- The spans of all rows; aborts if there are rows without pointers. -/
def rowSpans (m : Csr T) : Attempt (List Span) :=
  if m.nrows = 0 then .ok []
  else if m.nrows < m.rowPointers.size then
    .ok (Span.between (m.rowPointers.toList.take (m.nrows + 1)))
  else .abort

/-- Column and value of every entry in a span, in storage order. A reversed span holds no
entries. -/
def entries (m : Csr T) (s : Span) : Attempt (List (Nat × T)) :=
  if s.stop ≤ s.start then .ok []
  else if s.stop ≤ m.colIndices.size ∧ s.stop ≤ m.values.size then
    .ok ((m.colIndices.extract s.start s.stop).toList.zip (m.values.extract s.start s.stop).toList)
  else .abort

def rowEntries (m : Csr T) (row : Nat) : Attempt (List (Nat × T)) := do
  m.entries (← m.rowSpan row)

def rows (m : Csr T) : Attempt (List (List (Nat × T))) := do
  (← m.rowSpans).mapM m.entries

/-- Checks the columns of one row of a block whose pointers have been checked. -/
def validateRow (m : Csr T) (row : Nat) : Attempt Unit := do
  let columns ← (← m.rowSpan row).slice m.colIndices
  match columns.getLast? with
  | some last =>
    if m.ncols ≤ last then throw (MatrixError.columnOutside last row m.ncols : Failure)
  | none => pure ()
  unless ascending columns do throw (MatrixError.columnsNotAscending row : Failure)

/-- Accepts a block exactly if its pointers start at zero, never decrease and end at the number of
entries, there is a column for every value, and the columns of every row ascend strictly and are in
range. -/
def validate (m : Csr T) : Attempt Unit := do
  let expected ← Word.add m.nrows 1
  unless m.rowPointers.size = expected do
    throw (MatrixError.pointerCount m.rowPointers.size m.nrows : Failure)
  let first ← .ofOption m.rowPointers[0]?
  unless first = 0 do throw (MatrixError.firstPointer : Failure)
  unless m.colIndices.size = m.values.size do
    throw (MatrixError.columnCount m.colIndices.size m.values.size : Failure)
  let last ← .ofOption m.rowPointers[m.nrows]?
  unless last = m.values.size do throw (MatrixError.lastPointer last m.values.size : Failure)
  match (Span.between m.rowPointers.toList).findIdx? fun s => s.stop < s.start with
  | some row => throw (MatrixError.pointerDecreases row : Failure)
  | none => pure ()
  (List.range m.nrows).forM m.validateRow

def ofParts (nrows ncols : Nat) (rowPointers colIndices : Array Nat) (values : Array T) :
    Attempt (Csr T) := do
  let m : Csr T := ⟨nrows, ncols, rowPointers, colIndices, values⟩
  m.validate
  pure m

def empty (nrows ncols : Nat) : Attempt (Csr T) := do
  let pointers ← Word.add nrows 1
  Word.request pointers 8
  pure ⟨nrows, ncols, Array.replicate pointers 0, #[], #[]⟩

/-- The value at a position of the block, found by halving the row. -/
def get? (m : Csr T) (row column : Nat) : Attempt (Option T) := do
  let span ← m.rowSpan row
  let columns ← span.slice m.colIndices
  match searchSorted? columns.toArray column with
  | none => pure none
  | some position => some <$> .ofOption m.values[span.start + position]?

/-- Every row written out, with a default where nothing is stored. Of entries in one place the last
counts. -/
def toDense [Entry T] (m : Csr T) : Attempt (List (List T)) := do
  Word.request m.ncols 8
  (← m.rows).mapM fun row =>
    let blank := Array.replicate m.ncols (Entry.absent : T)
    Array.toList <$> row.foldlM (fun (line : Array T) (column, value) =>
      if column < line.size then .ok (line.set! column value) else .abort) blank

/-- The product with a vector. Each row is summed from zero in storage order. -/
def spmv {S : Type} [Scalar S] (m : Csr S) (x : List S) : Attempt (List S) := do
  .insist (x.length = m.ncols)
  let x := x.toArray
  (← m.rows).mapM fun row =>
    row.foldlM (fun sum (column, value) => do
      let factor ← .ofOption x[column]?
      pure (sum + value * factor)) Scalar.zero

end Csr
end DeviceTeams
