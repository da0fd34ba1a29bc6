import DeviceTeams.Layout.Offsets

/-!
# Assembly from triplets

A block is assembled from entries given as row, column and value in any order. Entries in one place
are added from left to right in the order they were given, starting from the first of them.
-/
namespace DeviceTeams

/-- One contribution to a matrix entry. -/
structure Triplet (T : Type) where
  row : Nat
  column : Nat
  value : T
deriving BEq, Repr

namespace Triplet

variable {T : Type}

def le (a b : Triplet T) : Bool := a.row < b.row || (a.row == b.row && a.column ≤ b.column)

def samePlace (a b : Triplet T) : Bool := a.row == b.row && a.column == b.column

/-- Adds up the neighbours that share a place, where `current` is the entry under way. -/
def merge [Entry T] (current : Triplet T) : List (Triplet T) → Attempt (List (Triplet T))
  | [] => .ok [current]
  | next :: rest =>
    if current.samePlace next then do
      let sum ← Entry.add current.value next.value
      merge { current with value := sum } rest
    else do
      let later ← merge next rest
      pure (current :: later)

/-- The entries in row-major order, one for each place. -/
def collect [Entry T] (triplets : List (Triplet T)) : Attempt (List (Triplet T)) :=
  match triplets.mergeSort le with
  | [] => .ok []
  | first :: rest => merge first rest

def shiftRow (start : Nat) (t : Triplet T) : Triplet T := { t with row := t.row - start }

end Triplet

def rowCounts {T : Type} (nrows : Nat) (entries : List (Triplet T)) : Array Nat :=
  entries.foldl (fun counts entry => counts.modify entry.row (· + 1)) (Array.replicate nrows 0)

def rowPointersOf {T : Type} (nrows : Nat) (entries : List (Triplet T)) : List Nat :=
  runningTotals 0 (rowCounts nrows entries).toList

theorem size_foldl_rowCounts {T : Type} (entries : List (Triplet T)) (counts : Array Nat) :
    (entries.foldl (fun counts entry => counts.modify entry.row (· + 1)) counts).size =
    counts.size := by
  induction entries generalizing counts with
  | nil => rfl
  | cons entry rest ih => simp [ih]

@[simp] theorem size_rowCounts {T : Type} (nrows : Nat) (entries : List (Triplet T)) :
    (rowCounts nrows entries).size = nrows := by
  simp [rowCounts, size_foldl_rowCounts]

theorem getElem?_foldl_rowCounts {T : Type} (entries : List (Triplet T))
    (counts : Array Nat) (row : Nat) :
    (entries.foldl (fun counts entry => counts.modify entry.row (· + 1)) counts)[row]? =
      counts[row]?.map (· + entries.countP fun entry => entry.row == row) := by
  induction entries generalizing counts with
  | nil => simp
  | cons entry rest ih =>
    rw [List.foldl_cons, ih, Array.getElem?_modify, List.countP_cons]
    by_cases h : entry.row = row
    · cases counts[row]? <;> simp [h, Nat.add_assoc, Nat.add_comm]
    · simp [h]

/-- The row count of a row is the number of entries in it. -/
theorem getElem?_rowCounts {T : Type} (nrows : Nat) (entries : List (Triplet T)) (row : Nat) :
    (rowCounts nrows entries)[row]? =
      if row < nrows then some (entries.countP fun entry => entry.row == row) else none := by
  rw [rowCounts, getElem?_foldl_rowCounts, Array.getElem?_replicate]
  split <;> simp

@[simp] theorem length_rowPointersOf {T : Type} (nrows : Nat) (entries : List (Triplet T)) :
    (rowPointersOf nrows entries).length = nrows + 1 := by
  simp [rowPointersOf]

/-- Assembles a block; aborts if an entry lies below the last row or a sum leaves the type's
range. -/
def Csr.ofTriplets {T : Type} [Entry T] (nrows ncols : Nat) (triplets : List (Triplet T)) :
    Attempt (Csr T) := do
  if triplets.isEmpty then Csr.empty nrows ncols
  else
    let pointers ← Word.add nrows 1
    Word.request pointers 8
    let entries ← Triplet.collect triplets
    .insist (entries.all fun entry => entry.row < nrows)
    pure {
      nrows, ncols
      rowPointers := (rowPointersOf nrows entries).toArray
      colIndices := (entries.map (·.column)).toArray
      values := (entries.map (·.value)).toArray }

end DeviceTeams
