import DeviceTeams.Matrix.Csr

/-!
# Offset tables

Items that several owners hold one after the other are described by the owners' counts, or by the
offsets at which each owner's part starts. Offsets are the running totals of the counts and end with
the sum of all of them. A table whose total is not a word is never built.
-/
namespace DeviceTeams

/-- The totals before each count and after the last one. -/
def runningTotals (start : Nat) : List Nat → List Nat
  | [] => [start]
  | count :: rest => start :: runningTotals (start + count) rest

/-- The totals before each count and after the last one, added up as words: the first total that is
not a word aborts. -/
def offsetsFrom (total : Nat) : List Nat → Attempt (List Nat)
  | [] => .ok [total]
  | count :: rest => do
    let next ← Word.add total count
    let later ← offsetsFrom next rest
    pure (total :: later)

def offsetsOf (counts : List Nat) : Attempt (List Nat) := offsetsFrom 0 counts

/-- The part between two neighbouring offsets. -/
def partOf (offsets : List Nat) (owner : Nat) : Attempt Span :=
  match offsets[owner]?, offsets[owner + 1]? with
  | some start, some stop => .ok ⟨start, stop⟩
  | _, _ => .abort

@[simp] theorem length_runningTotals (start : Nat) (counts : List Nat) :
    (runningTotals start counts).length = counts.length + 1 := by
  induction counts generalizing start with
  | nil => rfl
  | cons count rest ih => simp [runningTotals, ih]

/-- How a concatenated buffer is shared out among the members of a group. -/
structure SegmentTable where
  counts : List Nat
  offsets : List Nat
deriving BEq, DecidableEq, Repr

namespace SegmentTable

def ofCounts (counts : List Nat) : Attempt SegmentTable := do
  pure ⟨counts, ← offsetsOf counts⟩

def size (t : SegmentTable) : Nat := t.counts.length

def total (t : SegmentTable) : Nat := t.offsets.getD t.counts.length 0

def segment (t : SegmentTable) (member : Nat) : Attempt Span := partOf t.offsets member

end SegmentTable

/-- The global rows of every device team, in the order of the team leads. -/
structure RowPartition where
  offsets : List Nat
deriving BEq, DecidableEq, Repr

namespace RowPartition

def ofCounts (counts : List Nat) : Attempt RowPartition := do
  pure ⟨← offsetsOf counts⟩

def teams (p : RowPartition) : Nat := p.offsets.length - 1

def totalRows (p : RowPartition) : Nat := p.offsets.getLastD 0

def range (p : RowPartition) (team : Nat) : Attempt Span := partOf p.offsets team

end RowPartition
end DeviceTeams
