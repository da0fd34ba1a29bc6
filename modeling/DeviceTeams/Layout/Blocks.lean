import DeviceTeams.Matrix.Csr

/-!
# Cutting into contiguous blocks

`total` items are cut into `parts` contiguous blocks whose sizes differ by at most one, the larger
blocks first. `blockSpan` gives one block by its index; `contiguousNodes` lists the block of every
item.
-/
namespace DeviceTeams

/-- The items of block `index`. No parts count as one part. -/
def blockSpan (total parts index : Nat) : Attempt Span := do
  let parts := max parts 1
  let basic := total / parts
  let remain := total % parts
  let start ← Word.add (← Word.mul index basic) (min index remain)
  let stop ← Word.add start (if index < remain then basic + 1 else basic)
  pure ⟨start, stop⟩

/-- The node of every rank when `ranks` ranks are placed on `nodes` nodes, at least one and at most
one node for each rank. -/
def contiguousNodes (ranks nodes : Nat) : List Nat :=
  let nodes := min (max nodes 1) (max ranks 1)
  let basic := ranks / nodes
  let remain := ranks % nodes
  (List.range nodes).flatMap fun node =>
    List.replicate (if node < remain then basic + 1 else basic) node

end DeviceTeams
