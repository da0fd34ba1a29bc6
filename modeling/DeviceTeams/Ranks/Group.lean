import DeviceTeams.Layout.Offsets
import DeviceTeams.Ranks.World

/-!
# Groups and their collective operations

A group is an ordered set of ranks that share a meeting point. Every operation below is one
exchange, two for a split, and every member has to enter it. What a member gets is computed from the
payloads of all members alone, so members that enter the same operation agree. A payload of another
operation aborts the members that read it.
-/
namespace DeviceTeams

/-- One member's view of a group. -/
structure Group where
  rank : Nat
  hub : Hub
  /-- The node on which each member runs. -/
  nodes : List Nat
deriving DecidableEq, Repr

namespace Group

variable {S : Type}

def size (g : Group) : Nat := g.hub.size

/-- The first member is the root of gathers and scatters. -/
def isRoot (g : Group) : Bool := g.rank == 0

def node (g : Group) : Attempt Nat := .ofOption g.nodes[g.rank]?

def nodeName (g : Group) : Attempt String := do
  pure ("node" ++ toString (← g.node))

/-- The member with the given rank of the group of all ranks. -/
def world (nodes : List Nat) (rank : Nat) : Group := ⟨rank, .world nodes.length, nodes⟩

/-- Leaves a payload and waits for the payloads of all members. -/
def exchange (g : Group) (payload : Payload S) : Task S (Round (Payload S)) :=
  ExceptT.mk (.meet g.hub g.rank payload fun round => .finished (.ok round))

def barrier (g : Group) : Task S Unit := do
  let _ ← g.exchange .signal

/-- One value from every member, in rank order. -/
def allGather (g : Group) (kind : Element) (value : kind.Carrier S) :
    Task S (List (kind.Carrier S)) := do
  let round ← g.exchange (.one kind value)
  Task.ofAttempt (round.items.mapM (Payload.readOne kind))

def sum [Scalar S] (g : Group) (value : S) : Task S S := do
  pure (Scalar.total (← g.allGather .real value))

def sumCounts (g : Group) (count : Nat) : Task S Nat := do
  let counts : List Nat ← g.allGather .word64 count
  Task.ofAttempt (counts.foldlM Word.add 0)

/-- Adds the vectors in the items to `start`, entry by entry in rank order. -/
def addVectors [Scalar S] (start : List S) (items : List (Payload S)) : Attempt (List S) :=
  items.foldlM (fun sum item => do
    let part ← item.readMany .real
    .insist (part.length = sum.length)
    pure (sum.zipWith (· + ·) part)) start

/-- The sum of the members' vectors, entry by entry in rank order and starting from zero. -/
def sumVector [Scalar S] (g : Group) (values : List S) : Task S (List S) := do
  let round ← g.exchange (.many .real values)
  Task.ofAttempt (addVectors (values.map fun _ => Scalar.zero) round.items)

/-- The values that the member `root` offers. -/
def offeredBy (kind : Element) (root : Nat) (items : List (Payload S)) :
    Attempt (List (kind.Carrier S)) := do
  let item ← .ofOption items[root]?
  .ofOption (← item.readOffer kind)

/-- The root's values on every member. All members must offer room for as many. -/
def broadcast (g : Group) (kind : Element) (root : Nat) (values : List (kind.Carrier S)) :
    Task S (List (kind.Carrier S)) := do
  let round ← g.exchange (.offer kind (if g.rank = root then some values else none))
  if g.rank = root then pure values
  else Task.ofAttempt do
    let received ← offeredBy kind root round.items
    .insist (received.length = values.length)
    pure received

/-- The members' values one after the other, on the root only. The table lists how many each member
sends. -/
def gather (g : Group) (kind : Element) (values : List (kind.Carrier S)) (table : SegmentTable) :
    Task S (Option (List (kind.Carrier S))) := do
  Task.ofAttempt (.insist (table.counts[g.rank]? = some values.length))
  let round ← g.exchange (.many kind values)
  if g.rank = 0 then Task.ofAttempt do
    Word.request table.total kind.width
    let parts ← round.items.mapM (Payload.readMany kind)
    pure (some parts.flatten)
  else pure none

/-- The root's values cut up by the table, each member receiving its segment of the given length. -/
def scatter (g : Group) (kind : Element) (values : Option (List (kind.Carrier S)))
    (table : SegmentTable) (length : Nat) : Task S (List (kind.Carrier S)) := do
  let round ← g.exchange (.offer kind (if g.rank = 0 then values else none))
  Task.ofAttempt do
    let all ← offeredBy kind 0 round.items
    let own ← (← table.segment g.rank).slice all.toArray
    .insist (own.length = length)
    pure own

/-- The ranks with one color, ordered by key and then by rank. -/
def membersOf (entries : List (Option Nat × Nat)) (color : Option Nat) : List Nat :=
  match color with
  | none => []
  | some _ =>
    let chosen := entries.zipIdx.filter fun (entry, _) => entry.1 == color
    (chosen.mergeSort fun a b => a.1.2 < b.1.2 || (a.1.2 == b.1.2 && a.2 ≤ b.2)).map (·.2)

/-- This member's view of the group of the given members, once their first one has handed over the
meeting point. -/
def joinMembers (g : Group) (members : List Nat) (items : List (Payload S)) :
    Attempt (Option Group) :=
  match members with
  | [] => .ok none
  | leader :: _ => do
    let item ← .ofOption items[leader]?
    match ← item.readMeetingPoint with
    | none => pure none
    | some hub =>
      let nodes ← members.mapM fun member => Attempt.ofOption g.nodes[member]?
      pure (some ⟨members.idxOf g.rank, hub, nodes⟩)

/-- The group of the members that choose the same color, ordered by key and then by rank; none for a
member that chooses no color. The first member of each new group opens its meeting point and hands
it to the others. -/
def split (g : Group) (color : Option Nat) (key : Nat) : Task S (Option Group) := do
  let round ← g.exchange (.choice color key)
  let members ← Task.ofAttempt do
    pure (membersOf (← round.items.mapM Payload.readChoice) color)
  let opened := Hub.split g.hub round.number members
  let handed ← g.exchange
    (.meetingPoint (if members.head? = some g.rank then some opened else none))
  Task.ofAttempt (g.joinMembers members handed.items)

/-- A group with the same members and a meeting point of its own. -/
def duplicate (g : Group) : Task S Group := do
  Task.ofAttempt (.ofOption (← g.split (some 0) g.rank))

/-- The greatest color, `2 ^ 32 - 1`. -/
def lastColor : Nat := 0xffffffff

/-- The group of the members on the same node. Node numbers past the last color share that color. -/
def splitByNode (g : Group) : Task S Group := do
  let node ← Task.ofAttempt g.node
  Task.ofAttempt (.ofOption (← g.split (some (min node lastColor)) g.rank))

end Group
end DeviceTeams
