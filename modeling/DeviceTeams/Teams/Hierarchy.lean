import DeviceTeams.Ranks.Group
import DeviceTeams.Teams.Bands

/-!
# The groups of a solver instance

From one group of ranks four are derived: a private copy of it, the ranks on one node, the ranks of
one node that share a device, and the leads of all teams. A team is led by its first member, and
only leads belong to the solver group.
-/
namespace DeviceTeams

/-- One rank's place in the groups of a solver instance. -/
structure Hierarchy where
  global : Group
  node : Group
  team : Group
  /-- The leads of all teams, on leads only. -/
  solver : Option Group
  assignment : Assignment
  nodeName : String
  /-- The number of devices that the assignment was computed from. -/
  deviceCount : Nat
deriving Repr

namespace Hierarchy

def device (h : Hierarchy) : Nat := h.assignment.device

def isLead (h : Hierarchy) : Bool := h.assignment.isLead

/-- Reported when a node has devices that no process will use. -/
def excessDevices (nodeName : String) (devices processes : Nat) : Event where
  severity := .warning
  message := s!"more devices than node-local processes; only {processes} will be used"
  fields := [("node", nodeName), ("devices", toString devices), ("processes", toString processes)]

/-- What a rank knows before the groups by device are formed. -/
structure Placement where
  global : Group
  node : Group
  nodeName : String
  deviceCount : Nat
  assignment : Assignment
deriving Repr

/-- A private copy of a group and the group of its ranks on one node. -/
def divide {S : Type} (group : Group) : Task S (Group × Group) := do
  let global ← group.duplicate
  let node ← global.splitByNode
  pure (global, node)

def survey {S : Type} (global node : Group) (countDevices : Group → Attempt Nat) :
    Task S Placement := do
  let nodeName ← Task.ofAttempt node.nodeName
  let deviceCount ← Task.ofAttempt (countDevices node)
  if node.size < deviceCount then
    ExceptT.lift (Program.note (excessDevices nodeName deviceCount node.size))
  let assignment ← Task.ofAttempt (Assignment.of deviceCount node.size node.rank)
  pure { global, node, nodeName, deviceCount, assignment }

/-- Forms the group of the leads. The barrier keeps every rank from it until all have their
assignment. -/
def joinLeads {S : Type} (p : Placement) : Task S (Option Group) := do
  p.global.barrier
  p.global.split (if p.assignment.isLead then some 0 else none) p.global.rank

def joinTeam {S : Type} (p : Placement) (solver : Option Group) : Task S Hierarchy := do
  if Group.lastColor < p.assignment.device then
    throw (TopologyError.deviceTooLarge p.assignment.device : Failure)
  match ← p.node.split (some p.assignment.device) p.node.rank with
  | none => throw (TopologyError.noTeamGroup : Failure)
  | some team =>
    Task.ofAttempt (.insist ((team.rank == 0) == p.assignment.isLead))
    pure {
      global := p.global, node := p.node, team, solver, assignment := p.assignment,
      nodeName := p.nodeName
      deviceCount := p.deviceCount }

/-- Derives the groups. `countDevices` tells how many devices the node offers, given the group of
its ranks. -/
def build {S : Type} (group : Group) (countDevices : Group → Attempt Nat) : Task S Hierarchy := do
  let (global, node) ← divide group
  let placement ← survey global node countDevices
  joinTeam placement (← joinLeads placement)

end Hierarchy
end DeviceTeams
