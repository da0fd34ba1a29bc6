import DeviceTeams.Ranks.Group
import DeviceTeams.Ranks.Work

/-!
# Vectors of a team

A team's vector is the concatenation of its members' segments in team order. It is gathered on the
lead and scattered back into buffers of the members. A vector of the wrong length is refused before
anything is sent.
-/
namespace DeviceTeams

/-- How a team's vector is cut into segments, as seen by the member `rank`. -/
structure VectorLayout where
  segments : SegmentTable
  rank : Nat
deriving BEq, DecidableEq, Repr

namespace VectorLayout

variable {S : Type}

/-- The layout in which every member holds the length that it names. -/
def exchangeLengths (team : Group) (length : Nat) : Task S VectorLayout := do
  let counts : List Nat ← team.allGather .word64 length
  Task.ofAttempt do
    pure ⟨← SegmentTable.ofCounts counts, team.rank⟩

def localLength (l : VectorLayout) : Attempt Nat := .ofOption l.segments.counts[l.rank]?

def teamLength (l : VectorLayout) : Nat := l.segments.total

/-- Refuses a segment of another length. -/
def checkLocal (l : VectorLayout) (length : Nat) : Attempt Unit := do
  let expected ← l.localLength
  unless length = expected do throw (DimensionError.localVector length expected : Failure)

/-- Refuses to scatter from the lead without a vector of the team's length. -/
def checkTeam (l : VectorLayout) (teamVector : Option (List S)) : Attempt Unit :=
  match teamVector with
  | some values =>
    if values.length = l.teamLength then .ok ()
    else throw (DimensionError.teamVector values.length l.teamLength : Failure)
  | none => throw (DimensionError.noTeamVector : Failure)

def gather (l : VectorLayout) (team : Group) (values : List S) : Task S (Option (List S)) := do
  Task.ofAttempt (l.checkLocal values.length)
  team.gather .real values l.segments

def scatter (l : VectorLayout) (team : Group) (teamVector : Option (List S)) (length : Nat) :
    Task S (List S) := do
  Task.ofAttempt (l.checkLocal length)
  if team.isRoot then Task.ofAttempt (l.checkTeam teamVector)
  team.scatter .real teamVector l.segments length

/-- Puts this member's segment of the lead's vector in place of what its buffer holds. -/
def scatterInto (l : VectorLayout) (team : Group) (teamVector : Option (List S)) :
    Work S (List S) Unit := do
  let buffer ← get
  let own ← Work.ofTask (l.scatter team teamVector buffer.length)
  set own

end VectorLayout
end DeviceTeams
