import DeviceTeams.Engine.Settings
import DeviceTeams.Ranks.Group

/-!
# The engine

The engine runs or does not run, and counts how often it was started and shut down. While it runs it
hands out resources: a private copy of the group of the leads that will solve together.
-/
namespace DeviceTeams

structure Engine where
  /-- The number of accelerators it sees. -/
  visible : Nat
  running : Bool
  startups : Nat
  shutdowns : Nat
deriving BEq, DecidableEq, Repr

/-- What the handles of an engine share: the leads that solve together. -/
structure Resources where
  leads : Group
deriving DecidableEq, Repr

namespace Engine

/-- An engine that has never run. -/
def seeing (visible : Nat) : Engine := ⟨visible, false, 0, 0⟩

def startup (e : Engine) : Attempt Engine :=
  if e.running then .error EngineError.alreadyStarted
  else .ok { e with running := true, startups := e.startups + 1 }

def shutdown (e : Engine) : Attempt Engine :=
  if e.running then .ok { e with running := false, shutdowns := e.shutdowns + 1 }
  else .error EngineError.notRunning

/-- Resources for a group of leads. All of them have to ask together. -/
def createResources {S : Type} (e : Engine) (leads : Group) : Task S Resources := do
  unless e.running do throw (EngineError.resourcesBeforeStartup : Failure)
  pure ⟨← leads.duplicate⟩

end Engine
end DeviceTeams
