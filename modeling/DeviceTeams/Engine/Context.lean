import DeviceTeams.Engine.Basic
import DeviceTeams.Ranks.Work

/-!
# Sharing an engine

All solver instances of a process share one engine. The first instance that needs it starts it and
creates the resources, the last one that leaves destroys them and shuts the engine down. Instances
share resources only if their leads have the same layout of devices, and since creating resources
takes all leads, either all of them reuse theirs or none does.
-/
namespace DeviceTeams

structure SharedResources where
  resources : Resources
  references : Nat
deriving DecidableEq, Repr

/-- The engine of a process and what its solver instances share. -/
structure Context where
  engine : Engine
  /-- Initialized instances, leads or not. -/
  instances : Nat
  /-- Instances that hold the shared resources. -/
  users : Nat
  shared : Option SharedResources
  /-- The number of leads that the resources were created for. -/
  leads : Nat
deriving DecidableEq, Repr

namespace Context

def ofEngine (engine : Engine) : Context := ⟨engine, 0, 0, none, 0⟩

def register (c : Context) : Context := { c with instances := c.instances + 1 }

def unregister (c : Context) : Context := { c with instances := c.instances - 1 }

/-- Starts the engine and creates resources for the leads. If that is refused the engine is shut
down again. -/
def openResources {S : Type} (leads : Group) : Work S Context Resources := do
  let c ← get
  let started ← Work.ofAttempt c.engine.startup
  set { c with engine := started }
  match ← Work.ofTask (started.createResources leads).outcome with
  | .ok resources =>
    set { c with engine := started, shared := some ⟨resources, 1⟩, leads := leads.size, users := 1 }
    pure resources
  | .error .aborted => throw .aborted
  | .error cause =>
    let stopped ← Work.ofAttempt started.shutdown
    set { c with engine := stopped }
    throw cause

/-- Joins the users of the engine. All leads have to ask together. -/
def acquire {S : Type} (leads : Group) : Work S Context Resources := do
  let c ← get
  let holders ← Work.ofTask (leads.sumCounts (if c.shared.isSome then 1 else 0))
  let differs := c.shared.isSome && c.leads != leads.size
  let resized ← Work.ofTask (leads.sumCounts (if differs then 1 else 0))
  if 0 < resized ∨ (0 < holders ∧ holders ≠ leads.size) then
    throw (TopologyError.layoutMismatch holders leads.size : Failure)
  match c.shared with
  | some shared =>
    set { c with
      users := c.users + 1, shared := some { shared with references := shared.references + 1 } }
    pure shared.resources
  | none => openResources leads

/-- Leaves the users of the engine. The last user destroys the resources and shuts the engine down;
the answer tells whether that happened. -/
def release {S : Type} : Work S Context Bool := do
  modify fun c => { c with
    users := c.users - 1
    shared := c.shared.map fun shared => { shared with references := shared.references - 1 } }
  let c ← get
  if 0 < c.users then return false
  match c.shared with
  | some shared =>
    set { c with shared := none }
    if 0 < shared.references then throw (EngineError.stillReferenced : Failure)
  | none => pure ()
  let stopped ← Work.ofAttempt c.engine.shutdown
  modify fun c => { c with engine := stopped }
  return true

end Context
end DeviceTeams
