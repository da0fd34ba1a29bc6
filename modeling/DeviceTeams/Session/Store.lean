import DeviceTeams.Session.Command

/-!
# The objects of a session

Every rank of a session holds its objects by name, kind by kind. A solver instance refers to the
context it was made with, also after another context has taken that name; so contexts are numbered,
and names refer to numbers.
-/
namespace DeviceTeams.Session

/-- Objects of one kind by name. -/
abbrev Named (α : Type) : Type := List (String × α)

namespace Named

variable {α : Type}

def without (objects : Named α) (name : String) : Named α :=
  objects.filter fun entry => entry.1 != name

def put (objects : Named α) (name : String) (value : α) : Named α :=
  (name, value) :: objects.without name

def get? (objects : Named α) (name : String) : Option α := objects.lookup name

theorem get?_put (objects : Named α) (name : String) (value : α) :
    (objects.put name value).get? name = some value := by
  simp [put, get?]

end Named

/-- A solver instance and the number of its context. -/
structure OwnedSolver (S : Type) where
  context : Nat
  solver : TeamSolver S

/-- Everything that one rank holds. -/
structure Objects (S : Type) where
  groups : Named Group
  hierarchies : Named Hierarchy
  layouts : Named VectorLayout
  contexts : Array Context
  contextNames : Named Nat
  solvers : Named (OwnedSolver S)
  engines : Named Engine
  configs : Named (Settings S)
  resources : Named Resources
  matrices : Named (MatrixHandle S)
  vectors : Named (VectorHandle S)
  engineSolvers : Named (SolverHandle S)

namespace Objects

variable {S : Type}

def worldName : String := "world"

def initial (world : Group) : Objects S :=
  ⟨[(worldName, world)], [], [], #[], [], [], [], [], [], [], [], []⟩

/-- A group of a hierarchy by the word that names it. -/
def groupOf (hierarchy : Hierarchy) (part : String) : Option Group :=
  if part = "global" then some hierarchy.global
  else if part = "node" then some hierarchy.node
  else if part = "team" then some hierarchy.team
  else if part = "solver" then hierarchy.solver
  else none

/-- A group by its own name, or by the name of a hierarchy, a point and one of the hierarchy's
groups. -/
def group? (objects : Objects S) (name : String) : Option Group :=
  match objects.groups.get? name with
  | some group => some group
  | none =>
    match name.splitOn "." with
    | [hierarchy, part] => do groupOf (← objects.hierarchies.get? hierarchy) part
    | _ => none

def context? (objects : Objects S) (name : String) : Option (Nat × Context) := do
  let number ← objects.contextNames.get? name
  pure (number, ← objects.contexts[number]?)

def attached? (objects : Objects S) (name : String) : Option (Nat × Attached S) := do
  let owned ← objects.solvers.get? name
  pure (owned.context, ⟨← objects.contexts[owned.context]?, owned.solver⟩)

def putContext (objects : Objects S) (number : Nat) (context : Context) : Objects S :=
  { objects with contexts := objects.contexts.setIfInBounds number context }

def putAttached (objects : Objects S) (name : String) (number : Nat) (state : Attached S) :
    Objects S :=
  { objects.putContext number state.context with
    solvers := objects.solvers.put name ⟨number, state.solver⟩ }

end Objects
end DeviceTeams.Session
