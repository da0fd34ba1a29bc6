import DeviceTeams.Ranks.Program

/-!
# Work on a state

A task that also changes a state. The state outlives a failure: what was changed before an operation
was refused or aborted stays changed.
-/
namespace DeviceTeams

/-- Work on a state that outlives a failure. -/
abbrev Work (S : Type) (σ : Type) : Type → Type := ExceptT Failure (StateT σ (Program S))

namespace Work

variable {S σ α : Type}

def ofTask (task : Task S α) : Work S σ α := ExceptT.mk (StateT.lift task.run)

def ofAttempt (outcome : Attempt α) : Work S σ α := ExceptT.mk (pure outcome)

def note (event : Event) : Work S σ Unit :=
  ExceptT.mk (StateT.lift (Except.ok <$> Program.note event))

/-- Runs the work from a state, to its outcome and the state it leaves. -/
def start (work : Work S σ α) (state : σ) : Program S (Attempt α × σ) := work.run.run state

end Work

end DeviceTeams
