import DeviceTeams.Ranks.Payload
import DeviceTeams.Ranks.Rendezvous

/-!
# Programs of a rank

A rank computes on its own until it needs the other members of a group. Its program is therefore a
tree: it is finished, or it reports an event, or it leaves a payload at a meeting point and goes on
with what the members of the group left there. A program says nothing about when the others arrive.
-/
namespace DeviceTeams

inductive Severity where
  | warning
  | error
deriving DecidableEq, Repr

/-- Something a rank reports while it runs. -/
structure Event where
  severity : Severity
  message : String
  fields : List (String × String)
deriving DecidableEq, Repr

def Event.line (e : Event) : String :=
  let level := match e.severity with
    | .warning => "WARN"
    | .error => "ERROR"
  " ".intercalate (level :: e.message :: e.fields.map fun (name, value) => name ++ "=" ++ value)

/-- What a rank does, up to the end `α`. -/
inductive Program (S : Type) (α : Type) where
  | finished (value : α)
  | report (event : Event) (next : Program S α)
  | meet (hub : Hub) (seat : Nat) (payload : Payload S) (resume : Round (Payload S) → Program S α)

namespace Program

variable {S α β : Type}

/-- Goes on with a second program where the first one ends. -/
def andThen (p : Program S α) (f : α → Program S β) : Program S β :=
  match p with
  | finished value => f value
  | report event next => report event (next.andThen f)
  | meet hub seat payload resume => meet hub seat payload fun round => (resume round).andThen f

instance : Monad (Program S) where
  pure := finished
  bind := andThen

@[simp] theorem finished_bind (value : α) (f : α → Program S β) :
    finished value >>= f = f value := rfl

@[simp] theorem report_bind (event : Event) (next : Program S α) (f : α → Program S β) :
    report event next >>= f = report event (next >>= f) := rfl

@[simp] theorem meet_bind (hub : Hub) (seat : Nat) (payload : Payload S)
    (resume : Round (Payload S) → Program S α) (f : α → Program S β) :
    meet hub seat payload resume >>= f = meet hub seat payload fun round =>
      resume round >>= f := rfl

theorem andThen_finished (p : Program S α) : p.andThen finished = p := by
  induction p with
  | finished => rfl
  | report event next ih => simp [andThen, ih]
  | meet hub seat payload resume ih => simp [andThen, ih]

theorem andThen_assoc {γ : Type} (p : Program S α) (f : α → Program S β) (g : β → Program S γ) :
    (p.andThen f).andThen g = p.andThen fun value => (f value).andThen g := by
  induction p with
  | finished => rfl
  | report event next ih => simp [andThen, ih]
  | meet hub seat payload resume ih => simp [andThen, ih]

instance : LawfulMonad (Program S) :=
  LawfulMonad.mk' (Program S) andThen_finished (fun _ _ => rfl) andThen_assoc

def note (event : Event) : Program S Unit := report event (finished ())

/-- The same program with its events taken out of it and handed over at the end. -/
def collectEvents : Program S α → Program S (α × List Event)
  | finished value => finished (value, [])
  | report event next =>
    next.collectEvents.andThen fun (value, events) => finished (value, event :: events)
  | meet hub seat payload resume => meet hub seat payload fun round => (resume round).collectEvents

end Program

/-- A program that may fail. -/
abbrev Task (S : Type) : Type → Type := ExceptT Failure (Program S)

namespace Task

variable {S α : Type}

def ofAttempt (outcome : Attempt α) : Task S α := ExceptT.mk (.finished outcome)

/-- Runs a task and hands over its outcome, whatever it is. -/
def outcome (task : Task S α) : Task S (Attempt α) := ExceptT.mk (Except.ok <$> task.run)

end Task

instance {S : Type} : MonadLift Attempt (Task S) := ⟨Task.ofAttempt⟩

end DeviceTeams
