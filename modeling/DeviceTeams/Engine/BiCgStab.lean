import DeviceTeams.Engine.Mode
import DeviceTeams.Engine.Settings
import DeviceTeams.Engine.System
import DeviceTeams.Ranks.Work

/-!
# The stabilised biconjugate gradient iteration

The leads solve the system together. Each of them holds its own part of every vector; scalar
products are summed over all leads, so every branch depends on numbers that all leads share and they
stay in step. The solution is updated in place: what has been reached stays when an iteration ends
early or aborts.
-/
namespace DeviceTeams

namespace BiCgStab

variable {S : Type} [Scalar S]

def dotLocal (x y : List S) : S := Scalar.total (x.zipWith (· * ·) y)

/-- `y + factor * x`. -/
def addScaled (factor : S) (x y : List S) : List S := y.zipWith (fun yi xi => yi + factor * xi) x

/-- Vectors and factors that an iteration hands to the next one. -/
structure Carry (S : Type) where
  residual : List S
  direction : List S
  image : List S
  rho : S
  alpha : S
  omega : S

def dot (leads : Group) (x y : List S) : Work S (List S) S := Work.ofTask (leads.sum (dotLocal x y))

def norm (leads : Group) (x : List S) : Work S (List S) S := do
  pure (Scalar.root (← dot leads x x))

def product (system : System S) (leads : Group) (x : List S) : Work S (List S) (List S) :=
  Work.ofTask (system.apply leads x)

/-- Whether a factor is too small to divide by. -/
def vanishes (x : S) : Bool := Scalar.less (Scalar.magnitude x) Scalar.tiny

/-- One pass: an answer if the iteration ends in it, or else what the next pass is handed. It ends
once the residual is below `target`, a factor vanishes, or the residual is no longer a number. -/
def pass (system : System S) (leads : Group) (shadow : List S) (target : S) (finished : Nat)
    (carry : Carry S) :
    Work S (List S) ((Status × Nat) ⊕ Carry S) := do
  let rho ← dot leads shadow carry.residual
  if vanishes rho then return .inl (.failed, finished)
  let beta := rho / carry.rho * (carry.alpha / carry.omega)
  let direction := addScaled Scalar.one carry.residual
    ((addScaled (-carry.omega) carry.image carry.direction).map (· * beta))
  let directionHat := system.precondition direction
  let image ← product system leads directionHat
  let projection ← dot leads shadow image
  if vanishes projection then return .inl (.failed, finished)
  let alpha := rho / projection
  let half := addScaled (-alpha) image carry.residual
  if Scalar.less (← norm leads half) target then
    modify (addScaled alpha directionHat)
    return .inl (.success, finished + 1)
  let halfHat := system.precondition half
  let halfImage ← product system leads halfHat
  let halfProduct ← dot leads halfImage half
  let halfSquare ← dot leads halfImage halfImage
  if vanishes halfSquare then return .inl (.failed, finished)
  let omega := halfProduct / halfSquare
  modify fun x => addScaled omega halfHat (addScaled alpha directionHat x)
  let residual := addScaled (-omega) halfImage half
  let size ← norm leads residual
  if !Scalar.isFinite size then return .inl (.diverged, finished + 1)
  if Scalar.less size target then return .inl (.success, finished + 1)
  if vanishes omega then return .inl (.failed, finished + 1)
  return .inr ⟨residual, direction, image, rho, alpha, omega⟩

/-- Passes one after the other until one of them has an answer or none is left. Answers with the
status and the number of iterations begun and finished. -/
def iterate (system : System S) (leads : Group) (shadow : List S) (target : S) (finished : Nat) :
    Nat → Carry S → Work S (List S) (Status × Nat)
  | 0, _ => pure (.notConverged, finished)
  | left + 1, carry => do
    match ← pass system leads shadow target finished carry with
    | .inl answer => pure answer
    | .inr carry => iterate system leads shadow target (finished + 1) left carry

/-- What comes before the first pass: an answer if the right-hand side vanishes or the guess is good
enough, or else the target and what the first pass is handed. -/
def opening (system : System S) (leads : Group) (settings : Settings S) (b : List S) :
    Work S (List S) ((Status × Nat) ⊕ (S × Carry S)) := do
  let size ← norm leads b
  if Scalar.less size Scalar.tiny then
    modify fun x => x.map fun _ => Scalar.zero
    return .inl (.success, 0)
  let target := settings.tolerance * size
  let start ← product system leads (← get)
  let residual := b.zipWith (· - ·) start
  if Scalar.less (← norm leads residual) target then return .inl (.success, 0)
  let blank := List.replicate b.length (Scalar.zero : S)
  return .inr (target, ⟨residual, blank, blank, Scalar.one, Scalar.one, Scalar.one⟩)

/-- Solves for the right-hand side `b`, starting from the solution that the state holds. The first
residual is the shadow of all passes. -/
def solve (system : System S) (leads : Group) (settings : Settings S) (b : List S) :
    Work S (List S) (Status × Nat) := do
  match ← opening system leads settings b with
  | .inl answer => pure answer
  | .inr (target, carry) => iterate system leads carry.residual target 0 settings.maxIters carry

end BiCgStab
end DeviceTeams
