import DeviceTeams.Scalar

/-!
# Solver settings
-/
namespace DeviceTeams

/-- What a solver is told. -/
structure Settings (S : Type) where
  maxIters : Nat
  /-- The residual to reach, relative to the right-hand side. -/
  tolerance : S
  rings : Nat
deriving Repr

def Settings.standard : Settings Float := ⟨1000, 1e-10, 1⟩

def Settings.toScalar {S : Type} [Scalar S] (settings : Settings Float) : Settings S :=
  ⟨settings.maxIters, Scalar.ofFloat settings.tolerance, settings.rings⟩

/-- Refuses a tolerance that is not a positive number. -/
def Settings.check (settings : Settings Float) : Attempt Unit :=
  if settings.tolerance ≤ 0.0 || !settings.tolerance.isFinite then
    .error (ConfigError.tolerance settings.tolerance)
  else .ok ()

end DeviceTeams
