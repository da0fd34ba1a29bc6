import DeviceTeams.Proofs.Iteration

/-!
# What the passes are handed

An iteration can hand over, besides its answer, what is there at the head of each of its passes: the
vectors and factors that the pass is handed and the solution that has been reached. It is the same
iteration otherwise. Leads that hold the bands of a joint system find their parts of what the joint
passes are handed.
-/
namespace DeviceTeams

variable {S : Type} [Scalar S]

namespace BiCgStab

/-- What a lead has at the head of a pass: what the pass is handed, and the solution. -/
abbrev Head (S : Type) : Type := Carry S × List S

/-- The iteration, with the heads of its passes handed over besides its answer. -/
def watch (system : System S) (leads : Group) (shadow : List S) (target : S) (finished : Nat) :
    Nat → Carry S → Work S (List S) ((Status × Nat) × List (Head S))
  | 0, _ => pure ((.notConverged, finished), [])
  | left + 1, carry => do
    let x ← get
    match ← pass system leads shadow target finished carry with
    | .inl answer => pure (answer, [(carry, x)])
    | .inr next =>
      let (answer, heads) ← watch system leads shadow target (finished + 1) left next
      pure (answer, (carry, x) :: heads)

def watchedSolve (system : System S) (leads : Group) (settings : Settings S) (b : List S) :
    Work S (List S) ((Status × Nat) × List (Head S)) := do
  match ← opening system leads settings b with
  | .inl answer => pure (answer, [])
  | .inr (target, carry) => watch system leads carry.residual target 0 settings.maxIters carry

variable (system : System S) (leads : Group)

/-- An iteration that forgets the heads is what it was. -/
theorem watch_forgotten (shadow : List S) (target : S) (left finished : Nat)
    (carry : Carry S) (x : List S) :
    (Prod.fst <$> watch system leads shadow target finished left carry).start x =
      (iterate system leads shadow target finished left carry).start x := by
  induction left generalizing finished carry x with
  | zero => rfl
  | succ left ih =>
    rw [watch, iterate, map_bind, Work.start_get_bind, map_bind, Work.start_bind, Work.start_bind]
    congr 1
    funext ended
    obtain ⟨failure | answer | next, y⟩ := ended
    · rfl
    · rfl
    · simp only [Work.following_ok, ← ih, map_eq_pure_bind, bind_assoc, pure_bind]

/-- A watched solve is the solve, so what is read off its heads is said of the solve itself. -/
theorem watchedSolve_forgotten (settings : Settings S) (b x : List S) :
    (Prod.fst <$> watchedSolve system leads settings b).start x =
    (solve system leads settings b).start x := by
  rw [watchedSolve, solve, map_bind, Work.start_bind, Work.start_bind]
  congr 1
  funext ended
  obtain ⟨failure | answer | first, y⟩ := ended
  · rfl
  · rfl
  · exact watch_forgotten ..

end BiCgStab

namespace Joint

variable (j : Joint S)

abbrev Head (S : Type) : Type := Carry S × Parts S

def Head.at (head : Head S) (seat : Nat) : BiCgStab.Head S := (head.1.at seat, head.2 seat)

/-- The heads of the passes of a joint iteration. -/
def heads (shadow : Parts S) (target : S) (finished : Nat) : Nat → Carry S → Parts S → List (Head S)
  | 0, _, _ => []
  | left + 1, carry, x => (carry, x) ::
    match j.pass shadow target finished carry x with
    | (.inl _, _) => []
    | (.inr next, y) => heads shadow target (finished + 1) left next y

/-- If the first pass hands on and more than one is allowed there is a second head. -/
theorem one_lt_heads {j : Joint S} {shadow : Parts S} {target : S} {finished : Nat}
    {carry next : Carry S} {x y : Parts S}
    (passed : j.pass shadow target finished carry x = (.inr next, y)) (left : Nat) :
    1 < (j.heads shadow target finished (left + 2) carry x).length := by
  rw [heads, passed]
  exact Nat.succ_lt_succ (Nat.succ_pos _)

def solveHeads (settings : Settings S) (b x : Parts S) : List (Head S) :=
  match j.opening settings b x with
  | (.inl _, _) => []
  | (.inr (target, carry), y) => j.heads carry.residual target 0 settings.maxIters carry y

namespace HeldBy

variable {j} {node : Nat → Nat} {L : Finset Nat} {N : Nat → Group} (held : j.HeldBy node L N)
include held

/-- The leads find their parts of what the joint passes are handed. The induction is on the passes
that are left. -/
theorem watch_unison (sound : j.Sound) (shadow : Parts S) (target : S) (left finished : Nat)
    (carry : Carry S) (fits : carry.Fits j) {x : Parts S} (guess : j.Fits x) :
    Unison L N (fun rank =>
      (BiCgStab.watch (j.system (N rank).rank) (N rank) (shadow (N rank).rank) target finished left
      (carry.at (N rank).rank)).start (x (N rank).rank)) fun v => ∀ rank ∈ L, v rank =
        (.ok ((j.iterate shadow target finished left carry x).1,
          (j.heads shadow target finished left carry x).map (·.at (N rank).rank)),
        (j.iterate shadow target finished left carry x).2 (N rank).rank) := by
  induction left generalizing finished carry x with
  | zero => exact .of_finished (fun _ _ => rfl) fun _ _ => rfl
  | succ left ih =>
    have kept := fits_pass sound shadow target finished fits guess
    simp only [BiCgStab.watch, Work.start_bind]
    refine (held.pass_unison sound shadow target finished carry fits x).bind_eq ?_
    rw [iterate, heads]
    rcases passed : j.pass shadow target finished carry x with ⟨answer | next, y⟩
    · exact .of_finished (fun _ _ => rfl) fun _ _ => rfl
    · rw [passed] at kept
      have later := ih (finished + 1) next (kept.2 next rfl) kept.1
      exact later.bind_eq (.of_finished (fun _ _ => rfl) fun _ _ => rfl)

theorem watchedSolve_unison (sound : j.Sound) (settings : Settings S) {b x : Parts S}
    (right : j.Fits b) (guess : j.Fits x) :
    Unison L N (fun rank => (BiCgStab.watchedSolve (j.system (N rank).rank) (N rank) settings
      (b (N rank).rank)).start (x (N rank).rank)) fun v => ∀ rank ∈ L, v rank =
        (.ok ((j.solve settings b x).1, (j.solveHeads settings b x).map (·.at (N rank).rank)),
          (j.solve settings b x).2 (N rank).rank) := by
  have kept := fits_opening settings right guess
  simp only [BiCgStab.watchedSolve, Work.start_bind]
  refine (held.opening_unison sound settings right guess).bind_eq ?_
  rw [solve, solveHeads]
  rcases opened : j.opening settings b x with ⟨answer | ⟨target, first⟩, y⟩
  · exact .of_finished (fun _ _ => rfl) fun _ _ => rfl
  · rw [opened] at kept
    exact held.watch_unison sound first.residual target _ 0 first (kept.2 target first rfl) kept.1

end HeldBy
end Joint
end DeviceTeams
