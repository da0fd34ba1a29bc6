import DeviceTeams.Proofs.Solves

/-!
# Calls one after the other

The ranks of an instance set matrices and solve, in any order and however the calls end. After each
call they hold the matrix that was last taken, or none, and can make the next one.
-/
namespace DeviceTeams

variable {S α β : Type} {A : Finset Nat} {nodes : List Nat} {h : Nat → Hierarchy}
  {a : Nat → Attached S}

/-! ## Work with one value -/

/-- The ranks come through some work with one value, and with states as the condition says. -/
def Concurs (A : Finset Nat) (work : Nat → Attached.Step S α) (a : Nat → Attached S)
    (post : α → (Nat → Attached S) → Prop) : Prop :=
  Completes A (fun rank => (work rank).start (a rank)) fun w =>
    ∃ (value : α) (a' : Nat → Attached S), (∀ rank ∈ A, w rank = (.ok value, a' rank)) ∧
      post value a'

variable {work : Nat → Attached.Step S α}

namespace Concurs

variable {post : α → (Nat → Attached S) → Prop}

theorem pure {value : α} (holds : post value a) : Concurs A (fun _ => Pure.pure value) a post :=
  Completes.of_finished (v := fun rank => (.ok value, a rank)) (fun _ _ => rfl)
    ⟨value, a, fun _ _ => rfl, holds⟩

/-- What comes behind work with one value. -/
theorem followed {f : Nat → α → Attached.Step S β} {post' : (Nat → Attempt β × Attached S) → Prop}
    (first : Concurs A work a post)
    (next : ∀ value a', post value a' →
      Completes A (fun rank => (f rank value).start (a' rank)) post') :
    Completes A (fun rank => (work rank >>= f rank).start (a rank)) post' := by
  intro rounds
  obtain ⟨rounds', w, reach, value, a', same, holds⟩ := first rounds
  exact reach.followed same (next value a' holds)

/-- What every rank's state always has at the end of the work. -/
theorem always (first : Concurs A work a post) {own : Nat → Attached S → Prop}
    (always : ∀ rank ∈ A, ((work rank).start (a rank)).Always fun ended => own rank ended.2) :
    Concurs A work a fun value a' => post value a' ∧ ∀ rank ∈ A, own rank (a' rank) := by
  refine (Completes.always first always).mono fun w ⟨⟨value, a', same, holds⟩, owns⟩ =>
    ⟨value, a', same, holds, fun rank inside => ?_⟩
  have ended := owns rank inside
  rwa [same rank inside] at ended

theorem bind {f : Nat → α → Attached.Step S β} {post' : β → (Nat → Attached S) → Prop}
    (first : Concurs A work a post)
    (next : ∀ value a', post value a' → Concurs A (fun rank => f rank value) a' post') :
    Concurs A (fun rank => work rank >>= f rank) a post' :=
  first.followed next

end Concurs

theorem Attached.attempted_of_answered {ended : Attempt α × Attached S}
    (answered : ended.1 ≠ .error .aborted) :
    Attached.attempted ended = (.ok ended.1, ended.2) := by
  rcases ended with ⟨(cause | _) | value, b⟩
  · rfl
  · exact absurd rfl answered
  · rfl

theorem Attempt.toBool_map (f : α → β) (x : Attempt α) : (f <$> x).toBool = x.toBool := by
  cases x <;> rfl

theorem Attempt.map_ne_error {f : α → β} {x : Attempt α} {failure : Failure}
    (other : x ≠ .error failure) :
    f <$> x ≠ .error failure := by
  cases x with
  | ok value => intro wrong; cases wrong
  | error cause => exact fun same => other (congrArg Except.error (Except.error.inj same))

/-- Work that is refused on a rank does not hold it up in an attempt. -/
theorem attempt_completes {work : Nat → Attached.Step S α}
    {post : (Nat → Attempt α × Attached S) → Prop}
    (completes : Completes A (fun rank => (work rank).start (a rank)) post)
    (answered : ∀ v, post v → ∀ rank ∈ A, (v rank).1 ≠ .error .aborted) :
    Completes A (fun rank => (Attached.attempt (work rank)).start (a rank)) fun w =>
      ∃ v, post v ∧ ∀ rank ∈ A, w rank = (.ok (v rank).1, (v rank).2) := by
  refine (completes.map (f := fun _ => Attached.attempted) fun v holds =>
    ⟨v, holds, fun rank inside => ?_⟩).congr
    fun rank _ => Attached.start_attempt ..
  exact Attached.attempted_of_answered (answered v holds rank inside)

variable [Scalar S] {config : Attempt (Settings S)}

/-! ## Calls -/

inductive Turn (S : Type) where
  | set (matrix : Nat → RowShare S)
  | solve (x b : Nat → List S)

namespace Turn

def use : Turn S → Nat → Use S
  | set m, rank => .set (m rank)
  | solve x b, rank => .solve (x rank) (b rank)

/-- The rank makes its part of a call, and goes on if it is refused. -/
def play (turn : Turn S) (rank : Nat) : Attached.Step S Bool :=
  Except.toBool <$> Attached.attempt (turn.use rank).work

def held (last : Option (Nat → RowShare S)) : Turn S → Bool → Option (Nat → RowShare S)
  | set m, true => some m
  | _, _ => last

def lastHeld (last : Option (Nat → RowShare S)) :
    List (Turn S) → List Bool → Option (Nat → RowShare S)
  | turn :: turns, accepted :: answers => lastHeld (turn.held last accepted) turns answers
  | _, _ => last

end Turn

/-- Checked shares of a matrix, all of them in one memory, whose ranks agree on its size. -/
structure Consistent (nodes : List Nat) (m : Nat → RowShare S) : Prop where
  checked : ∀ rank < nodes.length, (m rank).validate = .ok ()
  sizes : ∃ globalRows globalCols, globalRows < 2 ^ 63 ∧ globalCols < 2 ^ 63 ∧
    ∀ rank < nodes.length, (m rank).globalRows = globalRows ∧ (m rank).globalCols = globalCols
  memory : ((List.range nodes.length).map fun rank => (m rank).bytes).sum < 2 ^ 64

structure Fitting (nodes : List Nat) (h : Nat → Hierarchy) (m : Nat → RowShare S) : Prop where
  consistent : Consistent nodes m
  square : ∃ size < 2 ^ 63, (∀ rank < nodes.length, (m rank).globalRows = size ∧
    (m rank).globalCols = size) ∧
    Tiles h (List.range nodes.length) (fun rank => (m rank).rowStart)
    (fun rank => (m rank).localRows) size

/-- What the ranks of an instance with these groups hold of the matrices that they have set. -/
inductive Holds (nodes : List Nat) (config : Attempt (Settings S)) (h : Nat → Hierarchy)
    (a : Nat → Attached S) :
    Option (Nat → RowShare S) → Prop
  | nothing : (∀ rank < nodes.length, ∃ lead, (a rank).solver.state = some ⟨h rank, lead, none⟩) →
      Holds nodes config h a none
  | matrix {m : Nat → RowShare S} {h' : Nat → Hierarchy} {new : Nat → Group}
      {rows : Nat → List (List (Nat × S))} {handles : Nat → LeadHandles S} :
      Fitting nodes h m → (∀ rank < nodes.length, h' rank = h rank) →
      Solvable nodes m h' new rows (settingsOf config) handles a →
      Holds nodes config h a (some m)

namespace Holds

variable {last : Option (Nat → RowShare S)} {a' : Nat → Attached S}

theorem groups (holds : Holds nodes config h a last) {rank : Nat} (below : rank < nodes.length) :
    (a rank).solver.hierarchy = some (h rank) := by
  rw [TeamSolver.hierarchy]
  cases holds with
  | nothing states =>
    obtain ⟨lead, state⟩ := states rank below
    rw [state, Option.map_some]
  | matrix _ same solvable =>
    rw [(solvable.serves rank (Finset.mem_range.mpr below)).state, Option.map_some, same rank below]

theorem congr (holds : Holds nodes config h a last)
    (same : ∀ rank < nodes.length, a' rank = a rank) :
    Holds nodes config h a' last := by
  cases holds with
  | nothing states =>
    exact .nothing fun rank below => by rw [same rank below]; exact states rank below
  | @matrix m h' new rows handles fitting groups solvable =>
    have again : Solvable nodes m h' new rows (settingsOf config) handles a' := by
      refine ⟨solvable.holding, fun rank inside => ?_, fun rank below => ?_⟩
      · rw [same rank (Finset.mem_range.mp inside)]
        exact solvable.serves rank inside
      · rw [same rank below]
        exact solvable.counted rank below
    exact .matrix fitting groups again

end Holds

/-- Where no matrix has been set a solve is refused. -/
theorem Attached.start_solve_none {b : Attached S} {hierarchy : Hierarchy}
    {lead : Option (LeadHandles S)} (state : b.solver.state = some ⟨hierarchy, lead, none⟩)
    (x right : List S) :
    (Attached.solve x right).start b = .finished (.error TopologyError.noMatrix, b) := by
  rw [solve, start_initialized_bind state]
  rfl

/-- How a call ends on the ranks: they are all told the same, no counter goes up by more than one,
and they hold what the call leaves. -/
structure Answers (nodes : List Nat) (config : Attempt (Settings S)) (h : Nat → Hierarchy)
    (a : Nat → Attached S) (accepted : Bool) (last : Option (Nat → RowShare S))
    (v : Nat → Attempt α × Attached S) : Prop where
  told : ∀ rank < nodes.length, (v rank).1.toBool = accepted ∧ (v rank).1 ≠ .error .aborted
  uploads : ∀ rank < nodes.length,
    (v rank).2.solver.stats.matrixUploads ≤ (a rank).solver.stats.matrixUploads + 1
  solves : ∀ rank < nodes.length, (v rank).2.solver.stats.solves ≤ (a rank).solver.stats.solves + 1
  holds : Holds nodes config h (fun rank => (v rank).2) last

/-- A call that is refused for a cause leaves everything as it was. -/
theorem Answers.of_refused {last : Option (Nat → RowShare S)} {v : Nat → Attempt α × Attached S}
    (holds : Holds nodes config h a last)
    (refused : ∀ rank < nodes.length, ∃ cause, v rank = (.error (.refused cause), a rank)) :
    Answers nodes config h a false last v := by
  have left : ∀ rank < nodes.length, (v rank).2 = a rank := by
    intro rank below
    obtain ⟨cause, same⟩ := refused rank below
    rw [same]
  constructor
  · intro rank below
    obtain ⟨cause, same⟩ := refused rank below
    rw [same]
    exact ⟨rfl, fun wrong => by cases wrong⟩
  · intro rank below
    rw [left rank below]
    omega
  · intro rank below
    rw [left rank below]
    omega
  · exact holds.congr left

theorem Stats.solved_matrixUploads (stats : Stats) (status : Status) :
    (stats.solved status).2.matrixUploads = stats.matrixUploads := by
  rw [solved]
  split
  · split
    · rfl
    · split <;> rfl
  · rfl

namespace Holds

variable {last : Option (Nat → RowShare S)}

/-- All ranks take a matrix if it fits, and otherwise all keep what they have. -/
theorem set (holds : Holds nodes config h a last) (serving : Serving nodes (fun _ => config) a)
    {m : Nat → RowShare S} (consistent : Consistent nodes m)
    (few : ∀ rank < nodes.length, (a rank).solver.stats.matrixUploads < 2 ^ 32 - 1) :
    Completes (Finset.range nodes.length) (fun rank => (Attached.setMatrix (m rank)).start (a rank))
    fun v =>
      ∃ accepted, (accepted = true ↔ Fitting nodes h m) ∧
        Answers nodes config h a accepted ((Turn.set m).held last accepted) v := by
  have groups := fun rank (below : rank < nodes.length) => holds.groups below
  by_cases fitting : Fitting nodes h m
  · obtain ⟨size, small, sizes, tiles⟩ := fitting.square
    intro rounds
    obtain ⟨rounds', v, reach, settles⟩ :=
      setMatrix_settles serving.was_used groups consistent.checked sizes small
      consistent.memory few rounds
    have accepted := fun rank below => (settles rank below).accepts ⟨rfl, tiles⟩
    obtain ⟨h', new, rows, handles, solvable⟩ := solvable_of_taken serving reach
      (fun rank below => (accepted rank below).1)
      (fun rank below => RowShare.validate_eq_ok_iff.mp (consistent.checked rank below))
      consistent.memory
    have same : ∀ rank < nodes.length, h' rank = h rank := by
      intro rank below
      have own := (accepted rank below).2.1.trans (groups rank below)
      rw [(solvable.serves rank (Finset.mem_range.mpr below)).hierarchy_eq,
        Option.some.injEq] at own
      exact own
    refine ⟨rounds', v, reach, true, iff_of_true rfl fitting, fun rank below => ?_,
      fun rank below => ?_,
      fun rank below => ?_, .matrix fitting same solvable⟩
    · rw [(accepted rank below).1]
      exact ⟨rfl, fun wrong => by cases wrong⟩
    · exact Nat.le_of_eq (accepted rank below).2.2.1
    · exact Nat.le_succ_of_le (Nat.le_of_eq (accepted rank below).2.2.2)
  · obtain ⟨globalRows, globalCols, small, small', sizes⟩ := consistent.sizes
    refine (setMatrix_settles serving.was_used groups consistent.checked sizes small'
      consistent.memory few).mono
      fun v settles =>
        ⟨false, iff_of_false Bool.false_ne_true fitting, .of_refused holds fun rank below =>
        (settles rank below).refuses ?_⟩
    rintro ⟨square, tiles⟩
    exact fitting ⟨consistent, globalRows, small, fun rank below =>
      ⟨(sizes rank below).1, (sizes rank below).2.trans square.symm⟩, tiles⟩

/-- A solve changes nothing of what the ranks hold. -/
theorem solve (holds : Holds nodes config h a last)
    (few : ∀ rank < nodes.length, (a rank).solver.stats.solves < 2 ^ 32 - 1) (x b : Nat → List S) :
    Completes (Finset.range nodes.length)
    (fun rank => (Attached.solve (x rank) (b rank)).start (a rank)) fun v =>
      ∃ accepted, Answers nodes config h a accepted last v := by
  cases holds with
  | nothing states =>
    refine .of_finished (v := fun rank => (.error TopologyError.noMatrix, a rank))
      (fun rank inside => ?_) ⟨false, .of_refused (.nothing states) fun rank _ => ⟨_, rfl⟩⟩
    obtain ⟨lead, state⟩ := states rank (Finset.mem_range.mp inside)
    exact Attached.start_solve_none state _ _
  | @matrix m h' new rows handles fitting same solvable =>
    by_cases fits : misfits (fun rank => (m rank).localRows) x b (List.range nodes.length) = 0
    · rw [misfits_eq_zero_iff] at fits
      rcases solved : (jointOf h' rows nodes.length).solve (settingsOf config)
        (partsOf h' nodes.length b) (partsOf h' nodes.length x) with ⟨⟨status, iterations⟩, y⟩
      intro rounds
      obtain ⟨rounds', v, reach, values⟩ :=
        solvable.solve_completes
          (fun rank below => fits rank (List.mem_range.mpr below)) solved rounds
      obtain ⟨handles', again⟩ := solvable.solve reach
      have counts :=
        fun rank below => Stats.solved_of_few (few rank below) (solvable.counted rank below) status
      refine ⟨rounds', v, reach, true, fun rank below => ?_, fun rank below => ?_,
        fun rank below => ?_, .matrix fitting same again⟩
      · rw [values rank (Finset.mem_range.mpr below), Attached.resolved, (counts rank below).1]
        exact ⟨rfl, fun wrong => by cases wrong⟩
      · rw [values rank (Finset.mem_range.mpr below)]
        exact Nat.le_succ_of_le (Nat.le_of_eq (Stats.solved_matrixUploads _ _))
      · rw [values rank (Finset.mem_range.mpr below)]
        exact Nat.le_of_eq (counts rank below).2.1
    · refine (solvable.solve_refused (Nat.pos_of_ne_zero fits)).mono fun v values =>
        ⟨false, .of_refused (.matrix fitting same solvable)
        fun rank below => ⟨_, values rank (Finset.mem_range.mpr below)⟩⟩

end Holds

/-! ## Histories -/

structure Standing (nodes : List Nat) (config : Attempt (Settings S))
    (h : Nat → Hierarchy) (played : Nat) (last : Option (Nat → RowShare S)) (a : Nat → Attached S) :
    Prop where
  serving : Serving nodes (fun _ => config) a
  uploads : ∀ rank < nodes.length, (a rank).solver.stats.matrixUploads ≤ played
  solves : ∀ rank < nodes.length, (a rank).solver.stats.solves ≤ played
  holds : Holds nodes config h a last

namespace Standing

variable {played : Nat} {last : Option (Nat → RowShare S)}

/-- All ranks make a call, and are told the same. -/
theorem use (standing : Standing nodes config h played last a)
    (few : played < 2 ^ 32 - 1) (turn : Turn S)
    (consistent : ∀ m, turn = .set m → Consistent nodes m) :
    Completes (Finset.range nodes.length)
    (fun rank => ((turn.use rank).work).start (a rank)) fun v =>
      ∃ accepted, Answers nodes config h a accepted (turn.held last accepted) v := by
  cases turn with
  | set m =>
    exact (standing.holds.set standing.serving (consistent m rfl)
      fun rank below => Nat.lt_of_le_of_lt (standing.uploads rank below) few).mono
      fun v ⟨accepted, _, answers⟩ =>
        ⟨accepted, answers⟩
  | solve x b =>
    have completes := standing.holds.solve
      (fun rank below => Nat.lt_of_le_of_lt (standing.solves rank below) few) x b
    refine (completes.map (f := fun _ ended => ((fun _ => ()) <$> ended.1, ended.2))
      fun v answers => ?_).congr
      fun rank _ => Work.start_map ..
    obtain ⟨accepted, told, uploads, solves, holds⟩ := answers
    refine ⟨accepted, fun rank below => ⟨?_, ?_⟩, uploads, solves, holds⟩
    · exact (Attempt.toBool_map _ _).trans (told rank below).1
    · exact Attempt.map_ne_error (told rank below).2

/-- After a call the ranks can make the next one. -/
theorem play (standing : Standing nodes config h played last a)
    (few : played < 2 ^ 32 - 1) (turn : Turn S)
    (consistent : ∀ m, turn = .set m → Consistent nodes m) :
    Concurs (Finset.range nodes.length) turn.play a fun accepted a' =>
      Standing nodes config h (played + 1) (turn.held last accepted) a' := by
  have called : Completes (Finset.range nodes.length)
      (fun rank => ((turn.use rank).work).start (a rank)) fun v =>
      ∃ accepted, (∀ rank ∈ Finset.range nodes.length, (v rank).1.toBool = accepted ∧
        (v rank).1 ≠ .error .aborted) ∧
        Standing nodes config h (played + 1) (turn.held last accepted) fun rank => (v rank).2 := by
    intro rounds
    obtain ⟨rounds', v, reach, accepted, answers⟩ := standing.use few turn consistent rounds
    refine ⟨rounds', v, reach, accepted, fun rank inside =>
      answers.told rank (Finset.mem_range.mp inside),
      standing.serving.used reach, fun rank below => ?_, fun rank below => ?_, answers.holds⟩
    · exact Nat.le_trans (answers.uploads rank below)
        (Nat.succ_le_succ (standing.uploads rank below))
    · exact Nat.le_trans (answers.solves rank below) (Nat.succ_le_succ (standing.solves rank below))
  have attempted := attempt_completes called fun v ⟨_, told, _⟩ rank inside => (told rank inside).2
  refine (attempted.map (f := fun _ ended => (Except.toBool <$> ended.1, ended.2))
    fun w tried => ?_).congr
    fun rank _ => Work.start_map ..
  obtain ⟨v, ⟨accepted, told, standing'⟩, same⟩ := tried
  refine ⟨accepted, fun rank => (v rank).2, fun rank inside => ?_, standing'⟩
  show (Except.toBool <$> (w rank).1, (w rank).2) = _
  rw [same rank inside, ← (told rank inside).1]
  rfl

/-- The ranks come through any number of calls that their counters have room for. -/
theorem run (standing : Standing nodes config h played last a) (turns : List (Turn S))
    (few : played + turns.length ≤ 2 ^ 32 - 1)
    (consistent : ∀ m, Turn.set m ∈ turns → Consistent nodes m) :
    Concurs (Finset.range nodes.length) (fun rank => turns.mapM (·.play rank)) a fun answers a' =>
      answers.length = turns.length ∧
        Standing nodes config h (played + turns.length) (Turn.lastHeld last turns answers) a' := by
  induction turns generalizing played last a with
  | nil => exact .pure ⟨rfl, standing⟩
  | cons turn turns ih =>
    rw [List.length_cons] at few
    have first := standing.play (by omega) turn fun m same =>
      consistent m (by rw [same]; exact List.mem_cons_self)
    have both : Concurs (Finset.range nodes.length)
        (fun rank => turn.play rank >>= fun accepted => turns.mapM (·.play rank) >>= fun answers =>
          pure (accepted :: answers)) a fun answers a' => answers.length = turns.length + 1 ∧
        Standing nodes config h (played + (turns.length + 1))
        (Turn.lastHeld last (turn :: turns) answers) a' := by
      refine first.bind fun accepted a' standing' => (ih standing' (by omega)
        fun m among => consistent m (List.mem_cons_of_mem _ among)).bind
        fun answers a'' ⟨length, standing''⟩ => .pure ?_
      rw [Nat.add_assoc, Nat.add_comm 1] at standing''
      exact ⟨congrArg (· + 1) length, standing''⟩
    exact Completes.congr both fun rank _ => congrArg (Work.start · (a rank)) List.mapM_cons

end Standing
end DeviceTeams
