import DeviceTeams.Proofs.Keeping
import DeviceTeams.Proofs.Requests
import DeviceTeams.Proofs.RowOrder

/-!
# What has happened to an instance

The ranks of a world initialize an instance on contexts that nobody has used, and then set matrices
and solve. Whatever they set and solve, and however these calls end, their groups still fit
together, and the matrices of the leads have their places in a copy of the group of the leads.
-/
namespace DeviceTeams

variable {S : Type} [Scalar S] {A : Finset Nat} {node : Nat → Nat} {G : Nat → Group}

def Attached.fresh (visible : Nat) : Attached S := ⟨.ofEngine (.seeing visible), .create⟩

inductive Use (S : Type) where
  | set (matrix : RowShare S)
  | solve (x b : List S)

/-- The rank's part in it; what it leaves in the vectors is of no interest here. -/
def Use.work : Use S → Attached.Step S Unit
  | set matrix => Attached.setMatrix matrix
  | solve x b => (fun _ => ()) <$> Attached.solve x b

/-- The states of ranks that have initialized an instance on fresh contexts and have then used it
any number of times, each rank in its own way. -/
inductive Used (nodes : List Nat) : (Nat → Attached S) → Prop
  | initialized {calls : Nat → Call} {visible : Nat → Nat} {rounds rounds' : Rounds}
      {v : Nat → Attempt Unit × Attached S} :
      (∀ rank, (calls rank).group = Group.world nodes rank) →
      Reaches (Finset.range nodes.length) rounds
      (fun rank => ((calls rank).work).start (.fresh (visible rank))) rounds'
        (fun rank => .finished (v rank)) →
      (∀ rank < nodes.length, (v rank).1 = .ok ()) → Used nodes fun rank => (v rank).2
  | used {a : Nat → Attached S} {uses : Nat → Use S} {rounds rounds' : Rounds}
      {v : Nat → Attempt Unit × Attached S} :
      Used nodes a →
      Reaches (Finset.range nodes.length) rounds
      (fun rank => ((uses rank).work).start (a rank)) rounds'
        (fun rank => .finished (v rank)) → Used nodes fun rank => (v rank).2

/-- The same, where it is known what reading the config gives on each rank. -/
inductive Serving (nodes : List Nat) (config : Nat → Attempt (Settings S)) :
    (Nat → Attached S) → Prop
  | initialized {calls : Nat → Call} {visible : Nat → Nat} {rounds rounds' : Rounds}
      {v : Nat → Attempt Unit × Attached S} :
      (∀ rank, (calls rank).group = Group.world nodes rank) →
      (∀ rank, (calls rank).settings = config rank) →
      Reaches (Finset.range nodes.length) rounds
      (fun rank => ((calls rank).work).start (.fresh (visible rank))) rounds'
        (fun rank => .finished (v rank)) →
      (∀ rank < nodes.length, (v rank).1 = .ok ()) → Serving nodes config fun rank => (v rank).2
  | used {a : Nat → Attached S} {uses : Nat → Use S} {rounds rounds' : Rounds}
      {v : Nat → Attempt Unit × Attached S} :
      Serving nodes config a →
      Reaches (Finset.range nodes.length) rounds
      (fun rank => ((uses rank).work).start (a rank)) rounds'
        (fun rank => .finished (v rank)) → Serving nodes config fun rank => (v rank).2

theorem Used.serving {nodes : List Nat} {a : Nat → Attached S} (used : Used nodes a) :
    ∃ config, Serving nodes config a := by
  induction used with
  | initialized world reach succeeded =>
    exact ⟨_, .initialized world (fun _ => rfl) reach succeeded⟩
  | used _ reach ih =>
    obtain ⟨config, serving⟩ := ih
    exact ⟨config, serving.used reach⟩

theorem Serving.was_used {nodes : List Nat} {config : Nat → Attempt (Settings S)}
    {a : Nat → Attached S} (serving : Serving nodes config a) : Used nodes a := by
  induction serving with
  | initialized world _ reach succeeded => exact .initialized world reach succeeded
  | used _ reach ih => exact ih.used reach

theorem Use.stays (use : Use S) {Q : Stats → Prop} (lasting : Stats.Lasting Q) {context : Context}
    {hierarchy : Hierarchy} (origin : Option (Origin S)) :
    use.work.Keeps (Attached.Stays Q context hierarchy origin) := by
  cases use with
  | set matrix => exact Attached.keeps_setMatrix lasting matrix
  | solve x b => exact (Attached.keeps_solve lasting x b).map _

theorem Use.keeps (use : Use S) {context : Context} {hierarchy : Hierarchy} {leads : Option Group} :
    use.work.Keeps (Attached.Kept context hierarchy leads) :=
  Attached.keeps_kept (use.stays Stats.lasting_true)

omit [Scalar S] in
theorem sound_fresh (visible : Nat → Nat) :
    Sound A fun rank => (Attached.fresh (S := S) (visible rank)).context :=
  fun _ _ => rfl

/-- What ranks have that initialized an instance on fresh contexts: the leads hold new resources. -/
theorem Established.fresh {calls : Nat → Call} {visible : Nat → Nat} {h : Nat → Hierarchy}
    {settings : Nat → Settings S} {new : Nat → Group} {v : Nat → Attempt Unit × Attached S}
    (established : Established node A calls (fun rank => .fresh (visible rank)) h settings new v) :
    Together node (A.filter fun rank => (h rank).isLead) new ∧
      (∀ rank ∈ A, (h rank).isLead → (new rank).hub.ranks = (h rank).leads.hub.ranks) ∧
      ∀ rank ∈ A, (v rank).1 = .ok () ∧ (v rank).2.solver.stats.matrixUploads = 0 ∧
        (v rank).2.solver.state = some ⟨h rank,
          if (h rank).isLead then some (.fresh (settings rank) ⟨new rank⟩) else none, none⟩ := by
  have ranked := established.ranked
  have creates : ∀ rank ∈ A.filter fun rank => (h rank).isLead,
      admission (registeredContexts fun rank => Attached.fresh (S := S) (visible rank))
      (h rank).leads.hub.ranks = .create := fun rank member =>
    (admission_eq_create_iff (List.ne_nil_of_mem (ranked.leads.mem member))).mpr fun _ _ => rfl
  refine ⟨?_, fun rank inside lead => ?_, fun rank inside => ?_⟩
  · have together := established.copied.together
    rwa [Finset.filter_true_of_mem creates] at together
  · have member : rank ∈ A.filter fun rank => (h rank).isLead :=
      Finset.mem_filter.mpr ⟨inside, lead⟩
    exact established.copied.ranks rank member (creates rank member)
  · rw [established.left rank inside, opened]
    by_cases lead : (h rank).isLead
    · have member : rank ∈ A.filter fun rank => (h rank).isLead :=
        Finset.mem_filter.mpr ⟨inside, lead⟩
      rw [if_pos lead, if_pos lead, Context.admitted, creates rank member]
      exact ⟨rfl, rfl, rfl⟩
    · rw [if_neg lead, if_neg lead]
      exact ⟨rfl, rfl, rfl⟩

theorem Established.counters {calls : Nat → Call} {visible : Nat → Nat} {h : Nat → Hierarchy}
    {settings : Nat → Settings S} {new : Nat → Group} {v : Nat → Attempt Unit × Attached S}
    (established : Established node A calls (fun rank => .fresh (visible rank)) h settings new v)
    {rank : Nat} (inside : rank ∈ A) :
    (v rank).2.solver.stats.solves = 0 ∧ (v rank).2.solver.stats.failedSolves = 0 := by
  have counted : ∀ ended : Attempt (Option (LeadHandles S)) × Attached S,
      ended.2.solver.stats.solves = 0 ∧ ended.2.solver.stats.failedSolves = 0 →
      (Attached.closed (h rank) ended).2.solver.stats.solves = 0 ∧
        (Attached.closed (h rank) ended).2.solver.stats.failedSolves = 0 := by
    rintro ⟨outcome, b⟩ holds
    cases outcome <;> exact holds
  rw [established.left rank inside, opened]
  refine counted _ ?_
  split
  · generalize Context.admitted _ _ _ _ = answer
    obtain ⟨outcome, context⟩ := answer
    rcases outcome with failure | resources
    · cases failure <;> exact ⟨rfl, rfl⟩
    · exact ⟨rfl, rfl⟩
  · exact ⟨rfl, rfl⟩

/-- The resources' copy of the group of the leads gives every lead its own seat. -/
theorem Ranked.copied_seat {h : Nat → Hierarchy} {new : Nat → Group} (ranked : Ranked node A G h)
    (together : Together node (A.filter fun rank => (h rank).isLead) new)
    (ranks : ∀ rank ∈ A, (h rank).isLead → (new rank).hub.ranks = (h rank).leads.hub.ranks)
    {rank : Nat} (inside : rank ∈ A) (lead : (h rank).isLead) :
    (new rank).rank = (h rank).leads.rank ∧ (new rank).size = (h rank).leads.size := by
  have member : rank ∈ A.filter fun rank => (h rank).isLead := Finset.mem_filter.mpr ⟨inside, lead⟩
  have same := ranks rank inside lead
  refine ⟨?_, ?_⟩
  · rw [← together.idxOf member, same, ranked.leads.idxOf member]
  · rw [Group.size_eq, Group.size_eq, same]

def originOf (h : Nat → Hierarchy) (new : Nat → Group) (settings : Nat → Settings S) (rank : Nat) :
    Option (Origin S) :=
  if (h rank).isLead then some ⟨new rank, new rank, settings rank⟩ else none

/-- The groups of an instance, and what the leads have opened their handles with. -/
theorem Serving.stays {nodes : List Nat} {config : Nat → Attempt (Settings S)}
    {a : Nat → Attached S} (serving : Serving nodes config a) (few : nodes.length < Word.limit)
    {Q : Stats → Prop} (lasting : Stats.Lasting Q)
    (first : ∀ stats, stats.solves = 0 ∧ stats.failedSolves = 0 → Q stats) :
    ∃ (h : Nat → Hierarchy) (new : Nat → Group) (settings : Nat → Settings S),
      Ranked (fun rank => nodes.getD rank 0) (Finset.range nodes.length) (Group.world nodes) h ∧
      Together (fun rank => nodes.getD rank 0)
      ((Finset.range nodes.length).filter fun rank => (h rank).isLead) new ∧
      (∀ rank ∈ Finset.range nodes.length, (h rank).isLead →
        (new rank).hub.ranks = (h rank).leads.hub.ranks ∧ config rank = .ok (settings rank)) ∧
      ∀ rank ∈ Finset.range nodes.length,
        (a rank).Stays Q (a rank).context (h rank) (originOf h new settings rank) := by
  induction serving with
  | @initialized calls visible rounds rounds' v world known reach succeeded =>
    have groups : (fun rank => (calls rank).group) = Group.world nodes := funext world
    have t : Together (fun rank => nodes.getD rank 0) (Finset.range nodes.length) fun rank =>
      (calls rank).group :=
      groups ▸ Together.world nodes
    obtain ⟨h, settings, new, established, _⟩ := established_of_ends t (sound_fresh visible)
      (fun rank _ => by
        rw [world rank]
        simpa [Group.world, Hub.ranks] using few)
      reach fun rank inside => succeeded rank (Finset.mem_range.mp inside)
    obtain ⟨together, ranks, states⟩ := established.fresh
    refine ⟨h, new, settings, groups ▸ established.ranked, together, fun rank inside lead => ?_,
      fun rank inside => ?_⟩
    · exact ⟨ranks rank inside lead, (known rank).symm.trans (established.loaded rank inside lead)⟩
    · refine ⟨rfl, first _ (established.counters inside), _, (states rank inside).2.2, rfl, ?_⟩
      rw [originOf]
      by_cases lead : (h rank).isLead
      · simp only [if_pos lead]
        rfl
      · simp only [if_neg lead]
        rfl
  | used _ reach ih =>
    obtain ⟨h, new, settings, ranked, together, opened, stays⟩ := ih
    refine ⟨h, new, settings, ranked, together, opened, fun rank inside => ?_⟩
    obtain ⟨_, here⟩ := reach.always inside ((Use.stays _ lasting _) _ (stays rank inside))
    exact ⟨rfl, here⟩

/-- The groups of an instance, and on leads the place of the matrix among the leads. -/
theorem Used.kept {nodes : List Nat} {a : Nat → Attached S} (used : Used nodes a)
    (few : nodes.length < Word.limit) :
    ∃ (h : Nat → Hierarchy) (new : Nat → Group),
      Ranked (fun rank => nodes.getD rank 0) (Finset.range nodes.length) (Group.world nodes) h ∧
      Together (fun rank => nodes.getD rank 0)
      ((Finset.range nodes.length).filter fun rank => (h rank).isLead) new ∧
      (∀ rank < nodes.length, (h rank).isLead → (new rank).hub.ranks = (h rank).leads.hub.ranks) ∧
      ∀ rank < nodes.length, (a rank).Kept (a rank).context (h rank)
        (if (h rank).isLead then some (new rank) else none) := by
  obtain ⟨config, serving⟩ := used.serving
  obtain ⟨h, new, settings, ranked, together, opened, stays⟩ :=
    serving.stays few Stats.lasting_true fun _ _ => trivial
  refine ⟨h, new, ranked, together, fun rank below lead =>
    (opened rank (Finset.mem_range.mpr below) lead).1, fun rank below => ?_⟩
  obtain ⟨same, _, inst, state, groups, origin⟩ := stays rank (Finset.mem_range.mpr below)
  have matrix := congrArg (Option.map Origin.matrix) origin
  rw [Option.map_map, originOf] at matrix
  refine ⟨same, inst, state, groups, matrix.trans ?_⟩
  split <;> rfl

/-- One feasible call opens an instance on all ranks of a world. -/
theorem Call.Feasible.used (nodes : List Nat) (call : Call) {mode : Mode} {settings : Settings S}
    (visible : Nat → Nat) (word : nodes.length + 1 < Word.limit)
    (alike : ∀ rank < nodes.length, ∀ other < nodes.length,
      machine (nodes.getD · 0) other = machine (nodes.getD · 0) rank → visible other = visible rank)
    (feasible : ∀ rank < nodes.length, call.Feasible (visible rank) nodes.length mode settings) :
    ∃ (h : Nat → Hierarchy) (a : Nat → Attached S), Used nodes a ∧ ∀ rank < nodes.length,
      (a rank).solver.hierarchy = some (h rank) ∧ (a rank).solver.stats.matrixUploads = 0 := by
  have all : ∀ rank, (Group.world nodes rank).hub.ranks = List.range nodes.length := fun _ => rfl
  obtain ⟨rounds', v, reach, h, new, established⟩ := Call.Feasible.completes (S := S) call
    (a := fun rank => .fresh (visible rank)) (Together.world nodes) (sound_fresh visible)
    (fun rank _ => by rw [all, List.length_range]; exact word) (fun _ _ => rfl)
    (fun rank inside other inside' =>
      alike rank (Finset.mem_range.mp inside) other (Finset.mem_range.mp inside'))
    (fun rank inside => by
      rw [all, List.length_range]; exact feasible rank (Finset.mem_range.mp inside)) fun _ => 0
  obtain ⟨_, _, states⟩ := established.fresh
  refine ⟨h, fun rank => (v rank).2, .initialized (fun _ => rfl) reach fun rank below => ?_,
    fun rank below => ⟨?_, ?_⟩⟩
  · exact (states rank (Finset.mem_range.mpr below)).1
  · rw [TeamSolver.hierarchy, (states rank (Finset.mem_range.mpr below)).2.2, Option.map_some]
  · exact (states rank (Finset.mem_range.mpr below)).2.1

end DeviceTeams
