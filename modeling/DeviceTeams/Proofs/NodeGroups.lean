import DeviceTeams.Proofs.Divisions
import DeviceTeams.Proofs.Hierarchies

/-!
# Groups by node

The ranks of a group that are placed on one node find themselves in one group. Nodes are told apart
by colors, and all nodes from the last color on have that color: ranks of two such nodes are put
into one group, whose members then report different nodes.
-/
namespace DeviceTeams

variable {S : Type} {A : Finset Nat} {node : Nat → Nat} {G H : Nat → Group}

/-- The groups `H` are the parts of the groups `G` in which all ranks are alike, in the old
order. -/
structure Grouped (node : Nat → Nat) (A : Finset Nat) (G H : Nat → Group)
    (alike : Nat → Nat → Prop) : Prop where
  together : Together node A H
  meets_iff : ∀ a ∈ A, ∀ b ∈ A, ((H a).hub = (H b).hub ↔ (G a).hub = (G b).hub ∧ alike a b)
  ordered : ∀ a ∈ A, ∀ b ∈ A, (H a).hub = (H b).hub →
    ((H a).rank < (H b).rank ↔ (G a).rank < (G b).rank)

/-- The groups `H` have the ranks of one node each, and their members know it by one name. -/
structure ByNode (node : Nat → Nat) (A : Finset Nat) (G H : Nat → Group) : Prop where
  grouped : Grouped node A G H fun a b => node a = node b
  one_name : ∀ a ∈ A, ∀ b ∈ A, (H a).hub = (H b).hub → (H a).nodeName = (H b).nodeName

/-- Two ranks are on one node, or both on nodes past which colors do not tell nodes apart. -/
def SameColor (node : Nat → Nat) (a b : Nat) : Prop :=
  node a = node b ∨ (Group.lastColor ≤ node a ∧ Group.lastColor ≤ node b)

theorem machine_eq_iff {a b : Nat} : machine node a = machine node b ↔ SameColor node a b := by
  rw [machine, machine, SameColor]
  omega

/-- No group has ranks of different nodes that the colors do not tell apart. -/
def ToldApart (node : Nat → Nat) (A : Finset Nat) (G : Nat → Group) : Prop :=
  ∀ a ∈ A, ∀ b ∈ A, (G a).hub = (G b).hub → SameColor node a b → node a = node b

/-- Parts by the colors of the nodes. -/
theorem Divides.grouped {key : Nat → Nat}
    (divides : Divides node A G (fun rank => some (machine node rank)) key H)
    (keys : ∀ rank, key rank = (G rank).rank) : Grouped node A G H (SameColor node) := by
  have all : (A.filter fun rank => (some (machine node rank)).isSome) = A :=
    Finset.filter_true_of_mem fun _ _ => rfl
  have meets : ∀ a ∈ A, ∀ b ∈ A,
    ((H a).hub = (H b).hub ↔ SamePart G (fun rank => some (machine node rank)) a b) :=
    fun a insideA b insideB => divides.meets_iff a insideA b insideB rfl rfl
  constructor
  · exact all ▸ divides.together
  · intro a insideA b insideB
    rw [meets a insideA b insideB, SamePart, Option.some.injEq, machine_eq_iff]
  · intro a insideA b insideB same
    rw [divides.ordered a insideA b insideB rfl ((meets a insideA b insideB).mp same), keys, keys]
    omega

theorem Grouped.nodeName_eq {alike : Nat → Nat → Prop}
    (grouped : Grouped node A G H alike) {rank : Nat} (inside : rank ∈ A) :
    (H rank).nodeName = .ok ("node" ++ toString (node rank)) :=
  grouped.together.nodeName_eq inside

/-- Colors give the groups of the nodes exactly where they tell the nodes of every group apart. -/
theorem Grouped.byNode_iff (grouped : Grouped node A G H (SameColor node)) :
    ByNode node A G H ↔ ToldApart node A G := by
  constructor
  · intro exact a insideA b insideB together same
    have meets := (grouped.meets_iff a insideA b insideB).mpr ⟨together, same⟩
    exact ((exact.grouped.meets_iff a insideA b insideB).mp meets).2
  · intro apart
    have meets : ∀ a ∈ A, ∀ b ∈ A, ((H a).hub = (H b).hub ↔ (G a).hub = (G b).hub ∧
        node a = node b) := by
      intro a insideA b insideB
      rw [grouped.meets_iff a insideA b insideB]
      constructor
      · rintro ⟨together, same⟩
        exact ⟨together, apart a insideA b insideB together same⟩
      · rintro ⟨together, same⟩
        exact ⟨together, .inl same⟩
    refine ⟨⟨grouped.together, meets, grouped.ordered⟩, fun a insideA b insideB same => ?_⟩
    rw [grouped.nodeName_eq insideA, grouped.nodeName_eq insideB,
      ((meets a insideA b insideB).mp same).2]

/-- A split by nodes is a split by their colors. -/
theorem Together.splitByNode_grouped (t : Together node A G) :
    Succeeds A (fun rank => ((G rank).splitByNode : Task S Group)) fun w =>
      Grouped node A G w (SameColor node) := by
  refine t.splitByNode_new.mono fun w split => ?_
  obtain ⟨number, rfl⟩ := split
  exact (t.divides _ _ number).grouped fun _ => rfl

/-- When all members split their groups by nodes, two ranks of a group come into one group exactly
if their nodes have one color, in the old order, and every member reports its own node. These are
the groups of the nodes, with one name for all members, if and only if no group has ranks of two
nodes from the last color on. -/
theorem splitByNode_exact_iff {n : Nat} (t : Together node A G)
    (within : A ⊆ Finset.range n) {hubs : Hubs S} {rounds : Rounds}
    (resting : hubs.Resting rounds) : ∃ H : Nat → Group,
      EndsAmong n A hubs (fun rank => ((G rank).splitByNode : Task S Group).run)
      (fun rank => .ok (H rank)) ∧
      Grouped node A G H (SameColor node) ∧
      (∀ rank ∈ A, (H rank).nodeName = .ok ("node" ++ toString (node rank))) ∧
      (ByNode node A G H ↔ ToldApart node A G) := by
  obtain ⟨v, ⟨H, values, grouped⟩, ends⟩ := Completes.endsAmong t.splitByNode_grouped within resting
  have named : ∀ rank ∈ A, (H rank).nodeName = .ok ("node" ++ toString (node rank)) :=
    fun rank inside => grouped.nodeName_eq inside
  exact ⟨H, ends.congr (fun _ _ => rfl) fun rank inside => (values rank inside).symm, grouped,
    named, grouped.byNode_iff⟩

/-- Two ranks on the first node and one on the node with the last color. -/
theorem splitByNode_exact_last :
    Together (fun rank => [0, 4294967295, 0].getD rank 0) (Finset.range 3)
    (Group.world [0, 4294967295, 0]) ∧
    ∃ H : Nat → Group,
      EndsAmong 3 (Finset.range 3) [] (fun rank =>
        ((Group.world [0, 4294967295, 0] rank).splitByNode : Task Float Group).run)
          (fun rank => .ok (H rank)) ∧
      ByNode (fun rank => [0, 4294967295, 0].getD rank 0) (Finset.range 3)
      (Group.world [0, 4294967295, 0]) H := by
  have t := Together.world [0, 4294967295, 0]
  obtain ⟨H, ends, _, _, exact⟩ :=
    splitByNode_exact_iff (S := Float) t (Finset.Subset.refl (Finset.range 3))
    Hubs.resting_nil
  refine ⟨t, H, ends, exact.mpr ?_⟩
  unfold ToldApart SameColor
  decide

/-- Two ranks on neighboring nodes, of which the first has the last color: they share a group and
report different nodes. -/
theorem splitByNode_merged : ∃ H : Nat → Group,
    EndsAmong 2 (Finset.range 2) [] (fun rank =>
      ((Group.world [4294967295, 4294967296] rank).splitByNode : Task Float Group).run)
        (fun rank => .ok (H rank)) ∧
    (H 0).hub = (H 1).hub ∧ (H 0).nodeName = .ok "node4294967295" ∧
    (H 1).nodeName = .ok "node4294967296" ∧
    ¬ ByNode (fun rank => [4294967295, 4294967296].getD rank 0) (Finset.range 2)
      (Group.world [4294967295, 4294967296]) H := by
  have t := Together.world [4294967295, 4294967296]
  have first : 0 ∈ Finset.range 2 := by decide
  have second : 1 ∈ Finset.range 2 := by decide
  obtain ⟨v, ⟨H, values, grouped⟩, ends⟩ := Completes.endsAmong (t.splitByNode_grouped (S := Float))
    (Finset.Subset.refl (Finset.range 2)) Hubs.resting_nil
  have merged : SameColor (fun rank => [4294967295, 4294967296].getD rank 0) 0 1 := by
    unfold SameColor
    decide
  refine ⟨H, ends.congr (fun _ _ => rfl) fun rank inside => (values rank inside).symm,
    (grouped.meets_iff 0 first 1 second).mpr ⟨rfl, merged⟩, grouped.nodeName_eq first,
    grouped.nodeName_eq second, ?_⟩
  intro exact
  have same : 4294967295 = 4294967296 := grouped.byNode_iff.mp exact 0 first 1 second rfl merged
  omega

end DeviceTeams
