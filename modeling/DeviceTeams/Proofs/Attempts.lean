import DeviceTeams.Word
import Mathlib.Algebra.GroupWithZero.Nat
import Mathlib.Algebra.Group.Int.Defs
import Mathlib.Data.List.Forall2

/-!
# Outcomes of operations

When a sequence of checks succeeds and when it does not: a sequence succeeds if each of its parts
does, a loop if every round of it does, and arithmetic on words if its result is one. A check
accepts what it is for, and refuses all else unless it aborts.
-/
namespace DeviceTeams

namespace Attempt

variable {α β : Type}

@[simp] theorem pure_eq (value : α) : (pure value : Attempt α) = .ok value := rfl

@[simp] theorem throw_eq (failure : Failure) : (throw failure : Attempt α) = .error failure := rfl

@[simp] theorem ok_bind (value : α) (f : α → Attempt β) :
    (Except.ok value : Attempt α) >>= f = f value := rfl

@[simp] theorem error_bind (failure : Failure) (f : α → Attempt β) :
    (Except.error failure : Attempt α) >>= f = .error failure := rfl

@[simp] theorem ofOption_some (value : α) : ofOption (some value) = .ok value := rfl

@[simp] theorem ofOption_none : (ofOption none : Attempt α) = .error .aborted := rfl

theorem insist_of {condition : Bool} (h : condition = true) : insist condition = .ok () := if_pos h

theorem insist_of_not {condition : Bool} (h : condition = false) :
    insist condition = .error .aborted := by
  rw [h]
  rfl

theorem bind_eq_ok_iff {x : Attempt α} {f : α → Attempt β} {b : β} :
    x >>= f = .ok b ↔ ∃ a, x = .ok a ∧ f a = .ok b := by
  cases x <;> simp

theorem then_ok_eq_ok_iff {x : Attempt Unit} {b : β} :
    (x >>= fun _ => .ok b) = .ok b ↔ x = .ok () := by
  cases x <;> simp

theorem then_ok_eq_error_iff {x : Attempt Unit} {b : β} {failure : Failure} :
    (x >>= fun _ => .ok b) = .error failure ↔ x = .error failure := by
  cases x <;> simp

theorem ite_error_eq_ok_iff {condition : Prop} [Decidable condition] {failure : Failure}
    {x : Attempt α} {b : α} :
    (if condition then x else .error failure) = .ok b ↔ condition ∧ x = .ok b := by
  by_cases holds : condition <;> simp [holds]

theorem error_ite_eq_ok_iff {condition : Prop} [Decidable condition] {failure : Failure}
    {x : Attempt α} {b : α} :
    (if condition then .error failure else x) = .ok b ↔ ¬ condition ∧ x = .ok b := by
  by_cases holds : condition <;> simp [holds]

/-- A loop that produces a list succeeds if each of its rounds does. -/
theorem mapM_of {items : List α} {f : α → Attempt β} {g : α → β}
    (h : ∀ a ∈ items, f a = .ok (g a)) :
    items.mapM f = .ok (items.map g) := by
  induction items with
  | nil => rfl
  | cons first rest ih =>
    rw [List.mapM_cons, h first List.mem_cons_self, ih fun a member =>
      h a (List.mem_cons_of_mem _ member)]
    rfl

theorem mapM_map_of {γ : Type} {items : List α} {f : β → Attempt γ} {g : α → β} {h : α → γ}
    (each : ∀ a ∈ items, f (g a) = .ok (h a)) : (items.map g).mapM f = .ok (items.map h) := by
  rw [List.mapM_map]
  exact mapM_of each

theorem mapM_eq_ok_iff {items : List α} {f : α → Attempt β} {results : List β} :
    items.mapM f = .ok results ↔ List.Forall₂ (fun a b => f a = .ok b) items results := by
  induction items generalizing results with
  | nil => simp [eq_comm]
  | cons first rest ih =>
    simp only [List.mapM_cons, bind_eq_ok_iff, ih, List.forall₂_cons_left_iff]
    simp only [pure_eq, Except.ok.injEq]
    constructor
    · rintro ⟨b, here, later, all, rfl⟩
      exact ⟨b, later, here, all, rfl⟩
    · rintro ⟨b, later, here, all, rfl⟩
      exact ⟨b, here, later, all, rfl⟩

theorem forM_eq_ok_iff {items : List α} {f : α → Attempt Unit} :
    items.forM f = .ok () ↔ ∀ a ∈ items, f a = .ok () := by
  induction items with
  | nil => simp
  | cons first rest ih =>
    rw [List.forM_eq_forM, List.forM_cons, bind_eq_ok_iff]
    rw [List.forM_eq_forM] at ih
    simp only [ih, List.mem_cons, forall_eq_or_imp]
    exact ⟨fun ⟨(), here, later⟩ => ⟨here, later⟩, fun ⟨here, later⟩ => ⟨(), here, later⟩⟩

end Attempt

/-! ## Verdicts -/

/-- A check succeeds under one condition, aborts under another and is refused otherwise. -/
structure Judges (check : Attempt Unit) (accepted overrun : Prop) : Prop where
  accepts : accepted → check = .ok ()
  aborts : overrun → check = .error .aborted
  refuses : ¬ accepted → ¬ overrun → ∃ cause, check = .error (.refused cause)

/-- A check succeeds if the condition holds and is refused otherwise. -/
structure Decides (check : Attempt Unit) (condition : Prop) : Prop where
  accepts : condition → check = .ok ()
  refuses : ¬ condition → ∃ cause, check = .error (.refused cause)

namespace Judges

variable {x rest : Attempt Unit} {accepted overrun condition : Prop}

theorem decides (h : Judges x accepted False) : Decides x accepted :=
  ⟨h.accepts, fun fails => h.refuses fails id⟩

theorem eq_ok_iff (h : Judges x accepted overrun) : x = .ok () ↔ accepted := by
  refine ⟨fun ok => Classical.byContradiction fun fails => ?_, h.accepts⟩
  by_cases past : overrun
  · cases ok.symm.trans (h.aborts past)
  · obtain ⟨cause, refused⟩ := h.refuses fails past
    cases ok.symm.trans refused

theorem eq_aborted_iff (h : Judges x accepted overrun) : x = .error .aborted ↔ overrun := by
  refine ⟨fun aborted => Classical.byContradiction fun within => ?_, h.aborts⟩
  by_cases holds : accepted
  · cases aborted.symm.trans (h.accepts holds)
  · obtain ⟨cause, refused⟩ := h.refuses holds within
    cases aborted.symm.trans refused

/-- A further check in front, which both the verdicts presuppose. -/
theorem after {first : Attempt Unit} (decided : Decides first condition)
    (needed : accepted → condition) (reached : overrun → condition)
    (next : condition → Judges rest accepted overrun) :
    Judges (first >>= fun _ => rest) accepted overrun := by
  by_cases holds : condition
  · rw [decided.accepts holds, Attempt.ok_bind]
    exact next holds
  · obtain ⟨cause, refused⟩ := decided.refuses holds
    rw [refused]
    exact ⟨fun all => absurd (needed all) holds, fun past => absurd (reached past) holds, fun _ _ =>
      ⟨cause, rfl⟩⟩

theorem check [Decidable condition] {cause : Error} (needed : accepted → condition)
    (reached : overrun → condition) (next : condition → Judges rest accepted overrun) :
    Judges (if condition then rest else .error (.refused cause)) accepted overrun := by
  by_cases holds : condition
  · rw [if_pos holds]
    exact next holds
  · rw [if_neg holds]
    exact ⟨fun all => absurd (needed all) holds, fun past => absurd (reached past) holds, fun _ _ =>
      ⟨cause, rfl⟩⟩

theorem checkNot [Decidable condition] {cause : Error} (needed : accepted → ¬ condition)
    (reached : overrun → ¬ condition) (next : ¬ condition → Judges rest accepted overrun) :
    Judges (if condition then .error (.refused cause) else rest) accepted overrun := by
  rw [← ite_not]
  exact check needed reached next

end Judges

namespace Decides

variable {check : Attempt Unit} {condition condition' : Prop}

theorem judges {overrun : Prop} (h : Decides check condition) (within : ¬ overrun) :
    Judges check condition overrun :=
  ⟨h.accepts, fun past => absurd past within, fun fails _ => h.refuses fails⟩

theorem eq_ok_iff (h : Decides check condition) :
    check = .ok () ↔ condition := (h.judges id).eq_ok_iff

theorem of_ite [Decidable condition] (cause : Error) :
    Decides (if condition then .ok () else .error (.refused cause)) condition :=
  ⟨fun holds => if_pos holds, fun fails => ⟨cause, if_neg fails⟩⟩

theorem congr (h : Decides check condition) (same : condition ↔ condition') :
    Decides check condition' :=
  ⟨fun holds => h.accepts (same.mpr holds), fun fails =>
    h.refuses fun holds => fails (same.mp holds)⟩

theorem forM {α : Type} {items : List α} {check : α → Attempt Unit} (condition : α → Prop)
    (each : ∀ item ∈ items, Decides (check item) (condition item)) :
    Decides (items.forM check) (∀ item ∈ items, condition item) := by
  refine ⟨fun all => Attempt.forM_eq_ok_iff.mpr fun item member =>
    (each item member).accepts (all item member), ?_⟩
  induction items with
  | nil => exact fun fails => absurd (fun _ member => nomatch member) fails
  | cons first rest ih =>
    intro fails
    rw [List.forM_eq_forM, List.forM_cons]
    by_cases here : condition first
    · rw [(each first List.mem_cons_self).accepts here, Attempt.ok_bind]
      refine ih (fun item member => each item (List.mem_cons_of_mem _ member)) fun all => fails ?_
      exact fun item member => (List.mem_cons.mp member).elim (fun same => same ▸ here) (all item)
    · obtain ⟨cause, refused⟩ := (each first List.mem_cons_self).refuses here
      exact ⟨cause, by rw [refused]; rfl⟩

end Decides

namespace Word

theorem add_of_lt {a b : Nat} (h : a + b < limit) :
    add a b = .ok (a + b) := add_eq_ok_iff.mpr ⟨h, rfl⟩

theorem add_of_not_lt {a b : Nat} (h : ¬ a + b < limit) : add a b = .error .aborted := if_neg h

theorem mul_of_lt {a b : Nat} (h : a * b < limit) :
    mul a b = .ok (a * b) := mul_eq_ok_iff.mpr ⟨h, rfl⟩

theorem countUp_of_lt {n : Nat} (h : n + 1 < 2 ^ 32) :
    countUp n = .ok (n + 1) := below_eq_ok_iff.mpr ⟨h, rfl⟩

theorem countUp_of_not_lt {n : Nat} (h : ¬ n + 1 < 2 ^ 32) : countUp n = .error .aborted := if_neg h

theorem request_eq_ok_iff {count width : Nat} :
    request count width = .ok () ↔ count * width < 2 ^ 63 := by
  by_cases h : count * width < 2 ^ 63
  · exact iff_of_true (Attempt.insist_of (by simpa using h)) h
  · refine iff_of_false (fun granted => ?_) h
    rw [request, Attempt.insist_of_not (by simpa using h)] at granted
    cases granted

theorem request_of_lt {count width : Nat} (h : count * width < 2 ^ 63) :
    request count width = .ok () :=
  request_eq_ok_iff.mpr h

theorem lt_limit_of_bytes {count : Nat} (room : count * 8 < 2 ^ 63) : count < limit := by
  rw [limit]
  omega

/-- Adding up words aborts unless the sum is a word. -/
theorem foldlM_add {counts : List Nat} {start : Nat} (h : start + counts.sum < limit) :
    counts.foldlM add start = .ok (start + counts.sum) := by
  induction counts generalizing start with
  | nil => simp
  | cons count rest ih =>
    rw [List.sum_cons] at h ⊢
    rw [List.foldlM_cons, add_of_lt (by omega), Attempt.ok_bind, ih (by omega), Nat.add_assoc]

end Word
end DeviceTeams
