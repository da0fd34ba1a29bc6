import DeviceTeams.Engine.BiCgStab
import DeviceTeams.Proofs.Exchanges
import DeviceTeams.Proofs.Rows

/-!
# The leads iterate together

A lead sees its own rows and its own parts of the vectors. Here the system and the vectors of all
leads are taken together, by the seats of the leads, and the iteration is written down for them.
Every lead comes out of its own iteration with the status of the joint one and with its part of the
joint solution: the leads branch on numbers that all of them share, so they stay in step, and no
product and no sum aborts as long as the parts have the lengths of the rows.
-/
namespace DeviceTeams

variable {S : Type} [Scalar S] {L : Finset Nat} {node : Nat → Nat} {N : Nat → Group}

/-! ## Products -/

/-- A row times a vector, in storage order. -/
def rowTimes (x : List S) (row : List (Nat × S)) : S :=
  row.foldl (fun sum entry => sum + entry.2 * x.getD entry.1 Scalar.zero) Scalar.zero

theorem foldlM_rowTimes {x : List S} {row : List (Nat × S)}
    (inside : ∀ entry ∈ row, entry.1 < x.length) (sum : S) :
    (row.foldlM (fun sum (column, value) => do
      let factor ← Attempt.ofOption x.toArray[column]?
      pure (sum + value * factor)) sum : Attempt S) =
      .ok (row.foldl (fun sum entry => sum + entry.2 * x.getD entry.1 Scalar.zero) sum) := by
  induction row generalizing sum with
  | nil => rfl
  | cons entry rest ih =>
    obtain ⟨column, value⟩ := entry
    have bound : column < x.length := inside _ List.mem_cons_self
    have factor : x.toArray[column]? = some (x.getD column Scalar.zero) := by
      rw [List.getElem?_toArray, List.getD_eq_getElem?_getD, List.getElem?_eq_getElem bound]
      rfl
    rw [List.foldlM_cons, List.foldl_cons]
    simp only [factor, Attempt.ofOption_some, Attempt.ok_bind, Attempt.pure_eq]
    exact ih (fun other member => inside other (List.mem_cons_of_mem _ member)) _

/-- A block whose columns are in range has a product with every vector of its length. -/
theorem Csr.spmv_ofRows {ncols : Nat} {rows : List (List (Nat × S))}
    (inside : ∀ row ∈ rows, ∀ entry ∈ row, entry.1 < ncols) {x : List S}
    (length : x.length = ncols) :
    (ofRows ncols rows).spmv x = .ok (rows.map (rowTimes x)) := by
  have fits : decide (x.length = (ofRows ncols rows).ncols) = true := decide_eq_true length
  rw [spmv, Attempt.insist_of fits, Attempt.ok_bind, rows_ofRows]
  exact Attempt.mapM_of fun row member =>
    foldlM_rowTimes (fun entry among => length ▸ inside row member entry among) _

/-! ## The joint system -/

/-- The rows of one lead, the first of them at `firstRow`, and the inverse diagonal there. -/
structure Band (S : Type) where
  rows : List (List (Nat × S))
  firstRow : Nat
  inverseDiagonal : List S

/-- A system with `size` rows, cut into one band for each of the leads. -/
structure Joint (S : Type) where
  size : Nat
  leads : Nat
  band : Nat → Band S

/-- A vector whose parts the leads hold, by their seats. -/
abbrev Parts (S : Type) : Type := Nat → List S

namespace Joint

variable (j : Joint S)

def system (seat : Nat) : System S where
  block := .ofRows j.size (j.band seat).rows
  firstRow := (j.band seat).firstRow
  globalRows := j.size
  inverseDiagonal := (j.band seat).inverseDiagonal

structure Sound (j : Joint S) : Prop where
  columns : ∀ seat < j.leads, ∀ row ∈ (j.band seat).rows, ∀ entry ∈ row, entry.1 < j.size
  inside : ∀ seat < j.leads, (j.band seat).firstRow + (j.band seat).rows.length ≤ j.size
  diagonal : ∀ seat < j.leads, (j.band seat).inverseDiagonal.length = (j.band seat).rows.length
  room : j.size * 8 < 2 ^ 63

def Fits (x : Parts S) : Prop := ∀ seat < j.leads, (x seat).length = (j.band seat).rows.length

def cut (x : List S) : Parts S :=
  fun seat => (x.drop (j.band seat).firstRow).take (j.band seat).rows.length

def dot (x y : Parts S) : S :=
  Scalar.total ((List.range j.leads).map fun seat => BiCgStab.dotLocal (x seat) (y seat))

def norm (x : Parts S) : S := Scalar.root (j.dot x x)

/-- The part of a lead between zeros. -/
def placed (x : Parts S) (seat : Nat) : List S :=
  List.replicate (j.band seat).firstRow Scalar.zero ++ x seat ++
    List.replicate (j.size - ((j.band seat).firstRow + (x seat).length)) Scalar.zero

def whole (x : Parts S) : List S :=
  ((List.range j.leads).map (j.placed x)).foldl (List.zipWith (· + ·))
    (List.replicate j.size Scalar.zero)

def product (x : Parts S) : Parts S := fun seat => (j.band seat).rows.map (rowTimes (j.whole x))

def precondition (x : Parts S) : Parts S := fun seat => (j.system seat).precondition (x seat)

def addScaled (factor : S) (x y : Parts S) : Parts S :=
  fun seat => BiCgStab.addScaled factor (x seat) (y seat)

/-- Vectors and factors that a joint iteration hands to the next one. -/
structure Carry (S : Type) where
  residual : Parts S
  direction : Parts S
  image : Parts S
  rho : S
  alpha : S
  omega : S

def Carry.at (carry : Carry S) (seat : Nat) : BiCgStab.Carry S where
  residual := carry.residual seat
  direction := carry.direction seat
  image := carry.image seat
  rho := carry.rho
  alpha := carry.alpha
  omega := carry.omega

def Carry.aim (carry : Carry S) (rho : S) : Parts S := fun seat =>
  BiCgStab.addScaled Scalar.one (carry.residual seat)
    ((BiCgStab.addScaled (-carry.omega) (carry.image seat) (carry.direction seat)).map
      (· * (rho / carry.rho * (carry.alpha / carry.omega))))

/-- A pass of all leads together. -/
def pass (shadow : Parts S) (target : S) (finished : Nat) (carry : Carry S) (x : Parts S) :
    ((Status × Nat) ⊕ Carry S) × Parts S :=
  let rho := j.dot shadow carry.residual
  if BiCgStab.vanishes rho then (.inl (.failed, finished), x) else
  let direction := carry.aim rho
  let directionHat := j.precondition direction
  let image := j.product directionHat
  let projection := j.dot shadow image
  if BiCgStab.vanishes projection then (.inl (.failed, finished), x) else
  let alpha := rho / projection
  let half := addScaled (-alpha) image carry.residual
  if Scalar.less (j.norm half) target then
    (.inl (.success, finished + 1), addScaled alpha directionHat x) else
  let halfHat := j.precondition half
  let halfImage := j.product halfHat
  let square := j.dot halfImage halfImage
  if BiCgStab.vanishes square then (.inl (.failed, finished), x) else
  let omega := j.dot halfImage half / square
  let residual := addScaled (-omega) halfImage half
  let x := addScaled omega halfHat (addScaled alpha directionHat x)
  if !Scalar.isFinite (j.norm residual) then (.inl (.diverged, finished + 1), x) else
  if Scalar.less (j.norm residual) target then (.inl (.success, finished + 1), x) else
  if BiCgStab.vanishes omega then (.inl (.failed, finished + 1), x) else
  (.inr ⟨residual, direction, image, rho, alpha, omega⟩, x)

def iterate (shadow : Parts S) (target : S) (finished : Nat) :
    Nat → Carry S → Parts S → (Status × Nat) × Parts S
  | 0, _, x => ((.notConverged, finished), x)
  | left + 1, carry, x =>
    match j.pass shadow target finished carry x with
    | (.inl answer, y) => (answer, y)
    | (.inr carry, y) => iterate shadow target (finished + 1) left carry y

def residual (b x : Parts S) : Parts S := fun seat => (b seat).zipWith (· - ·) (j.product x seat)

def Carry.first (residual : Parts S) : Carry S where
  residual := residual
  direction := fun seat => List.replicate (residual seat).length Scalar.zero
  image := fun seat => List.replicate (residual seat).length Scalar.zero
  rho := Scalar.one
  alpha := Scalar.one
  omega := Scalar.one

def opening (settings : Settings S) (b x : Parts S) : ((Status × Nat) ⊕ (S × Carry S)) × Parts S :=
  let size := j.norm b
  if Scalar.less size Scalar.tiny then
    (.inl (.success, 0), fun seat => (x seat).map fun _ => Scalar.zero) else
  let target := settings.tolerance * size
  let residual := j.residual b x
  if Scalar.less (j.norm residual) target then (.inl (.success, 0), x) else
  (.inr (target, .first residual), x)

/-- The solve of all leads together. -/
def solve (settings : Settings S) (b x : Parts S) : (Status × Nat) × Parts S :=
  match j.opening settings b x with
  | (.inl answer, y) => (answer, y)
  | (.inr (target, carry), y) => j.iterate carry.residual target 0 settings.maxIters carry y

/-! ## Lengths -/

variable {j}

theorem Fits.addScaled {x y : Parts S} (first : j.Fits x) (second : j.Fits y) (factor : S) :
    j.Fits (addScaled factor x y) := by
  intro seat below
  rw [Joint.addScaled, BiCgStab.addScaled, List.length_zipWith, first seat below,
    second seat below, Nat.min_self]

theorem Fits.precondition {x : Parts S} (sound : j.Sound) (fits : j.Fits x) :
    j.Fits (j.precondition x) := by
  intro seat below
  rw [Joint.precondition, System.precondition, List.length_zipWith, fits seat below]
  show min _ (j.band seat).inverseDiagonal.length = _
  rw [sound.diagonal seat below, Nat.min_self]

omit [Scalar S] in
theorem Fits.within {x : Parts S} (fits : j.Fits x) (sound : j.Sound) {seat : Nat}
    (below : seat < j.leads) :
    (j.band seat).firstRow + (x seat).length ≤ j.size := by
  rw [fits seat below]
  exact sound.inside seat below

theorem Fits.length_placed {x : Parts S} (fits : j.Fits x) (sound : j.Sound) {seat : Nat}
    (below : seat < j.leads) :
    (j.placed x seat).length = j.size := by
  have bound := fits.within sound below
  rw [placed, List.length_append, List.length_append, List.length_replicate, List.length_replicate]
  omega

/-- A lead can place its part of a vector that fits. -/
theorem Fits.place_eq {x : Parts S} (fits : j.Fits x) (sound : j.Sound) {seat : Nat}
    (below : seat < j.leads) :
    (j.system seat).place (x seat) = .ok (j.placed x seat) := by
  have room : Word.request (j.system seat).globalRows 8 = .ok () := Word.request_of_lt sound.room
  have bound : decide ((j.system seat).firstRow + (x seat).length ≤ (j.system seat).globalRows) =
    true :=
    decide_eq_true (fits.within sound below)
  rw [System.place, room, Attempt.ok_bind, Attempt.insist_of bound]
  rfl

theorem length_foldl_add {parts : List (List S)} {length : Nat}
    (lengths : ∀ part ∈ parts, part.length = length) {start : List S}
    (first : start.length = length) :
    (parts.foldl (List.zipWith (· + ·)) start).length = length := by
  induction parts generalizing start with
  | nil => exact first
  | cons part rest ih =>
    refine ih (fun other member => lengths other (List.mem_cons_of_mem _ member)) ?_
    rw [List.length_zipWith, first, lengths part List.mem_cons_self, Nat.min_self]

theorem Fits.length_whole {x : Parts S} (fits : j.Fits x) (sound : j.Sound) :
    (j.whole x).length = j.size := by
  refine length_foldl_add (fun part member => ?_) (List.length_replicate ..)
  obtain ⟨seat, among, rfl⟩ := List.mem_map.mp member
  exact fits.length_placed sound (List.mem_range.mp among)

theorem fits_product (x : Parts S) : j.Fits (j.product x) := fun _ _ => List.length_map ..

structure Carry.Fits (carry : Carry S) (j : Joint S) : Prop where
  residual : j.Fits carry.residual
  direction : j.Fits carry.direction
  image : j.Fits carry.image

theorem Carry.Fits.aim {carry : Carry S} (fits : carry.Fits j) (rho : S) :
    j.Fits (carry.aim rho) := by
  intro seat below
  have turned := fits.image.addScaled fits.direction (-carry.omega) seat below
  rw [Joint.addScaled] at turned
  rw [Carry.aim, BiCgStab.addScaled, List.length_zipWith, List.length_map, turned,
    fits.residual seat below, Nat.min_self]

/-- A pass keeps the lengths of the bands. -/
theorem fits_pass (sound : j.Sound) (shadow : Parts S) (target : S) (finished : Nat)
    {carry : Carry S} (fits : carry.Fits j) {x : Parts S} (guess : j.Fits x) :
    j.Fits (j.pass shadow target finished carry x).2 ∧
      ∀ next, (j.pass shadow target finished carry x).1 = .inr next → next.Fits j := by
  have direction := fits.aim (j.dot shadow carry.residual)
  have directionHat := direction.precondition sound
  have half :=
    (fits_product (j.precondition (carry.aim (j.dot shadow carry.residual)))).addScaled
    fits.residual
  have halfHat := fun factor => (half factor).precondition sound
  have reached :=
    fun alpha alpha' => (halfHat alpha).addScaled (directionHat.addScaled guess alpha')
  rw [pass]
  dsimp only
  split
  · exact ⟨guess, nofun⟩
  split
  · exact ⟨guess, nofun⟩
  split
  · exact ⟨directionHat.addScaled guess _, nofun⟩
  split
  · exact ⟨guess, nofun⟩
  split
  · exact ⟨reached _ _ _, nofun⟩
  split
  · exact ⟨reached _ _ _, nofun⟩
  split
  · exact ⟨reached _ _ _, nofun⟩
  refine ⟨reached _ _ _, fun next handed => ?_⟩
  obtain rfl := Sum.inr.inj handed
  exact ⟨(fits_product _).addScaled (half _) _, direction, fits_product _⟩

/-- What an iteration leaves of the guess has the lengths of the bands. -/
theorem fits_iterate (sound : j.Sound) (shadow : Parts S) (target : S) (left finished : Nat)
    {carry : Carry S} (fits : carry.Fits j) {x : Parts S} (guess : j.Fits x) :
    j.Fits (j.iterate shadow target finished left carry x).2 := by
  induction left generalizing finished carry x with
  | zero => exact guess
  | succ left ih =>
    have kept := fits_pass sound shadow target finished fits guess
    rw [iterate]
    rcases passed : j.pass shadow target finished carry x with ⟨answer | next, y⟩
    · rw [passed] at kept
      exact kept.1
    · rw [passed] at kept
      exact ih _ (kept.2 next rfl) kept.1

theorem Fits.residual {b : Parts S} (right : j.Fits b) (x : Parts S) : j.Fits (j.residual b x) := by
  intro seat below
  rw [Joint.residual, List.length_zipWith, right seat below,
    fits_product x seat below, Nat.min_self]

theorem Fits.first {residual : Parts S} (fits : j.Fits residual) :
    (Carry.first residual).Fits j where
  residual := fits
  direction := fun seat below => List.length_replicate.trans (fits seat below)
  image := fun seat below => List.length_replicate.trans (fits seat below)

theorem fits_opening (settings : Settings S) {b x : Parts S} (right : j.Fits b) (guess : j.Fits x) :
    j.Fits (j.opening settings b x).2 ∧
      ∀ target first, (j.opening settings b x).1 = .inr (target, first) → first.Fits j := by
  rw [opening]
  dsimp only
  split
  · exact ⟨fun seat below => by rw [List.length_map, guess seat below], nofun⟩
  split
  · exact ⟨guess, nofun⟩
  refine ⟨guess, fun target first handed => ?_⟩
  obtain rfl := (Prod.mk.inj (Sum.inr.inj handed)).2
  exact (right.residual x).first

theorem fits_solve (sound : j.Sound) (settings : Settings S) {b x : Parts S} (right : j.Fits b)
    (guess : j.Fits x) :
    j.Fits (j.solve settings b x).2 := by
  have kept := fits_opening settings right guess
  rw [solve]
  rcases opened : j.opening settings b x with ⟨answer | ⟨target, first⟩, y⟩
  · rw [opened] at kept
    exact kept.1
  · rw [opened] at kept
    exact fits_iterate sound _ _ _ _ (kept.2 target first rfl) kept.1

/-! ## In step -/

/-- The leads of `L` are seated in groups of as many leads as the system has bands. -/
structure HeldBy (j : Joint S) (node : Nat → Nat) (L : Finset Nat) (N : Nat → Group) : Prop where
  together : Together node L N
  leads : ∀ rank ∈ L, (N rank).hub.ranks.length = j.leads

namespace HeldBy

variable (held : j.HeldBy node L N) {β : Type} {s : Nat → List S}
  {post : (Nat → Attempt β × List S) → Prop}
include held

omit [Scalar S] in
theorem seat_lt {rank : Nat} (inside : rank ∈ L) : (N rank).rank < j.leads :=
  held.leads rank inside ▸ held.together.rank_lt inside

theorem dot_followedBy (x y : Parts S) {f : Nat → S → Work S (List S) β}
    (next : Unison L N (fun rank => (f rank (j.dot x y)).start (s rank)) post) :
    Unison L N (fun rank =>
      (BiCgStab.dot (N rank) (x (N rank).rank) (y (N rank).rank) >>= f rank).start (s rank))
      post := by
  have summed : Succeeds L
      (fun rank => (N rank).sum (BiCgStab.dotLocal (x (N rank).rank) (y (N rank).rank))) fun w =>
      ∀ rank ∈ L, w rank = j.dot x y := by
    refine (held.together.sum fun rank =>
      BiCgStab.dotLocal (x (N rank).rank) (y (N rank).rank)).mono
      fun w sums rank inside => ?_
    rw [sums rank inside, held.together.map_seat
      (fun seat => BiCgStab.dotLocal (x seat) (y seat)) inside,
      held.leads rank inside]
    rfl
  exact (summed.through fun rank _ => (N rank).sum_once _).followedBy_eq next

theorem norm_followedBy (x : Parts S) {f : Nat → S → Work S (List S) β}
    (next : Unison L N (fun rank => (f rank (j.norm x)).start (s rank)) post) :
    Unison L N (fun rank => (BiCgStab.norm (N rank) (x (N rank).rank) >>= f rank).start (s rank))
    post := by
  refine (held.dot_followedBy x x (f := fun rank square => f rank (Scalar.root square)) next).congr
    fun rank _ => ?_
  rw [BiCgStab.norm, bind_assoc]
  simp only [pure_bind]

/-- Every lead can place its part, and then there is one exchange. -/
theorem apply_eq (sound : j.Sound) {x : Parts S} (fits : j.Fits x) {rank : Nat}
    (inside : rank ∈ L) :
    (j.system (N rank).rank).apply (N rank) (x (N rank).rank) =
      ((N rank).sumVector (j.placed x (N rank).rank) >>= fun whole =>
        Task.ofAttempt ((j.system (N rank).rank).block.spmv whole)) := by
  rw [System.apply, fits.place_eq sound (held.seat_lt inside)]
  rfl

/-- Every lead gets its part of the product. -/
theorem apply_succeeds (sound : j.Sound) {x : Parts S} (fits : j.Fits x) :
    Succeeds L (fun rank => (j.system (N rank).rank).apply (N rank) (x (N rank).rank)) fun w =>
      ∀ rank ∈ L, w rank = j.product x (N rank).rank := by
  have seats := fun rank (inside : rank ∈ L) => held.seat_lt inside
  refine Succeeds.congr ?_ fun rank inside => held.apply_eq sound fits inside
  refine (held.together.sumVector (fun rank => j.placed x (N rank).rank) fun rank inside =>
    fits.length_placed sound (seats rank inside)).bind fun whole sums => ?_
  refine .ofAttempt (w := fun rank => j.product x (N rank).rank)
    (fun rank inside => ?_) fun _ _ => rfl
  rw [sums rank inside, held.together.map_seat (j.placed x) inside, held.leads rank inside]
  exact Csr.spmv_ofRows (sound.columns _ (seats rank inside)) (fits.length_whole sound)

theorem product_followedBy (sound : j.Sound) {x : Parts S} (fits : j.Fits x)
    {f : Nat → List S → Work S (List S) β}
    (next : Unison L N (fun rank => (f rank (j.product x (N rank).rank)).start (s rank)) post) :
    Unison L N (fun rank =>
      (BiCgStab.product (j.system (N rank).rank) (N rank) (x (N rank).rank) >>= f rank).start
        (s rank)) post := by
  have once : ∀ rank ∈ L, ((j.system (N rank).rank).apply (N rank) (x (N rank).rank)).run.Once
      (N rank).hub (.many .real j.size) := fun rank inside => by
    rw [held.apply_eq sound fits inside, ← fits.length_placed sound (held.seat_lt inside)]
    exact Group.once_ofAttempt ((N rank).sumVector_once _) _
  exact ((held.apply_succeeds sound fits).through once).followedBy_eq next

/-- The leads come out of a pass in unison with what the joint pass hands over, each with its
part. -/
theorem pass_unison (sound : j.Sound) (shadow : Parts S) (target : S) (finished : Nat)
    (carry : Carry S) (fits : carry.Fits j) (x : Parts S) :
    Unison L N (fun rank =>
      (BiCgStab.pass (j.system (N rank).rank) (N rank) (shadow (N rank).rank) target finished
      (carry.at (N rank).rank)).start (x (N rank).rank)) fun v => ∀ rank ∈ L,
        v rank = (.ok ((j.pass shadow target finished carry x).1.map id (·.at (N rank).rank)),
          (j.pass shadow target finished carry x).2 (N rank).rank) := by
  have direction := fits.aim (j.dot shadow carry.residual)
  have directionHat := direction.precondition sound
  have half :=
    (fits_product (j.precondition (carry.aim (j.dot shadow carry.residual)))).addScaled
    fits.residual
  simp only [BiCgStab.pass]
  refine held.dot_followedBy shadow carry.residual ?_
  rw [pass]
  dsimp only
  split
  · exact .of_finished (fun _ _ => rfl) fun _ _ => rfl
  refine held.product_followedBy sound directionHat (held.dot_followedBy shadow _ ?_)
  split
  · exact .of_finished (fun _ _ => rfl) fun _ _ => rfl
  generalize j.dot shadow carry.residual / j.dot shadow _ = alpha
  refine held.norm_followedBy (addScaled (-alpha) _ carry.residual) ?_
  split
  · exact .of_finished (fun _ _ => rfl) fun _ _ => rfl
  have halfHat := (half (-alpha)).precondition sound
  refine held.product_followedBy sound halfHat
    (held.dot_followedBy _ (addScaled (-alpha) _ carry.residual) ?_)
  refine held.dot_followedBy (j.product _) (j.product _) ?_
  split
  · exact .of_finished (fun _ _ => rfl) fun _ _ => rfl
  generalize j.dot (j.product _) _ / j.dot _ _ = omega
  simp only [Work.start_modify_bind]
  refine held.norm_followedBy
    (addScaled (-omega) (j.product _) (addScaled (-alpha) _ carry.residual)) ?_
  split
  · exact .of_finished (fun _ _ => rfl) fun _ _ => rfl
  split
  · exact .of_finished (fun _ _ => rfl) fun _ _ => rfl
  split
  · exact .of_finished (fun _ _ => rfl) fun _ _ => rfl
  exact .of_finished (fun _ _ => rfl) fun _ _ => rfl

/-- The leads come out of their iterations in unison with the joint status, each with its part of
what the joint iteration leaves of the guess. The induction is on the iterations that are left. -/
theorem iterate_unison (sound : j.Sound) (shadow : Parts S) (target : S) (left finished : Nat)
    (carry : Carry S) (fits : carry.Fits j) {x : Parts S} (guess : j.Fits x) :
    Unison L N (fun rank =>
      (BiCgStab.iterate (j.system (N rank).rank) (N rank) (shadow (N rank).rank) target finished
      left (carry.at (N rank).rank)).start (x (N rank).rank)) fun v => ∀ rank ∈ L,
        v rank = (.ok (j.iterate shadow target finished left carry x).1,
          (j.iterate shadow target finished left carry x).2 (N rank).rank) := by
  induction left generalizing finished carry x with
  | zero => exact .of_finished (fun _ _ => rfl) fun _ _ => rfl
  | succ left ih =>
    have kept := fits_pass sound shadow target finished fits guess
    simp only [BiCgStab.iterate, Work.start_bind]
    refine (held.pass_unison sound shadow target finished carry fits x).bind_eq ?_
    rw [iterate]
    rcases passed : j.pass shadow target finished carry x with ⟨answer | next, y⟩
    · exact .of_finished (fun _ _ => rfl) fun _ _ => rfl
    · rw [passed] at kept
      exact ih (finished + 1) next (kept.2 next rfl) kept.1

theorem opening_unison (sound : j.Sound) (settings : Settings S) {b x : Parts S} (right : j.Fits b)
    (guess : j.Fits x) :
    Unison L N (fun rank =>
      (BiCgStab.opening (j.system (N rank).rank) (N rank) settings (b (N rank).rank)).start
      (x (N rank).rank)) fun v => ∀ rank ∈ L,
        v rank = (.ok ((j.opening settings b x).1.map id (Prod.map id (·.at (N rank).rank))),
          (j.opening settings b x).2 (N rank).rank) := by
  simp only [BiCgStab.opening]
  refine held.norm_followedBy b ?_
  rw [opening]
  dsimp only
  split
  · exact .of_finished (fun _ _ => rfl) fun _ _ => rfl
  simp only [Work.start_get_bind]
  refine held.product_followedBy sound guess (held.norm_followedBy (j.residual b x) ?_)
  split
  · exact .of_finished (fun _ _ => rfl) fun _ _ => rfl
  refine .of_finished (fun _ _ => rfl) fun rank inside => ?_
  have length : (b (N rank).rank).length = (j.residual b x (N rank).rank).length := by
    rw [right _ (held.seat_lt inside), right.residual x _ (held.seat_lt inside)]
  rw [length]
  rfl

/-- The leads come out of their solves in unison with the joint status, each with its part of the
joint solution. -/
theorem solve_unison (sound : j.Sound) (settings : Settings S) {b x : Parts S} (right : j.Fits b)
    (guess : j.Fits x) :
    Unison L N (fun rank =>
      (BiCgStab.solve (j.system (N rank).rank) (N rank) settings (b (N rank).rank)).start
      (x (N rank).rank)) fun v => ∀ rank ∈ L,
        v rank = (.ok (j.solve settings b x).1, (j.solve settings b x).2 (N rank).rank) := by
  have kept := fits_opening settings right guess
  simp only [BiCgStab.solve, Work.start_bind]
  refine (held.opening_unison sound settings right guess).bind_eq ?_
  rw [solve]
  rcases opened : j.opening settings b x with ⟨answer | ⟨target, first⟩, y⟩
  · exact .of_finished (fun _ _ => rfl) fun _ _ => rfl
  · rw [opened] at kept
    exact held.iterate_unison sound first.residual target _ 0 first (kept.2 target first rfl) kept.1

end HeldBy
end Joint
end DeviceTeams
