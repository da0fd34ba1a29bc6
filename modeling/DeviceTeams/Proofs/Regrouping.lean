import DeviceTeams.Proofs.Entries
import DeviceTeams.Proofs.Solves

/-!
# Rows divided among the members of a team

What the ranks of a world compute depends on the rows of the teams, but not on how a team divides
its rows among its members, nor on the columns that a member counts as its own. If two worlds have
the same rows of teams with the same entries, all ranks of both worlds end a solve with one status,
and each with its rows of one solution.
-/
namespace DeviceTeams

variable {S : Type}

/-! ## Vectors cut along the rows -/

/-- A piece of one of several lists is a piece of all of them together. -/
theorem take_drop_flatten {α : Type} {parts : List (List α)}
    {seat start count : Nat} {part : List α} (found : parts[seat]? = some part)
    (inside : start + count ≤ part.length) :
    (parts.flatten.drop (((parts.map List.length).take seat).sum + start)).take count =
    (part.drop start).take count := by
  obtain ⟨bound, value⟩ := List.getElem?_eq_some_iff.mp found
  rw [← List.drop_drop, List.drop_sum_flatten, List.drop_eq_getElem_cons bound, value,
    List.flatten_cons, List.drop_append_of_le_length (by omega), List.take_append_of_le_length
    (by rw [List.length_drop]; omega)]

theorem RowShare.length_rowSpan (m : RowShare S) : m.rowSpan.length = m.localRows :=
  Nat.add_sub_cancel_left ..

variable [Scalar S]

namespace Joint

def joined (j : Joint S) (x : Parts S) : List S := ((List.range j.leads).map x).flatten

theorem Fits.lengths {bands : List (List (List (Nat × S)))} {x : Parts S}
    (fits : (ofBands bands).Fits x) :
    ((List.range bands.length).map x).map List.length = bands.map List.length := by
  refine List.ext_getElem (by simp) fun seat bound bound' => ?_
  have below : seat < bands.length := by simpa using bound'
  have own : (x seat).length = (bands.getD seat []).length := fits seat below
  rw [List.getElem_map, List.getElem_map, List.getElem_range, List.getElem_map, own,
    List.getD_eq_getElem?_getD, List.getElem?_eq_getElem below, Option.getD_some]

theorem Fits.length_joined {bands : List (List (List (Nat × S)))} {x : Parts S}
    (fits : (ofBands bands).Fits x) :
    ((ofBands bands).joined x).length = (ofBands bands).size := by
  rw [joined, List.length_flatten]
  exact congrArg List.sum fits.lengths

end Joint

variable {nodes : List Nat} {m : Nat → RowShare S} {h : Nat → Hierarchy} {new : Nat → Group}
  {rows : Nat → List (List (Nat × S))}

namespace Holding

variable (holding : Holding nodes m h new rows)
include holding

/-- A rank's rows come after those of the teams before its team and those of the members before
it. -/
theorem rowStart_eq {rank : Nat} (below : rank < nodes.length) : (m rank).rowStart =
    ((((leadRanks h nodes.length).map (teamBlock h rows)).map List.length).take
      (h (leadOf h rank)).leads.rank).sum +
      (((h rank).team.hub.ranks.take (h rank).team.rank).map fun rank =>
        (m rank).localRows).sum := by
  have before := holding.shared.ranked.rowsBefore_eq (Finset.mem_range.mpr below) fun rank =>
    (m rank).localRows
  rw [holding.band_lengths, ← List.map_take]
  exact (holding.tiles.starts rank (List.mem_range.mpr below)).trans before

/-- What the members of a team cut from a vector is what belongs to the band of their lead. -/
theorem flatten_cut {lead : Nat} (below : lead < nodes.length)
    (leads : (h lead).isLead) (x : List S) :
    ((h lead).team.hub.ranks.map fun rank => (m rank).rowSpan.cut x).flatten =
      (jointOf h rows nodes.length).cut x (h lead).leads.rank := by
  have ranked := holding.shared.ranked
  have inside := Finset.mem_range.mpr below
  have band : ((jointOf h rows nodes.length).band (h lead).leads.rank).rows =
      teamBlock h rows lead := by
    show ((leadRanks h nodes.length).map (teamBlock h rows)).getD _ [] = _
    rw [List.getD_eq_getElem?_getD, ranked.map_leadRanks_found below leads, Option.getD_some]
  have total : (teamBlock h rows lead).length =
      ((h lead).team.hub.ranks.map fun rank => (m rank).rowSpan.length).sum := by
    rw [length_teamBlock, teamRows]
    refine congrArg List.sum (List.map_congr_left fun member belongs => ?_)
    rw [RowShare.length_rowSpan,
      holding.count member (Finset.mem_range.mp (ranked.team.of_mem inside belongs).1)]
  rw [Joint.cut, band, total]
  refine flatten_map_cut fun place member found => ?_
  obtain ⟨member_inside, meets, sits⟩ := ranked.team.seat lead inside place member found
  have own := ranked.leadOf_eq inside (List.mem_of_getElem? found)
  rw [ranked.leadOf_self inside leads] at own
  have start := holding.rowStart_eq (Finset.mem_range.mp member_inside)
  rw [own, meets, sits] at start
  rw [List.map_congr_left fun rank _ => (m rank).length_rowSpan]
  exact start

/-- The ranks cut a vector along their rows, and the teams put together what belongs to the
bands. -/
theorem partsOf_cut (x : List S) : partsOf h nodes.length (fun rank => (m rank).rowSpan.cut x) =
    (jointOf h rows nodes.length).cut x := by
  funext seat
  rw [partsOf, Parts.of, List.getD_eq_getElem?_getD, List.getElem?_map]
  cases found : (leadRanks h nodes.length)[seat]? with
  | some lead =>
    obtain ⟨among, leads⟩ := List.mem_filter.mp (List.mem_of_getElem? found)
    have below := List.mem_range.mp among
    have place : (h lead).leads.rank = seat :=
      holding.shared.ranked.leads_seat (Finset.mem_range.mpr below) found
    rw [Option.map_some, Option.getD_some, holding.flatten_cut below leads, place]
  | none =>
    have nothing : ((jointOf h rows nodes.length).band seat).rows = [] := by
      show ((leadRanks h nodes.length).map (teamBlock h rows)).getD seat [] = _
      rw [List.getD_eq_getElem?_getD, List.getElem?_map, found, Option.map_none, Option.getD_none]
    rw [Option.map_none, Option.getD_none, Joint.cut, nothing, List.length_nil, List.take_zero]

/-- A rank receives its rows of the joint solution. -/
theorem ownPart_eq_cut {rank : Nat} (below : rank < nodes.length) {y : Parts S}
    (fits : (jointOf h rows nodes.length).Fits y) :
    ownPart h m y rank = (m rank).rowSpan.cut ((jointOf h rows nodes.length).joined y) := by
  have shared := holding.shared
  have inside := Finset.mem_range.mpr below
  have lead_below := Finset.mem_range.mp (shared.ranked.leadOf_inside inside)
  have place := holding.seat _ lead_below (shared.ranked.isLead_leadOf inside)
  have seat := shared.held.seat_lt (shared.ranked.leadOf_lead inside)
  have room := shared.ranked.team.segmentStart_add_le (fun rank => (m rank).localRows) inside
  rw [← shared.length_band inside, ← fits _ seat, place] at room
  rw [place] at seat
  have found :
      ((List.range (jointOf h rows nodes.length).leads).map y)[(h (leadOf h rank)).leads.rank]? =
      some (y (h (leadOf h rank)).leads.rank) := by
    rw [List.getElem?_map, List.getElem?_range seat, Option.map_some]
  have piece := take_drop_flatten found room
  rw [ownPart, segmentIn, ← piece, Span.cut, Joint.joined]
  have start : (m rank).rowSpan.start = _ := holding.rowStart_eq below
  have lengths : ((List.range (jointOf h rows nodes.length).leads).map y).map List.length = _ :=
    fits.lengths
  have width : (m rank).rowSpan.stop - (m rank).rowSpan.start = (m rank).localRows :=
    (m rank).length_rowSpan
  rw [width, start, lengths, segmentStart, List.map_take]

/-- In the order of the rows, what the ranks cut from a vector makes it up. -/
theorem flatten_inOrder_cut {x : List S} (length : x.length = (jointOf h rows nodes.length).size) :
    ((inOrder h (List.range nodes.length)).map fun rank => (m rank).rowSpan.cut x).flatten = x := by
  have ranked := holding.shared.ranked
  have total : ((inOrder h (List.range nodes.length)).map fun rank => (m rank).rowSpan.length).sum =
      x.length := by
    rw [length, List.map_congr_left fun rank _ => (m rank).length_rowSpan, inOrder,
      List.map_flatMap, List.flatMap_def, List.sum_flatten, List.map_map]
    exact (congrArg List.sum holding.band_lengths).symm
  have whole : ((inOrder h (List.range nodes.length)).map fun rank =>
      (m rank).rowSpan.cut x).flatten =
      (x.drop 0).take _ := flatten_map_cut fun place rank found => by
    obtain ⟨lead, among, belongs⟩ := List.mem_flatMap.mp (List.mem_of_getElem? found)
    have lead_inside := Finset.mem_range.mpr (List.mem_range.mp (List.mem_filter.mp among).1)
    rw [Nat.zero_add, List.map_congr_left fun rank _ => (m rank).length_rowSpan]
    exact ranked.starts_inOrder lead_inside holding.tiles found
  rw [whole, List.drop_zero, total, List.take_length]

end Holding

/-! ## One solve -/

variable {settings : Settings S} {handles : Nat → LeadHandles S} {a : Nat → Attached S}

/-- Ranks that cut a guess and a right-hand side along their rows find their rows of the joint
solution. -/
theorem Solvable.solve_cut (solvable : Solvable nodes m h new rows settings handles a)
    (few : ∀ rank < nodes.length, (a rank).solver.stats.solves < 2 ^ 32 - 1) {x b : List S}
    (length_x : x.length = (jointOf h rows nodes.length).size)
    (length_b : b.length = (jointOf h rows nodes.length).size) {status : Status}
    {iterations : Nat} {y : Parts S}
    (solved : (jointOf h rows nodes.length).solve settings ((jointOf h rows nodes.length).cut b)
      ((jointOf h rows nodes.length).cut x) = ((status, iterations), y)) :
    (jointOf h rows nodes.length).Fits y ∧ Completes (Finset.range nodes.length)
      (fun rank => (Attached.solve ((m rank).rowSpan.cut x) ((m rank).rowSpan.cut b)).start
        (a rank)) fun v =>
        ∀ rank < nodes.length,
          (v rank).1 =
          .ok (status, (m rank).rowSpan.cut ((jointOf h rows nodes.length).joined y)) := by
  have holding := solvable.holding
  have lengths : ∀ z : List S, z.length = (jointOf h rows nodes.length).size →
      ∀ rank < nodes.length,
      ((m rank).rowSpan.cut z).length = (m rank).localRows := by
    intro z length rank below
    have inside := holding.shared.ranked.stop_le (Finset.mem_range.mpr below) holding.tiles
      (List.mem_range.mpr below)
    have width : (m rank).rowSpan.stop - (m rank).rowSpan.start = (m rank).localRows :=
      (m rank).length_rowSpan
    rw [Span.cut, width, List.length_take, List.length_drop, length]
    show min (m rank).localRows (_ - (m rank).rowStart) = _
    omega
  rw [← holding.partsOf_cut b, ← holding.partsOf_cut x] at solved
  have fits :=
    Joint.fits_solve holding.shared.sound settings (solvable.fits_partsOf (lengths b length_b))
    (solvable.fits_partsOf (lengths x length_x))
  rw [solved] at fits
  refine ⟨fits,
    (solvable.solve_succeeds
      (fun rank below => ⟨lengths x length_x rank below, lengths b length_b rank below⟩)
    few solved).mono fun v values rank below => ?_⟩
  rw [(values rank below).1, holding.ownPart_eq_cut below fits]

/-! ## Two worlds -/

variable {config : Attempt (Settings S)}

/-- Ranks with these groups that have taken checked shares of a matrix, all of them in one memory,
and whose counters have room for another solve. -/
structure Ready (nodes : List Nat) (config : Attempt (Settings S)) (m : Nat → RowShare S)
    (h : Nat → Hierarchy) (a : Nat → Attached S) : Prop where
  loaded : Loaded nodes config m a
  groups : ∀ rank < nodes.length, (a rank).solver.hierarchy = some (h rank)
  checked : ∀ rank < nodes.length, (m rank).validate = .ok ()
  memory : ((List.range nodes.length).map fun rank => (m rank).bytes).sum < 2 ^ 64
  few : ∀ rank < nodes.length, (a rank).solver.stats.solves < 2 ^ 32 - 1

/-- Ranks that cut a guess `x` and a right-hand side `b` along their rows end a solve with one
status, and each with its rows of `y`; in the order of the rows these are `y`. -/
def SolvesTo (nodes : List Nat) (m : Nat → RowShare S) (h : Nat → Hierarchy)
    (a : Nat → Attached S) (hubs : Hubs S) (x b : List S) (status : Status) (y : List S) : Prop :=
  ((inOrder h (List.range nodes.length)).map fun rank => (m rank).rowSpan.cut y).flatten = y ∧
    ∃ v : Nat → Attempt (Status × List S) × Attached S,
      (World.ofPrograms nodes.length
        (fun rank => (Attached.solve ((m rank).rowSpan.cut x) ((m rank).rowSpan.cut b)).start
        (a rank)) hubs).EndsWith ((List.range nodes.length).map fun rank => some (v rank)) ∧
      ∀ rank < nodes.length, (v rank).1 = .ok (status, (m rank).rowSpan.cut y)

section

omit [Scalar S]

variable {h' : Nat → Hierarchy} {ranks : Nat} (same : ∀ rank < ranks, h' rank = h rank)
include same

theorem teamRows_congr (count : Nat → Nat) :
    (leadRanks h' ranks).map (teamRows h' count) = (leadRanks h ranks).map (teamRows h count) := by
  rw [leadRanks_congr same]
  refine List.map_congr_left fun lead among => ?_
  rw [teamRows, teamRows, same lead (List.mem_range.mp (List.mem_filter.mp among).1)]

theorem inOrder_congr : inOrder h' (List.range ranks) = inOrder h (List.range ranks) := by
  show (leadRanks h' ranks).flatMap _ = (leadRanks h ranks).flatMap _
  rw [leadRanks_congr same]
  refine List.flatMap_congr fun lead among => ?_
  rw [same lead (List.mem_range.mp (List.mem_filter.mp among).1)]

end

namespace Ready

variable (ready : Ready nodes config m h a)
include ready

theorem valid : ∀ rank < nodes.length, (m rank).Valid := fun rank below =>
  RowShare.validate_eq_ok_iff.mp (ready.checked rank below)

/-- What the ranks hold together, by the groups that their instances name. -/
theorem solvable : ∃ (h' : Nat → Hierarchy) (new : Nat → Group) (rows : Nat → List (List (Nat × S)))
    (handles : Nat → LeadHandles S), (∀ rank < nodes.length, h' rank = h rank) ∧
      Solvable nodes m h' new rows (settingsOf config) handles a := by
  obtain ⟨h', new, rows, handles, solvable⟩ := ready.loaded.solvable ready.checked ready.memory
  refine ⟨h', new, rows, handles, fun rank below => ?_, solvable⟩
  have own := ready.groups rank below
  rw [(solvable.serves rank (Finset.mem_range.mpr below)).hierarchy_eq, Option.some.injEq] at own
  exact own

/-- The ranks find the joint solution for every guess and every right-hand side. -/
theorem solvesTo {h' : Nat → Hierarchy} (same : ∀ rank < nodes.length, h' rank = h rank)
    (solvable : Solvable nodes m h' new rows (settingsOf config) handles a) {x b : List S}
    (length_x : x.length = (jointOf h' rows nodes.length).size)
    (length_b : b.length = (jointOf h' rows nodes.length).size) {hubs : Hubs S} {rounds : Rounds}
    (resting : hubs.Resting rounds) {status : Status} {iterations : Nat} {y : Parts S}
    (solved : (jointOf h' rows nodes.length).solve (settingsOf config)
      ((jointOf h' rows nodes.length).cut b)
      ((jointOf h' rows nodes.length).cut x) = ((status, iterations), y)) :
    ((jointOf h' rows nodes.length).joined y).length = (jointOf h' rows nodes.length).size ∧
      SolvesTo nodes m h a hubs x b status ((jointOf h' rows nodes.length).joined y) := by
  obtain ⟨fits, solves⟩ := solvable.solve_cut ready.few length_x length_b solved
  obtain ⟨v, values, ends⟩ := solves.endsWith resting
  have whole := solvable.holding.flatten_inOrder_cut fits.length_joined
  rw [inOrder_congr same] at whole
  exact ⟨fits.length_joined, whole, v, ends, values⟩

end Ready

/-- In two worlds whose teams have the same rows with the same entries, and whose leads have read
the same config, all ranks end a solve with one status and with their rows of one solution. -/
theorem solve_regrouped {nodes' : List Nat} {m' : Nat → RowShare S} {h' : Nat → Hierarchy}
    {a' : Nat → Attached S} (ready : Ready nodes config m h a)
    (ready' : Ready nodes' config m' h' a')
    (teams : (leadRanks h nodes.length).map (teamRows h fun rank => (m rank).localRows) =
      (leadRanks h' nodes'.length).map (teamRows h' fun rank => (m' rank).localRows))
    (stored : ∀ row column value, (∃ rank < nodes.length, (m rank).Stores row column value) ↔
      ∃ rank < nodes'.length, (m' rank).Stores row column value)
    {x b : List S}
    (length_x : x.length = ((List.range nodes.length).map fun rank => (m rank).localRows).sum)
    (length_b : b.length = ((List.range nodes.length).map fun rank => (m rank).localRows).sum)
    {hubs hubs' : Hubs S} {rounds rounds' : Rounds} (resting : hubs.Resting rounds)
    (resting' : hubs'.Resting rounds') :
    ∃ (status : Status) (y : List S), y.length = x.length ∧
      SolvesTo nodes m h a hubs x b status y ∧ SolvesTo nodes' m' h' a' hubs' x b status y := by
  obtain ⟨h₁, new₁, rows₁, handles₁, same₁, solvable₁⟩ := ready.solvable
  obtain ⟨h₂, new₂, rows₂, handles₂, same₂, solvable₂⟩ := ready'.solvable
  rw [← teamRows_congr same₁, ← teamRows_congr same₂] at teams
  have one := solvable₁.holding.joint_eq solvable₂.holding ready.valid ready'.valid teams stored
  rw [solvable₁.holding.tiles.total] at length_x length_b
  rcases solved : (jointOf h₁ rows₁ nodes.length).solve (settingsOf config)
    ((jointOf h₁ rows₁ nodes.length).cut b)
    ((jointOf h₁ rows₁ nodes.length).cut x) with ⟨⟨status, iterations⟩, y⟩
  obtain ⟨length, solves⟩ := ready.solvesTo same₁ solvable₁ length_x length_b resting solved
  refine ⟨status, (jointOf h₁ rows₁ nodes.length).joined y, length.trans length_x.symm, solves, ?_⟩
  rw [one] at length_x length_b solved ⊢
  exact (ready'.solvesTo same₂ solvable₂ length_x length_b resting' solved).2

def bothRows : RowShare Float :=
  ⟨2, 2, 0, 0, .ofRows 2 [[(0, 4.0), (1, 1.0)], [(1, 3.0)]], .ofRows 0 [[], []], #[]⟩

theorem stores_rowEach_iff (row column : Nat) (value : Float) :
    (∃ rank < 2, (rowEach rank).Stores row column value) ↔
    ∃ rank < 1, bothRows.Stores row column value := by
  have valid := fun rank below => RowShare.validate_eq_ok_iff.mp (validate_rowEach rank below)
  have whole : bothRows.Valid := RowShare.validate_eq_ok_iff.mp rfl
  have first : (rowEach 0).localBlock = .ok (.ofRows 2 [[(0, 4.0), (1, 1.0)]]) := rfl
  have second : (rowEach 1).localBlock = .ok (.ofRows 2 [[(1, 3.0)]]) := rfl
  have both : bothRows.localBlock = .ok (.ofRows 2 [[(0, 4.0), (1, 1.0)], [(1, 3.0)]]) := rfl
  constructor
  · rintro ⟨rank, below, stored⟩
    refine ⟨0, Nat.one_pos, (whole.stores_iff both).mpr ?_⟩
    have place : rank = 0 ∨ rank = 1 := by omega
    rcases place with rfl | rfl
    · obtain ⟨_ | place, entries, position, found, among⟩ :=
        ((valid 0 below).stores_iff first).mp stored
      · exact ⟨0, entries, position, found, among⟩
      · cases found
    · obtain ⟨_ | place, entries, position, found, among⟩ :=
        ((valid 1 below).stores_iff second).mp stored
      · exact ⟨1, entries, position, found, among⟩
      · cases found
  · rintro ⟨_, _, stored⟩
    obtain ⟨_ | _ | place, entries, position, found, among⟩ := (whole.stores_iff both).mp stored
    · exact ⟨0, by
        decide, ((valid 0 (by decide)).stores_iff first).mpr ⟨0, entries, position, found, among⟩⟩
    · exact ⟨1, by
        decide, ((valid 1 (by decide)).stores_iff second).mpr ⟨0, entries, position, found, among⟩⟩
    · cases found

/-- A team of two and a rank alone hold the same two rows. -/
theorem solve_regrouped_pair :
    ∃ (h h' : Nat → Hierarchy) (a a' : Nat → Attached Float) (status : Status)
    (y : List Float), y.length = 2 ∧ SolvesTo [0, 0] rowEach h a [] [0.0, 0.0] [1.0, 2.0] status y ∧
      SolvesTo [0] (fun _ => bothRows) h' a' [] [0.0, 0.0] [1.0, 2.0] status y := by
  have either : ∀ rank < 2, rank = 0 ∨ rank = 1 := fun rank below => by omega
  obtain ⟨h, a, loaded, team, states⟩ :=
    exists_loaded [0, 0] rowEach (by decide) (by decide) (by decide) validate_rowEach
    (fun rank below => by rcases either rank below with rfl | rfl <;> exact ⟨rfl, rfl⟩) (by decide)
    (fun rank below => by rcases either rank below with rfl | rfl <;> rfl) rfl (by decide)
  obtain ⟨h', a', loaded', team', states'⟩ :=
    exists_loaded [0] (fun _ => bothRows) (by decide) (by decide) (by decide)
    (fun _ _ => rfl) (fun _ _ => ⟨rfl, rfl⟩) (by decide)
    (fun rank below => by rw [Nat.lt_one_iff.mp below]; rfl) rfl
    (by decide)
  have ready : Ready [0, 0] _ rowEach h a :=
    ⟨loaded, fun rank below => (states rank below).1, validate_rowEach, by decide,
    fun rank below => by rw [(states rank below).2]; decide⟩
  have ready' : Ready [0] _ (fun _ => bothRows) h' a' :=
    ⟨loaded', fun rank below => (states' rank below).1, fun _ _ => rfl,
    by decide, fun rank below => by rw [(states' rank below).2]; decide⟩
  have teams : (leadRanks h [0, 0].length).map (teamRows h fun rank => (rowEach rank).localRows) =
      (leadRanks h' [0].length).map (teamRows h' fun _ => bothRows.localRows) := by
    rw [team.teamRows_eq, team'.teamRows_eq]
    rfl
  obtain ⟨status, y, length, solves, solves'⟩ :=
    solve_regrouped ready ready' teams stores_rowEach_iff (x := [0.0, 0.0])
    (b := [1.0, 2.0]) rfl rfl Hubs.resting_nil Hubs.resting_nil
  exact ⟨h, h', a, a', status, y, length, solves, solves'⟩

end DeviceTeams
