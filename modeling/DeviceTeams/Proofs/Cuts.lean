import DeviceTeams.Proofs.Devices

/-!
# Cuts without gaps

All blocks into which items are cut are found, and they follow each other from the first item to the
last one. Ranks that are placed on nodes by repeating every node as often as its block is long have
the node in whose block they lie.
-/
namespace DeviceTeams

open Assignment (band bandStart bandStart_mono bandStart_all)

/-- The blocks into which `total` items are cut. No parts count as one part. -/
structure Cuts (total parts : Nat) (block : Nat → Span) : Prop where
  /-- No block has a bound that overflows. -/
  found : ∀ index < max parts 1, blockSpan total parts index = .ok (block index)
  ordered : ∀ index < max parts 1, (block index).start ≤ (block index).stop
  first : (block 0).start = 0
  next : ∀ index, index + 1 < max parts 1 → (block (index + 1)).start = (block index).stop
  last : (block (max parts 1 - 1)).stop = total
  /-- The sizes differ by at most one, the larger blocks first. -/
  balanced : ∀ index other, index ≤ other → other < max parts 1 →
    (block other).length ≤ (block index).length ∧ (block index).length ≤ (block other).length + 1

variable {total parts : Nat}

/-- No parts are cut like one part. -/
theorem blockSpan_max (index : Nat) :
    blockSpan total (max parts 1) index = blockSpan total parts index := by
  rw [blockSpan, blockSpan, Nat.max_eq_left (Nat.le_max_right parts 1)]

/-- The blocks are the bands of that many parts. -/
theorem Cuts.bands (word : total < Word.limit) : Cuts total parts (band (max parts 1) total) := by
  have some_part : 0 < max parts 1 := Nat.le_max_right parts 1
  constructor
  · intro index inside
    rw [← blockSpan_max, blockSpan_eq_band inside word]
  · exact fun index _ => Assignment.start_band_le index
  · show bandStart (max parts 1) total 0 = 0
    simp [bandStart]
  · exact fun index _ => rfl
  · show bandStart (max parts 1) total (max parts 1 - 1 + 1) = total
    rw [Nat.sub_add_cancel some_part, bandStart_all some_part]
  · exact fun index other order _ => Assignment.band_balanced order

/-- Among the first nodes a rank is placed on the one whose band it lies in. The induction adds the
last node, whose band starts at the length of the list so far. -/
theorem getElem?_placed (count position index : Nat) :
    ((List.range count).flatMap fun node =>
      List.replicate (band parts total node).length node)[position]? = some index ↔
      index < count ∧ (band parts total index).contains position = true := by
  simp only [Assignment.contains_band_iff]
  induction count with
  | zero => simp
  | succ count ih =>
    have width : (band parts total count).length = bandStart parts total (count + 1) -
      bandStart parts total count := rfl
    have order : bandStart parts total count ≤ bandStart parts total (count + 1) :=
      bandStart_mono (Nat.le_succ count)
    rw [List.range_succ, List.flatMap_append, List.flatMap_singleton, List.getElem?_append,
      Assignment.length_placed]
    rcases Nat.lt_or_ge position (bandStart parts total count) with before | after
    · rw [if_pos before, ih]
      constructor
      · rintro ⟨inside, within⟩
        exact ⟨Nat.lt_succ_of_lt inside, within⟩
      · rintro ⟨inside, within⟩
        refine ⟨Nat.lt_of_le_of_ne (Nat.le_of_lt_succ inside) ?_, within⟩
        rintro rfl
        omega
    · rw [if_neg (Nat.not_lt.mpr after), List.getElem?_replicate, width]
      constructor
      · intro placed
        split at placed
        next inside =>
          cases placed
          exact ⟨Nat.lt_succ_self index, after, by omega⟩
        next => cases placed
      · rintro ⟨inside, within⟩
        have reached : ¬ index < count := by
          intro earlier
          have stop : bandStart parts total (index + 1) ≤ bandStart parts total count :=
            bandStart_mono earlier
          omega
        obtain rfl : index = count := by omega
        rw [if_pos (by omega)]

/-- Items are cut into balanced blocks without gaps, for all numbers of items that a word can count
and all numbers of parts. Ranks are placed on nodes by the same cut: every rank has one node, the
one in whose block it lies. -/
theorem cuts_tile {ranks : Nat} (nodes : Nat) (total_word : total < Word.limit)
    (ranks_word : ranks < Word.limit) :
    (∃ block, Cuts total parts block) ∧
      ∃ block, Cuts ranks (min (max nodes 1) (max ranks 1)) block ∧
        (contiguousNodes ranks nodes).length = ranks ∧
        ∀ position index, (contiguousNodes ranks nodes)[position]? = some index ↔
          index < min (max nodes 1) (max ranks 1) ∧ (block index).contains position = true := by
  refine ⟨⟨_, Cuts.bands total_word⟩, _, Cuts.bands ranks_word,
    length_contiguousNodes ranks nodes, ?_⟩
  intro position index
  have some_node : max (min (max nodes 1) (max ranks 1)) 1 = min (max nodes 1)
    (max ranks 1) := by omega
  rw [contiguousNodes_eq, some_node]
  exact getElem?_placed _ position index

/-- The largest number of items into one part less, and five ranks on seven nodes. -/
theorem cuts_tile_largest : Word.limit - 1 < Word.limit ∧ 5 < Word.limit ∧
    (∃ block, Cuts (Word.limit - 1) (Word.limit - 2) block) ∧
      ∃ block, Cuts 5 5 block ∧ (contiguousNodes 5 7).length = 5 ∧
        ∀ position index, (contiguousNodes 5 7)[position]? = some index ↔
          index < 5 ∧ (block index).contains position = true :=
  ⟨by decide, by decide, cuts_tile 7 (by decide) (by decide)⟩

end DeviceTeams
