import DeviceTeams.Proofs.Failures
import DeviceTeams.Proofs.Extraction

/-!
# What the checks accept

The check of a block accepts the blocks that follow the storage rules and refuses all others,
whatever they hold. The check of a share adds up where its rows and its columns end before it
compares them with the sizes of the matrix, so that a share for which such a sum is not a word is
neither accepted nor refused.
-/
namespace DeviceTeams

variable {S : Type}

/-! ## Blocks -/

/-- A block is accepted exactly if it follows the storage rules, and every other block is refused as
a matrix. -/
theorem Csr.accepted_iff_wellStored (m : Csr S) (word : m.nrows + 1 < Word.limit) :
    (m.validate = .ok () ↔ m.WellStored) ∧
    (ofParts m.nrows m.ncols m.rowPointers m.colIndices m.values = .ok m ↔ m.WellStored) ∧
    (¬ m.WellStored → ∃ cause : MatrixError, m.validate = .error cause ∧
      ofParts m.nrows m.ncols m.rowPointers m.colIndices m.values = .error cause) := by
  have decided := validate_decides word
  have parts : ofParts m.nrows m.ncols m.rowPointers m.colIndices m.values =
    (m.validate >>= fun _ => .ok m) := rfl
  refine ⟨decided.eq_ok_iff, ?_, fun broken => ?_⟩
  · rw [parts, Attempt.then_ok_eq_ok_iff, decided.eq_ok_iff]
  · obtain ⟨cause, refused⟩ := decided.refuses broken
    obtain ⟨fault, rfl⟩ := matrix_of_validate refused
    exact ⟨fault, refused, by rw [parts, Attempt.then_ok_eq_error_iff, refused]⟩

/-- Two rows whose last pointer fits, but whose first row would end far past the entries. -/
def Csr.wildPointer : Csr Nat := ⟨2, 2, #[0, 0xFFFFFFFFFFFFFFFF, 1], #[0], #[7]⟩

theorem Csr.accepted_iff_wellStored_wild :
    (ofRows 2 [[(0, 7)], [(0, 8), (1, 9)]]).WellStored ∧
    ∃ cause : MatrixError, wildPointer.validate = .error cause ∧
      ofParts 2 2 #[0, 0xFFFFFFFFFFFFFFFF, 1] #[0] #[7] = .error cause := by
  have accepted : (ofRows 2 [[(0, 7)], [(0, 8), (1, 9)]]).validate = .ok () := rfl
  refine ⟨((accepted_iff_wellStored _ (by decide)).1).mp accepted, ?_⟩
  refine (accepted_iff_wellStored wildPointer (by decide)).2.2 fun stored => ?_
  have decreases := stored.rising 1 ⟨0xFFFFFFFFFFFFFFFF, 1⟩ rfl
  exact absurd decreases (by decide)

/-! ## Shares -/

namespace RowShare

variable {m : RowShare S}

/-- Both blocks are accepted, fit together and into the global matrix, and the column map ascends
and stays outside the diagonal columns. The ends of the rows and of the diagonal columns are
numbers, words or not. -/
structure Coherent (m : RowShare S) : Prop where
  diagonal : m.diagonal.validate = .ok ()
  offDiagonal : m.offDiagonal.validate = .ok ()
  sameRows : m.diagonal.nrows = m.offDiagonal.nrows
  mapped : m.offDiagonal.ncols = m.columnMap.size
  rowStop_le : m.rowStart + m.diagonal.nrows ≤ m.globalRows
  colStop_le : m.colStart + m.diagonal.ncols ≤ m.globalCols
  ascending : m.columnMap.toList.Pairwise (· < ·)
  outside : ∀ c ∈ m.columnMap.toList, c < m.globalCols ∧
    (c < m.colStart ∨ m.colStart + m.diagonal.ncols ≤ c)

/-- Both blocks are accepted and have the same rows, but the end of the rows is not a word, or else
the rows are inside the matrix and the end of the diagonal columns is not a word. -/
structure Overruns (m : RowShare S) : Prop where
  diagonal : m.diagonal.validate = .ok ()
  offDiagonal : m.offDiagonal.validate = .ok ()
  sameRows : m.diagonal.nrows = m.offDiagonal.nrows
  stop : Word.limit ≤ m.rowStart + m.diagonal.nrows ∨
    m.rowStart + m.diagonal.nrows ≤ m.globalRows ∧ Word.limit ≤ m.colStart + m.diagonal.ncols

theorem coherent_iff_valid (rows : m.globalRows < Word.limit) (cols : m.globalCols < Word.limit) :
    m.Coherent ↔ m.Valid := by
  constructor
  · intro c
    exact ⟨c.diagonal, c.offDiagonal, c.sameRows,
      Nat.lt_of_le_of_lt c.rowStop_le rows, c.rowStop_le,
      Nat.lt_of_le_of_lt c.colStop_le cols, c.colStop_le, c.mapped, c.ascending, c.outside⟩
  · intro v
    exact ⟨v.diagonal, v.offDiagonal, v.sameRows, v.mapped, v.rowStop_le, v.colStop_le,
      v.ascending, v.outside⟩

/-- The check accepts the valid shares, aborts on those that overrun and refuses the others. -/
theorem validate_judges (word : m.diagonal.nrows + 1 < Word.limit)
    (word' : m.offDiagonal.nrows + 1 < Word.limit) :
    Judges m.validate m.Valid m.Overruns := by
  have decided := (Csr.validate_decides word).congr (Csr.validate_decides word).eq_ok_iff.symm
  have decided' := (Csr.validate_decides word').congr (Csr.validate_decides word').eq_ok_iff.symm
  rw [validate]
  simp only [Attempt.throw_eq, Attempt.error_bind]
  refine .after decided (·.diagonal) (·.diagonal) fun diagonal => ?_
  refine .after decided' (·.offDiagonal) (·.offDiagonal) fun offDiagonal => ?_
  refine .check (·.sameRows) (·.sameRows) fun sameRows => ?_
  by_cases rowWord : m.rowStart + m.diagonal.nrows < Word.limit
  · rw [Word.add_of_lt rowWord, Attempt.ok_bind]
    refine .checkNot (fun valid => Nat.not_lt.mpr valid.rowStop_le) (fun overruns => ?_)
      fun rowStop => ?_
    · exact Nat.not_lt.mpr (overruns.stop.resolve_left (Nat.not_le.mpr rowWord)).1
    by_cases colWord : m.colStart + m.diagonal.ncols < Word.limit
    · have within : ¬ m.Overruns := fun overruns => by
        have := overruns.stop
        omega
      rw [Word.add_of_lt colWord, Attempt.ok_bind]
      refine Decides.judges (Judges.decides ?_) within
      refine .checkNot (fun valid => Nat.not_lt.mpr valid.colStop_le) False.elim fun colStop => ?_
      refine .check (·.mapped) False.elim fun mapped => ?_
      refine .check (fun valid => Csr.ascending_iff.mpr valid.ascending) False.elim
        fun ascends => ?_
      cases found : m.columnMap.toList.find? fun c =>
          m.globalCols ≤ c || (Span.mk m.colStart (m.colStart + m.diagonal.ncols)).contains c with
      | some column =>
        refine ⟨fun valid => ?_, False.elim, fun _ _ => ⟨_, rfl⟩⟩
        cases found.symm.trans (find_outside_iff.mpr valid.outside)
      | none =>
        have valid : m.Valid :=
          ⟨diagonal, offDiagonal, sameRows, rowWord, Nat.not_lt.mp rowStop, colWord,
          Nat.not_lt.mp colStop, mapped, Csr.ascending_iff.mp ascends, find_outside_iff.mp found⟩
        exact ⟨fun _ => rfl, False.elim, fun invalid => absurd valid invalid⟩
    · rw [Word.add_of_not_lt colWord]
      refine ⟨fun valid => absurd valid.colStop_lt colWord, fun _ => rfl, fun _ within => ?_⟩
      exact absurd ⟨diagonal, offDiagonal, sameRows,
        .inr ⟨Nat.not_lt.mp rowStop, Nat.not_lt.mp colWord⟩⟩ within
  · rw [Word.add_of_not_lt rowWord]
    refine ⟨fun valid => absurd valid.rowStop_lt rowWord, fun _ => rfl, fun _ within => ?_⟩
    exact absurd ⟨diagonal, offDiagonal, sameRows, .inl (Nat.not_lt.mp rowWord)⟩ within

/-- A share that is not accepted is refused for what is wrong with a matrix. -/
theorem validate_within {P : Error → Prop} (all : ∀ fault, P (.matrix fault)) :
    m.validate.Within P := by
  refine .bind (Csr.validate_within all m.diagonal) fun diagonal => ?_
  refine .bind (Csr.validate_within all m.offDiagonal) fun offDiagonal => ?_
  simp only [Attempt.throw_eq, Attempt.error_bind]
  refine .check (all _) fun blockRows => ?_
  refine .bind (Word.add_within ..) fun rowStop => .checkNot (all _) fun rowsInside => ?_
  refine .bind (Word.add_within ..) fun colStop => .checkNot (all _) fun columnsInside => ?_
  refine .check (all _) fun columnMapLength => .check (all _) fun columnMapAscends => ?_
  cases m.columnMap.toList.find? fun c =>
    m.globalCols ≤ c || (Span.mk m.colStart colStop).contains c with
  | some column => exact all (.columnMapEntry column)
  | none => exact trivial

theorem matrix_of_validate {cause : Error} (refused : m.validate = .error (.refused cause)) :
    ∃ fault : MatrixError, cause = .matrix fault := by
  have within := m.validate_within (P := fun cause => ∃ fault, cause = .matrix fault) fun fault =>
    ⟨fault, rfl⟩
  rwa [refused, Attempt.within_refused] at within

/-- A share is accepted exactly if it is coherent, unless the sum that its rows or its diagonal
columns end at is not a word: then the check aborts. Every other share is refused as a matrix. -/
theorem accepted_iff_coherent (m : RowShare S) (word : m.diagonal.nrows + 1 < Word.limit)
    (word' : m.offDiagonal.nrows + 1 < Word.limit) (rows : m.globalRows < Word.limit)
    (cols : m.globalCols < Word.limit) :
    (assemble m = .ok m ↔ m.Coherent) ∧
    (assemble m = .error .aborted ↔ m.Overruns) ∧
    (¬ m.Coherent → ¬ m.Overruns → ∃ cause : MatrixError, assemble m = .error cause) := by
  have judged := validate_judges word word'
  have parts : assemble m = (m.validate >>= fun _ => .ok m) := rfl
  rw [parts, coherent_iff_valid rows cols]
  refine ⟨Attempt.then_ok_eq_ok_iff.trans judged.eq_ok_iff, ?_, fun invalid within => ?_⟩
  · rw [Attempt.then_ok_eq_error_iff, judged.eq_aborted_iff]
  · obtain ⟨cause, refused⟩ := judged.refuses invalid within
    obtain ⟨fault, rfl⟩ := matrix_of_validate refused
    exact ⟨fault, Attempt.then_ok_eq_error_iff.mpr refused⟩

def lastWord : RowShare Float where
  globalRows := 1
  globalCols := 1
  rowStart := 0xFFFFFFFFFFFFFFFF
  colStart := 0
  diagonal := .ofRows 1 [[]]
  offDiagonal := .ofRows 0 [[]]
  columnMap := #[]

theorem accepted_iff_coherent_either : bothSides.Coherent ∧ lastWord.Overruns ∧
    ∃ cause : MatrixError, assemble { lastWord with rowStart := 1 } = .error cause := by
  refine ⟨?_, ?_, ?_⟩
  · exact (accepted_iff_coherent bothSides (by decide) (by decide) (by decide) (by decide)).1.mp rfl
  · exact (accepted_iff_coherent lastWord (by decide) (by decide) (by decide)
      (by decide)).2.1.mp rfl
  · refine (accepted_iff_coherent { lastWord with rowStart := 1 } (by decide)
      (by decide) (by decide) (by decide)).2.2 (fun coherent => ?_) fun overruns => ?_
    · exact absurd coherent.rowStop_le (by decide)
    · exact absurd overruns.stop (by decide)

/-- A share whose rows end past the last word is neither coherent nor refused. -/
theorem lastWord_not_refused :
    ¬ lastWord.Coherent ∧ ¬ ∃ cause : MatrixError, assemble lastWord = .error cause := by
  refine ⟨fun coherent => absurd coherent.rowStop_le (by decide), ?_⟩
  rintro ⟨cause, refused⟩
  have aborted : assemble lastWord = .error .aborted := rfl
  cases aborted.symm.trans refused

end RowShare
end DeviceTeams
