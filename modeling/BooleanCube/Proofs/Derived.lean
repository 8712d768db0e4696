import BooleanCube.Expansion
import BooleanCube.Proofs.MinimalForm

/-!
# What is derived from a function

Every form derived from a function denotes it: the expansion by one variable, the canonical forms
and the minimal forms. A canonical form is made of the cubes of single rows, so it is evaluated like
any form made of cubes.
-/

namespace BooleanCube

namespace Expansion

theorem cofactor_eval (vector : TruthVector) (pivot : Variable) (row : Row) :
    (Cofactor.ofVector vector pivot (pivot.bit row)).eval row = vector.get row := by
  have entry : (Cofactor.ofVector vector pivot (pivot.bit row)).eval row =
      vector.get (Cofactor.rowAt pivot (pivot.bit row) (Cofactor.placeOf pivot row)) :=
    Vector.getElem_ofFn (Cofactor.placeOf pivot row).isLt
  rw [entry, Cofactor.row_at_place_of]

theorem reconstruct_of_vector (vector : TruthVector) (pivot : Variable) :
    (ofVector vector pivot).reconstruct = vector := by
  apply TruthVector.of_fn_eq
  intro row
  have taken := cofactor_eval vector pivot row
  rw [ofVector]
  cases bit : pivot.bit row with
  | true => rw [bit] at taken; exact taken
  | false => rw [bit] at taken; exact taken

end Expansion

theorem Polarity.mem_rows {polarity : Polarity} {vector : TruthVector} {row : Row} :
    row ∈ polarity.rows vector ↔ vector.get row = !polarity.unit := by
  cases polarity with
  | disjunctive =>
      rw [rows, TruthVector.minterms, List.mem_filter]
      exact and_iff_right (Row.mem_all row)
  | conjunctive =>
      rw [rows, TruthVector.maxterms, List.mem_filter, Bool.not_eq_true']
      exact and_iff_right (Row.mem_all row)

theorem Polarity.mem_row_set {polarity : Polarity} {vector : TruthVector} {row : Row} :
    row ∈ (polarity.rows vector).toFinset ↔ vector.get row = !polarity.unit := by
  rw [List.mem_toFinset, mem_rows]

theorem Polarity.rows_sublist (polarity : Polarity) (vector : TruthVector) :
    (polarity.rows vector).Sublist Row.all := by
  cases polarity <;> exact List.filter_sublist

theorem Polarity.value_of_rows (polarity : Polarity) (vector : TruthVector) (row : Row) :
    (decide (row ∈ polarity.rows vector) != polarity.unit) = vector.get row := by
  simp only [mem_rows]
  cases vector.get row <;> cases polarity <;> rfl

namespace NormalForm

theorem eval_constant (polarity : Polarity) (value : Bool) (row : Row) :
    (constant polarity value).eval row = value := by
  cases polarity <;> cases value <;> rfl

theorem term_of_row (polarity : Polarity) (row : Row) :
    (Cube.ofRow row).term polarity = polarity.rowTerm row := by
  cases polarity <;> revert row <;> decide

theorem eval_row_terms (polarity : Polarity) (rows : List Row) (row : Row) :
    eval ⟨polarity, rows.map polarity.rowTerm⟩ row = (decide (row ∈ rows) != polarity.unit) := by
  have terms : rows.map polarity.rowTerm =
      (rows.map Cube.ofRow).map fun cube => cube.term polarity := by
    rw [List.map_map]
    exact List.map_congr_left fun other _ => (term_of_row polarity other).symm
  have proper : ∀ cube ∈ rows.map Cube.ofRow, cube.Proper := by
    intro cube member
    rcases List.mem_map.mp member with ⟨other, -, rfl⟩
    exact Cube.of_row_proper other
  have covered : (rows.map Cube.ofRow).any (fun cube => cube.covers row.byte) =
      decide (row ∈ rows) := by
    rw [Bool.eq_iff_iff, List.any_map, List.any_eq_true, decide_eq_true_iff]
    constructor
    · intro some
      rcases some with ⟨other, member, covers⟩
      rw [Cube.mem_extent_of_row.mp (Cube.mem_extent.mpr covers)]
      exact member
    · intro member
      exact ⟨row, member, Cube.mem_extent.mp (Cube.mem_extent_of_row.mpr rfl)⟩
  rw [terms, Cube.eval_form polarity proper, covered]

theorem canonical_truth_vector (polarity : Polarity) (vector : TruthVector) :
    (canonical polarity vector).truthVector = vector := by
  apply TruthVector.of_fn_eq
  intro row
  rw [← polarity.value_of_rows vector row, canonical]
  split
  · next none =>
      rw [eval_constant, List.length_eq_zero_iff.mp none, decide_eq_false List.not_mem_nil,
        Bool.false_bne]
  · split
    · next every =>
        have full := (polarity.rows_sublist vector).eq_of_length every
        rw [eval_constant, full, decide_eq_true row.mem_all, Bool.true_bne]
    · exact eval_row_terms polarity _ row

end NormalForm

namespace TruthVector

/-- The minimal form of a function is made of the prime cubes of the rows that it speaks of. -/
theorem minimal_exact (vector : TruthVector) (polarity : Polarity) :
    (vector.minimal polarity).Exact (polarity.rows vector).toFinset polarity := by
  have listed : Minimized.listed ((polarity.rows vector).map Fin.val) =
      (polarity.rows vector).toFinset := by
    ext row
    rw [Minimized.mem_listed, List.mem_map_of_injective Fin.val_injective, List.mem_toFinset]
  rw [← listed]
  exact Minimized.minimize_exact _ polarity

theorem mem_primes_iff {vector : TruthVector} {polarity : Polarity} {cube : Cube} :
    cube ∈ (vector.minimal polarity).primes ↔ cube.Prime (polarity.rows vector).toFinset :=
  (vector.minimal_exact polarity).mem_primes cube

theorem minimal_truth_vector (vector : TruthVector) (polarity : Polarity) :
    (vector.minimal polarity).form.truthVector = vector := by
  apply of_fn_eq
  intro row
  rw [← polarity.value_of_rows vector row, ← decide_eq_decide.mpr List.mem_toFinset]
  exact (vector.minimal_exact polarity).eval row

end TruthVector

end BooleanCube
