import BooleanCube.TruthVector

/-!
# Rows, variables and functions

A row is known by the bits of its variables, and a function by its values in the rows.
-/

namespace BooleanCube

theorem Variable.mem_all (var : Variable) : var ∈ Variable.all := by cases var <;> decide

theorem Variable.exists_shift {place : Nat} (low : place < 3) :
    ∃ var : Variable, var.shift = place := by
  have cases : place = 0 ∨ place = 1 ∨ place = 2 := by omega
  rcases cases with rfl | rfl | rfl
  · exact ⟨.z, rfl⟩
  · exact ⟨.y, rfl⟩
  · exact ⟨.x, rfl⟩

theorem Variable.shift_lt (var : Variable) : var.shift < 3 := by cases var <;> decide

theorem Variable.shift_inj {left right : Variable} (same : left.shift = right.shift) :
    left = right := by
  cases left <;> cases right <;> first | rfl | cases same

theorem Assignment.get_of_fn (value : Variable → Bool) (var : Variable) :
    (ofFn value).get var = value var := by
  cases var <;> rfl

theorem Assignment.bit_row (assignment : Assignment) (var : Variable) :
    var.bit assignment.row = assignment.get var := by
  rw [← get_of_row, of_row_row]

theorem Row.mem_all (row : Row) : row ∈ Row.all := List.mem_finRange row

theorem Row.eq_of_bits {row other : Row} (same : ∀ var : Variable, var.bit other = var.bit row) :
    other = row := by
  have assigned : Assignment.ofRow other = Assignment.ofRow row := by
    rw [Assignment.ofRow, Assignment.ofFn, same, same, same]
    rfl
  rw [← Assignment.row_of_row other, assigned, Assignment.row_of_row]

namespace TruthVector

theorem of_fn_eq {vector : TruthVector} {value : Row → Bool}
    (same : ∀ row : Row, value row = vector.get row) : ofFn value = vector := by
  apply Vector.ext
  intro index bound
  have entry := get_of_fn value ⟨index, bound⟩
  rw [same] at entry
  exact entry

theorem minterms_maxterms_perm (vector : TruthVector) :
    (vector.minterms ++ vector.maxterms).Perm Row.all :=
  List.filter_append_perm (fun row => vector.get row) Row.all

end TruthVector

end BooleanCube
