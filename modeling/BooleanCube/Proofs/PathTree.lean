import BooleanCube.Expansion.Tree
import BooleanCube.Proofs.Rows

/-!
# Expansion trees along their paths

A tree is grown from any path and any list of variables, in whatever order and with whatever
repeats. If every variable is on the path or still to come, the tree has the value of the function
in every row of the path. Nothing is said of rows off the path.
-/

namespace BooleanCube

namespace ExpansionTree

def OnPath (path : Term) (row : Row) : Prop := ∀ literal ∈ path, literal.eval row = true

def Exhaustive (remaining : List Variable) (path : Term) : Prop :=
  ∀ var, var ∈ remaining ∨ ∃ literal ∈ path, literal.var = var

variable {vector : TruthVector} {path : Term} {row : Row}

theorem OnPath.extend {literal : Literal} (onPath : OnPath path row)
    (holds : literal.eval row = true) : OnPath (path ++ [literal]) row := by
  intro other member
  rcases List.mem_append.mp member with before | last
  · exact onPath other before
  · rw [List.mem_singleton.mp last, holds]

theorem Exhaustive.extend {literal : Literal} {remaining : List Variable}
    (exhaustive : Exhaustive (literal.var :: remaining) path) :
    Exhaustive remaining (path ++ [literal]) := by
  intro var
  rcases exhaustive var with waiting | done
  · rcases List.mem_cons.mp waiting with same | later
    · exact .inr ⟨literal, List.mem_append_right path List.mem_cons_self, same.symm⟩
    · exact .inl later
  · rcases done with ⟨other, member, same⟩
    exact .inr ⟨other, List.mem_append_left [literal] member, same⟩

/-- A path with all variables on it leads to one row at most. -/
theorem OnPath.unique {other : Row} (exhaustive : Exhaustive [] path) (onPath : OnPath path row)
    (otherOnPath : OnPath path other) : other = row := by
  apply Row.eq_of_bits
  intro var
  rcases (exhaustive var).resolve_left List.not_mem_nil with ⟨literal, member, rfl⟩
  have agree : literal.eval other = literal.eval row :=
    (otherOnPath literal member).trans (onPath literal member).symm
  simpa [Literal.eval] using agree

theorem mem_values_on {value : Bool} :
    value ∈ valuesOn vector path ↔ ∃ row : Row, OnPath path row ∧ vector.get row = value := by
  rw [valuesOn, List.mem_map]
  apply exists_congr
  intro row
  rw [List.mem_filter, List.all_eq_true]
  exact and_congr_left fun _ => and_iff_right (Row.mem_all row)

theorem first_of_constant (onPath : OnPath path row)
    (constant : ∀ value ∈ valuesOn vector path, value = (valuesOn vector path).headD false) :
    (valuesOn vector path).headD false = vector.get row :=
  (constant _ (mem_values_on.mpr ⟨row, onPath, rfl⟩)).symm

/-- With no variable to come the values on the path are those of a single row. -/
theorem first_of_exhaustive (exhaustive : Exhaustive [] path) (onPath : OnPath path row) :
    (valuesOn vector path).headD false = vector.get row := by
  have present : vector.get row ∈ valuesOn vector path := mem_values_on.mpr ⟨row, onPath, rfl⟩
  have single : ∀ value ∈ valuesOn vector path, value = vector.get row := by
    intro value member
    rcases mem_values_on.mp member with ⟨other, otherOnPath, rfl⟩
    rw [onPath.unique exhaustive otherOnPath]
  cases values : valuesOn vector path with
  | nil =>
      rw [values] at present
      cases present
  | cons first rest =>
      rw [values] at single
      exact single first List.mem_cons_self

theorem eval_grow (vector : TruthVector) (remaining : List Variable) {path : Term} {row : Row}
    (exhaustive : Exhaustive remaining path) (onPath : OnPath path row) :
    (grow vector remaining path).eval row = vector.get row := by
  induction remaining generalizing path with
  | nil => exact first_of_exhaustive exhaustive onPath
  | cons pivot remaining ih =>
      rw [grow]
      split
      · next constant =>
          apply first_of_constant onPath
          intro value member
          exact eq_of_beq (List.all_eq_true.mp constant value member)
      · rw [eval]
        -- The row stays on the path of the child that its bit leads to.
        cases bit : pivot.bit row with
        | true =>
            have holds : (Literal.plain pivot).eval row = true := by
              rw [Literal.eval, Literal.plain, bit]
              rfl
            exact ih exhaustive.extend (onPath.extend holds)
        | false =>
            have holds : (Literal.negative pivot).eval row = true := by
              rw [Literal.eval, Literal.negative, bit]
              rfl
            exact ih exhaustive.extend (onPath.extend holds)

theorem expand_of_vector (vector : TruthVector) : (ofVector vector).expand = vector := by
  apply TruthVector.of_fn_eq
  intro row
  apply eval_grow
  · intro var
    exact .inl var.mem_all
  · intro literal member
    cases member

end ExpansionTree

end BooleanCube
