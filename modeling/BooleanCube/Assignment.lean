import BooleanCube.Literal

/-!
Assignments of values to the three variables. They are the rows of a truth table under another
name: `ofRow` and `row` undo each other.
-/

namespace BooleanCube

structure Assignment where
  x : Bool
  y : Bool
  z : Bool
  deriving DecidableEq, Repr

namespace Assignment

def ofFn (value : Variable → Bool) : Assignment := ⟨value .x, value .y, value .z⟩

def ofRow (row : Row) : Assignment := ofFn fun var => var.bit row

def get (assignment : Assignment) : Variable → Bool
  | .x => assignment.x
  | .y => assignment.y
  | .z => assignment.z

def row (assignment : Assignment) : Row :=
  ⟨4 * assignment.x.toNat + 2 * assignment.y.toNat + assignment.z.toNat, by
    have := assignment.x.toNat_le
    have := assignment.y.toNat_le
    have := assignment.z.toNat_le
    omega⟩

def holds (assignment : Assignment) (literal : Literal) : Bool :=
  assignment.get literal.var != literal.negated

@[simp] theorem row_of_row (row : Row) : (ofRow row).row = row := by revert row; decide

@[simp] theorem of_row_row (assignment : Assignment) : ofRow assignment.row = assignment := by
  rcases assignment with ⟨_ | _, _ | _, _ | _⟩ <;> rfl

@[simp] theorem get_of_row (row : Row) (var : Variable) : (ofRow row).get var = var.bit row := by
  cases var <;> rfl

@[simp] theorem holds_of_row (row : Row) (literal : Literal) :
    (ofRow row).holds literal = literal.eval row := by
  simp [holds, Literal.eval]

end Assignment

end BooleanCube
