import BooleanCube.TruthVector

/-!
Cofactors: what is left of a function of three variables when one of them is fixed.
-/

namespace BooleanCube

/-- A function of the two variables other than the fixed one. The value for `a` and `b`, in the
order `x`, `y`, `z`, stands at the place `2a + b`. -/
structure Cofactor where
  fixed : Variable
  value : Bool
  values : Vector Bool 4
  deriving DecidableEq, Repr

namespace Cofactor

/-- The row where `fixed` has the given value and the other variables have the bits of `place`. -/
def rowAt (fixed : Variable) (value : Bool) (place : Fin 4) : Row :=
  Assignment.row <| .ofFn fun var =>
    if var = fixed then value
    else if var = fixed.others.1 then place.val.testBit 1
    else place.val.testBit 0

/-- The place that a row has among the values of a cofactor; the fixed variable does not count. -/
def placeOf (fixed : Variable) (row : Row) : Fin 4 :=
  ⟨2 * (fixed.others.1.bit row).toNat + (fixed.others.2.bit row).toNat, by
    have := (fixed.others.1.bit row).toNat_le
    have := (fixed.others.2.bit row).toNat_le
    omega⟩

def ofVector (vector : TruthVector) (fixed : Variable) (value : Bool) : Cofactor :=
  ⟨fixed, value, .ofFn fun place => vector.get (rowAt fixed value place)⟩

def eval (cofactor : Cofactor) (row : Row) : Bool :=
  cofactor.values.get (placeOf cofactor.fixed row)

def rows (cofactor : Cofactor) : List Row :=
  Row.all.filter fun row => cofactor.fixed.bit row = cofactor.value

/-- The cofactor as a call of the function, such as `f(1,y,z)`. -/
def signature (cofactor : Cofactor) : String :=
  let arguments := Variable.all.map fun var =>
    if var = cofactor.fixed then digit cofactor.value else var.name
  "f(" ++ ",".intercalate arguments ++ ")"

/-- The values with their arguments, such as `yz=10 → 1`. -/
def listing (cofactor : Cofactor) : String :=
  let (a, b) := cofactor.fixed.others
  ", ".intercalate <| (List.finRange 4).map fun place =>
    a.name ++ b.name ++ "=" ++ digit (place.val.testBit 1) ++ digit (place.val.testBit 0) ++
      " → " ++ digit (cofactor.values.get place)

def products (cofactor : Cofactor) : List String :=
  let (a, b) := cofactor.fixed.others
  ((List.finRange 4).filter fun place => cofactor.values.get place).map fun place =>
    let left : Literal := ⟨a, !place.val.testBit 1⟩
    let right : Literal := ⟨b, !place.val.testBit 0⟩
    left.render ++ "∧" ++ right.render

def render (cofactor : Cofactor) : String :=
  if cofactor.products.isEmpty then digit false else " ∨ ".intercalate cofactor.products

theorem row_at_place_of (fixed : Variable) (row : Row) :
    rowAt fixed (fixed.bit row) (placeOf fixed row) = row := by
  cases fixed <;> revert row <;> decide

end Cofactor

end BooleanCube
