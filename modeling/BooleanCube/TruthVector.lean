import BooleanCube.Assignment

/-!
Boolean functions of three variables, given by their eight values.
-/

namespace BooleanCube

def digit (value : Bool) : String := if value then "1" else "0"

/-- The values of a function in the order of the rows. -/
abbrev TruthVector := Vector Bool 8

namespace TruthVector

def ofFn (value : Row → Bool) : TruthVector := Vector.ofFn value

def ofBits (bits : Nat) : TruthVector := ofFn fun row => bits.testBit row

/-- The number whose bit `i` is the value in row `i`. -/
def toBits (vector : TruthVector) : Nat :=
  (Row.all.map fun row => (vector.get row).toNat <<< row.val).foldr (· + ·) 0

def all : List TruthVector := (List.range 256).map ofBits

def minterms (vector : TruthVector) : List Row := Row.all.filter fun row => vector.get row

def maxterms (vector : TruthVector) : List Row := Row.all.filter fun row => !vector.get row

def render (vector : TruthVector) : String := String.join (vector.toList.map digit)

@[simp] theorem get_of_fn (value : Row → Bool) (row : Row) : (ofFn value).get row = value row :=
  Vector.getElem_ofFn row.isLt

end TruthVector

end BooleanCube
