import BooleanCube.NormalForm

/-!
Subcubes of the cube of rows, as a pattern of bits with some bits left free. Value and mask are
whole bytes, and nothing clears the bits of the value under the mask.
-/

namespace BooleanCube

def Row.byte (row : Row) : BitVec 8 := BitVec.ofNat 8 row.val

structure Cube where
  value : BitVec 8
  mask : BitVec 8
  deriving DecidableEq, Repr

namespace Cube

def weight (byte : BitVec 8) : Nat := (List.range 8).countP fun place => byte.getLsbD place

def ofRow (row : Row) : Cube := ⟨row.byte, 0⟩

def whole : Cube := ⟨0, 0b111⟩

def ones (cube : Cube) : Nat := weight cube.value

/-- Whether an index agrees with the pattern in all bits that are not free. -/
def covers (cube : Cube) (index : BitVec 8) : Bool := index &&& ~~~cube.mask = cube.value

/-- The union of two cubes with the same free bits whose patterns differ in a single other bit. -/
def combine (cube other : Cube) : Option Cube :=
  let difference := cube.value ^^^ other.value
  if cube.mask = other.mask ∧ weight difference = 1 ∧ difference &&& cube.mask = 0 then
    some ⟨cube.value &&& other.value, cube.mask ||| difference⟩
  else none

def bit? (cube : Cube) (var : Variable) : Option Bool :=
  if cube.mask.getLsbD var.shift then none else some (cube.value.getLsbD var.shift)

/-- The literals of the fixed variables. A product is true exactly inside the cube of its rows, a
clause is false exactly there, so the signs are opposite. -/
def term (cube : Cube) (polarity : Polarity) : Term :=
  Variable.all.filterMap fun var => (cube.bit? var).map fun bit =>
    match polarity with
    | .disjunctive => ⟨var, !bit⟩
    | .conjunctive => ⟨var, bit⟩

def termText (polarity : Polarity) (cube : Cube) : String :=
  polarity.renderTerm (cube.term polarity)

/-- The pattern from `x` to `z`, with a dash for a free bit. -/
def render (cube : Cube) : String :=
  String.join (Variable.all.map fun var => ((cube.bit? var).map digit).getD "-")

def compare (cube other : Cube) : Ordering :=
  (Ord.compare cube.value.toNat other.value.toNat).then
    (Ord.compare cube.mask.toNat other.mask.toNat)

/-- Puts a cube into its place in the order of patterns, unless it is there already. -/
def insertOrdered (cube : Cube) : List Cube → List Cube
  | [] => [cube]
  | other :: rest =>
      match cube.compare other with
      | .lt => cube :: other :: rest
      | .eq => other :: rest
      | .gt => other :: insertOrdered cube rest

def ordered (cubes : List Cube) : List Cube := cubes.foldr insertOrdered []

end Cube

end BooleanCube
