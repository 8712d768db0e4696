import BooleanCube.Cofactor

/-!
The expansion of a function by one variable: the function is its high cofactor where the variable
is true and its low cofactor elsewhere.
-/

namespace BooleanCube

structure Expansion where
  pivot : Variable
  high : Cofactor
  low : Cofactor
  deriving DecidableEq, Repr

namespace Expansion

def ofVector (vector : TruthVector) (pivot : Variable) : Expansion :=
  ⟨pivot, .ofVector vector pivot true, .ofVector vector pivot false⟩

def reconstruct (expansion : Expansion) : TruthVector :=
  .ofFn fun row =>
    if expansion.pivot.bit row then expansion.high.eval row else expansion.low.eval row

def equation (expansion : Expansion) (high low : String) : String :=
  "f(x,y,z) = " ++ (Literal.plain expansion.pivot).render ++ "∧" ++ high ++ " ∨ " ++
    (Literal.negative expansion.pivot).render ++ "∧" ++ low

def oneLine (expansion : Expansion) : String :=
  expansion.equation ("(" ++ expansion.high.render ++ ")") ("(" ++ expansion.low.render ++ ")")

def cofactorLines (expansion : Expansion) (cofactor : Cofactor) : List String :=
  let rows := ", ".intercalate (cofactor.rows.map fun row => toString row.val)
  ["Cofactor " ++ expansion.pivot.name ++ " = " ++ digit cofactor.value ++ ": rows " ++ rows,
    "  " ++ cofactor.signature ++ ": " ++ cofactor.listing,
    "  " ++ cofactor.signature ++ " = " ++ cofactor.render]

/-- How the expansion is found: the equation to fill in, both cofactors and the result. -/
def steps (expansion : Expansion) : List String :=
  ["Shannon expansion by " ++ expansion.pivot.name ++ ":",
    expansion.equation expansion.high.signature expansion.low.signature] ++
  expansion.cofactorLines expansion.high ++ expansion.cofactorLines expansion.low ++
  ["Result: " ++ expansion.oneLine]

end Expansion

end BooleanCube
