import BooleanCube.Expansion
import BooleanCube.Minimization

/-!
Ways to derive an expression from the values of a function, with the steps that explain it.
-/

namespace BooleanCube

structure Derivation where
  expression : String
  steps : List String
  deriving DecidableEq, Repr

/-- What to derive. The variable of an expansion is given by a name, which may be no variable's. -/
inductive Method where
  | minimal (polarity : Polarity)
  | expansion (variableName : String)
  deriving DecidableEq, Repr

namespace Method

def name : Method → String
  | minimal polarity => "minimal " ++ polarity.acronym
  | expansion variableName => "Shannon expansion by " ++ variableName

/-- The derivation for a function. An expansion by a name that is no variable's says so. -/
def derive (vector : TruthVector) : Method → Derivation
  | minimal polarity =>
      let minimized := vector.minimal polarity
      ⟨minimized.expression, minimized.trace⟩
  | expansion variableName =>
      match Variable.all.find? fun pivot => pivot.name = variableName with
      | some pivot =>
          let expansion := Expansion.ofVector vector pivot
          ⟨expansion.oneLine, expansion.steps⟩
      | none =>
          let refusal := "Invalid variable: " ++ variableName
          ⟨refusal, [refusal]⟩

end Method

end BooleanCube
