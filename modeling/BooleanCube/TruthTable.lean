import BooleanCube.Evaluation
import BooleanCube.TruthVector

/-!
Truth tables with a column for every step on the way to the value: the negations, the connectives
between neighbouring literals, and the leading parts of the expression.
-/

namespace BooleanCube

inductive Step where
  | negation (var : Variable)
  | pair (left : Literal) (op : Connective) (right : Literal)
  | leading (tokens : Expression)
  deriving DecidableEq, Repr

namespace Step

def label : Step → String
  | negation var => (Literal.negative var).render
  | pair left op right => left.render ++ op.symbol.toString ++ right.render
  | leading tokens => tokens.render

def evaluate (assignment : Assignment) : Step → Bool
  | negation var => !assignment.get var
  | pair left op right => op.apply (assignment.holds left) (assignment.holds right)
  | leading tokens => tokens.evaluate assignment

end Step

namespace Expression

/-- The variables that occur negated, each once, in the order of their first negation. -/
def negated (expression : Expression) : List Variable :=
  (expression.filterMap fun
    | .operand ⟨var, true⟩ => some var
    | _ => none).eraseDups

/-- The literals on both sides of a connective, for every place where two literals
meet so. -/
def pairs : Expression → List (Literal × Connective × Literal)
  | [] => []
  | token :: rest =>
      match token, rest with
      | .operand left, .connective op :: .operand right :: _ => (left, op, right) :: pairs rest
      | _, _ => pairs rest

/-- The steps between neighbouring literals, tightest connectives first. -/
def pairSteps (expression : Expression) : List Step :=
  Connective.precedences.flatMap fun precedence =>
    (expression.pairs.filter fun (_, op, _) => op.precedence = precedence).map
      fun (left, op, right) => .pair left op right

/-- The leading parts of three tokens and more, short of the whole. -/
def leadingParts (expression : Expression) : List Expression :=
  (List.range' 3 (expression.length - 3)).map fun count => expression.take count

/-- The parts with labels longer than three characters that are new, to `seen` as well as among
themselves. -/
def unseen (seen : List String) : List Expression → List Expression
  | [] => []
  | part :: rest =>
      if 3 < part.render.length && !seen.contains part.render then
        part :: unseen (part.render :: seen) rest
      else unseen seen rest

/-- The steps of an expression. A leading part is a step of its own only if no step before it has
its label. -/
def steps (expression : Expression) : List Step :=
  let small := expression.negated.map .negation ++ expression.pairSteps
  small ++ (unseen (small.map Step.label) expression.leadingParts).map .leading

end Expression

structure Column where
  label : String
  values : TruthVector
  deriving DecidableEq, Repr

/-- A table and, beside its columns, the labels that stand above them. -/
structure TruthTable where
  vector : TruthVector
  columns : List Column
  labels : List String
  deriving DecidableEq, Repr

namespace TruthTable

def empty : TruthTable := ⟨.ofFn fun _ => false, [], []⟩

def ofStep (step : Step) : Column :=
  ⟨step.label, .ofFn fun row => step.evaluate (.ofRow row)⟩

def generate (expression : Expression) : TruthTable :=
  let steps := expression.steps
  ⟨.ofFn fun row => expression.evaluate (.ofRow row), steps.map ofStep, steps.map Step.label⟩

@[simp] theorem get_step_values (step : Step) (row : Row) :
    (ofStep step).values.get row = step.evaluate (.ofRow row) :=
  TruthVector.get_of_fn _ row

@[simp] theorem vector_generate (expression : Expression) (row : Row) :
    (generate expression).vector.get row = expression.evaluate (.ofRow row) :=
  TruthVector.get_of_fn _ row

end TruthTable

end BooleanCube
