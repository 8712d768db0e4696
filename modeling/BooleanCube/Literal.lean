import BooleanCube.Variable

/-!
Literals: a variable or its negation. A negated variable is written as its letter with a macron.
-/

namespace BooleanCube

/-- The combining macron, which follows the letter that it negates. -/
def macron : Char := '\u0304'

structure Literal where
  var : Variable
  negated : Bool
  deriving DecidableEq, Repr

namespace Literal

def plain (var : Variable) : Literal := ⟨var, false⟩

def negative (var : Variable) : Literal := ⟨var, true⟩

def negate (literal : Literal) : Literal := { literal with negated := !literal.negated }

def eval (literal : Literal) (row : Row) : Bool := literal.var.bit row != literal.negated

def render (literal : Literal) : String :=
  if literal.negated then literal.var.name.push macron else literal.var.name

end Literal

end BooleanCube
