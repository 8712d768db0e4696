import BooleanCube.Connective
import BooleanCube.Literal

/-!
Expressions as flat lists of tokens. Any list is an expression: nothing demands that operands and
connectives alternate or that parentheses match.
-/

namespace BooleanCube

inductive Token where
  | operand (literal : Literal)
  | connective (op : Connective)
  | opening
  | closing
  deriving DecidableEq, Repr

def Token.render : Token → String
  | .operand literal => literal.render
  | .connective op => op.symbol.toString
  | .opening => "("
  | .closing => ")"

abbrev Expression := List Token

namespace Expression

def render (expression : Expression) : String := String.join (expression.map Token.render)

def push (expression : Expression) (token : Token) : Expression := expression ++ [token]

/-- Negates the literal that was written last; `none` if the expression has no literal. -/
def negateLast? : Expression → Option Expression
  | [] => none
  | token :: rest =>
      match negateLast? rest, token with
      | some rest, _ => some (token :: rest)
      | none, .operand literal => some (.operand literal.negate :: rest)
      | none, _ => none

end Expression

end BooleanCube
