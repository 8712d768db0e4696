import BooleanCube.Derivation
import BooleanCube.Expansion.Tree
import BooleanCube.Reading
import BooleanCube.TruthTable

/-!
An expression under edit together with its truth table. Every edit makes the table anew, so what
is read from a session depends on the expression alone.
-/

namespace BooleanCube

structure Session where
  expression : Expression
  table : TruthTable
  deriving DecidableEq, Repr

namespace Session

def empty : Session := ⟨[], .empty⟩

def ofExpression (expression : Expression) : Session := ⟨expression, .generate expression⟩

def read (text : String) : Except ReadError Session := do
  let expression ← Expression.read text
  return .ofExpression expression

def recompute (session : Session) : Session := .ofExpression session.expression

def push (session : Session) (token : Token) : Session :=
  .ofExpression (session.expression.push token)

def pop (session : Session) : Option Token × Session :=
  (session.expression.getLast?, .ofExpression session.expression.dropLast)

def toggleNegation (session : Session) : Session :=
  match session.expression.negateLast? with
  | some expression => .ofExpression expression
  | none => session

def clear (_ : Session) : Session := .ofExpression []

def vector (session : Session) : TruthVector := session.table.vector

def minterms (session : Session) : List Row := session.vector.minterms

def maxterms (session : Session) : List Row := session.vector.maxterms

def canonicalDisjunctive (session : Session) : NormalForm := .canonical .disjunctive session.vector

/-- The canonical conjunction; without tokens it is the empty conjunction, which is true. -/
def canonicalConjunctive (session : Session) : NormalForm :=
  if session.expression.isEmpty then .constant .conjunctive true
  else .canonical .conjunctive session.vector

def minimal (session : Session) (polarity : Polarity) : Minimized :=
  session.vector.minimal polarity

def derive (session : Session) (method : Method) : Derivation := method.derive session.vector

def tree (session : Session) : ExpansionTree := .ofVector session.vector

end Session

end BooleanCube
