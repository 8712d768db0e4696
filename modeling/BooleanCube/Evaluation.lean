import BooleanCube.Assignment
import BooleanCube.Expression

/-!
The value of an expression under an assignment, found in one pass over its tokens with a stack of
operands and a stack of connectives. Parentheses do not group. Every list of tokens has a value: a
connective that finds fewer than two operands is dropped in the end, and without any operand the
value is `false`.
-/

namespace BooleanCube

/-- Two stacks, tops first: values already known, and connectives that wait for an operand. -/
structure Machine where
  operands : List Bool
  waiting : List Connective
  deriving DecidableEq, Repr

namespace Machine

def start : Machine := ⟨[], []⟩

/-- Puts `op` on the stack after applying what binds at least as tightly. Nothing is applied to
fewer than two operands. -/
def shift (op : Connective) : List Connective → List Bool → Machine
  | top :: waiting, b :: a :: operands =>
      if op.precedence ≤ top.precedence then shift op waiting (top.apply a b :: operands)
      else ⟨b :: a :: operands, op :: top :: waiting⟩
  | waiting, operands => ⟨operands, op :: waiting⟩

/-- Applies the connectives still waiting, the latest first, and drops those without operands. -/
def drain : List Connective → List Bool → List Bool
  | op :: waiting, b :: a :: operands => drain waiting (op.apply a b :: operands)
  | _ :: waiting, operands => drain waiting operands
  | [], operands => operands

def step (assignment : Assignment) (machine : Machine) : Token → Machine
  | .operand literal =>
      { machine with operands := assignment.holds literal :: machine.operands }
  | .connective op => shift op machine.waiting machine.operands
  | .opening | .closing => machine

def finish (machine : Machine) : List Bool := drain machine.waiting machine.operands

end Machine

namespace Expression

def operands (expression : Expression) (assignment : Assignment) : List Bool :=
  (expression.foldl (Machine.step assignment) Machine.start).finish

/-- The value of an expression: the operand on top, or `false` if there is none. -/
def evaluate (expression : Expression) (assignment : Assignment) : Bool :=
  (expression.operands assignment).headD false

end Expression

end BooleanCube
