import BooleanCube.Expression
import BooleanCube.Lexeme

/-!
Reading expressions. The parts of the text are taken in order; negation signs wait for the next
variable, and a macron negates the variable right before it.
-/

namespace BooleanCube

/-- Why a text is no expression. Offsets count bytes in UTF-8. -/
inductive ReadError where
  | unexpected (char : Char) (offset : Nat)
  | negatedConnective (offset : Nat)
  | strayMacron (offset : Nat)
  | danglingNegation
  deriving DecidableEq, Repr

namespace ReadError

def message : ReadError → String
  | unexpected char offset => "unexpected " ++ Text.quoteChar char ++ s!" at byte {offset}"
  | negatedConnective offset => s!"negation before operator at byte {offset}"
  | strayMacron offset => s!"negation mark without a variable at byte {offset}"
  | danglingNegation => "dangling negation at end of input"

/-- What lies behind the error: a mark that nothing else claims is read as a variable. -/
def causes : ReadError → List String
  | unexpected char _ => [Variable.Unknown.message ⟨char.toString⟩]
  | _ => []

end ReadError

/-- The state of reading: the tokens so far, the latest first, whether an odd number of negation
signs waits for a variable, and the number of bytes behind. -/
structure Reading where
  tokens : List Token
  negating : Bool
  offset : Nat
  deriving DecidableEq, Repr

namespace Reading

def start : Reading := ⟨[], false, 0⟩

def negationSigns : List Char := ['!', '~', '¬']

def push (reading : Reading) (token : Token) : Reading :=
  { reading with tokens := token :: reading.tokens }

def takeMark (reading : Reading) (char : Char) : Except ReadError Reading :=
  if char ∈ negationSigns then .ok { reading with negating := !reading.negating }
  else if char = '(' then .ok (reading.push .opening)
  else if char = ')' then .ok (reading.push .closing)
  else if char = macron then
    match reading.tokens with
    | .operand literal :: earlier =>
        .ok { reading with tokens := .operand literal.negate :: earlier }
    | _ => .error (.strayMacron reading.offset)
  else
    match Variable.ofLetter? char with
    | some var => .ok { reading.push (.operand ⟨var, reading.negating⟩) with negating := false }
    | none => .error (.unexpected char reading.offset)

/-- What one part adds. White space adds nothing and keeps a negation waiting. -/
def take (reading : Reading) : Lexeme → Except ReadError Reading
  | .blank _ => .ok reading
  | .connective op _ =>
      if reading.negating then .error (.negatedConnective reading.offset)
      else .ok (reading.push (.connective op))
  | .mark char => reading.takeMark char

def step (reading : Reading) (part : Lexeme) : Except ReadError Reading := do
  let taken ← reading.take part
  return { taken with offset := reading.offset + part.size }

def finish (reading : Reading) : Except ReadError Expression :=
  if reading.negating then .error .danglingNegation else .ok reading.tokens.reverse

end Reading

/-- Reads an expression, such as `x & !y | z`. -/
def Expression.read (text : String) : Except ReadError Expression := do
  let last ← (Lexeme.scan none text.toList).foldlM Reading.step Reading.start
  last.finish

end BooleanCube
