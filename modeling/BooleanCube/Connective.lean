import BooleanCube.Text.CharClass
import BooleanCube.Text.Quoted

/-!
The eight binary connectives: truth functions, precedence and spellings. One list of spellings
serves the reader of a single name and the reader of whole expressions.
-/

namespace BooleanCube

inductive Connective where
  | and | or | xor | nor | nand | implies | reverseImplies | xnor
  deriving DecidableEq, Repr, Inhabited

namespace Connective

def apply : Connective → Bool → Bool → Bool
  | and, a, b => a && b
  | or, a, b => a || b
  | xor, a, b => a != b
  | nor, a, b => !(a || b)
  | nand, a, b => !(a && b)
  | implies, a, b => !a || b
  | reverseImplies, a, b => a || !b
  | xnor, a, b => a == b

/-- Conjunction binds tightest, then disjunction; all others share the loosest class. -/
def precedence : Connective → Nat
  | and => 2
  | or => 1
  | _ => 0

def precedences : List Nat := [2, 1, 0]

def symbol : Connective → Char
  | and => '∧'
  | or => '∨'
  | xor => '⊕'
  | nor => '↓'
  | nand => '↑'
  | implies => '→'
  | reverseImplies => '←'
  | xnor => '↔'

/-- Every spelling, in lower case. One that begins with another stands before it. -/
def vocabulary : List (List Char × Connective) :=
  [(['n', 'a', 'n', 'd'], nand), (['r', 'i', 'm', 'p'], reverseImplies),
    (['x', 'n', 'o', 'r'], xnor), (['a', 'n', 'd'], and), (['x', 'o', 'r'], xor),
    (['n', 'o', 'r'], nor), (['i', 'm', 'p'], implies), (['<', '-', '>'], xnor),
    (['o', 'r'], or), (['-', '>'], implies), (['<', '-'], reverseImplies), (['&'], and),
    (['|'], or), (['^'], xor), (['∧'], and), (['∨'], or), (['⊕'], xor), (['↓'], nor),
    (['↑'], nand), (['→'], implies), (['←'], reverseImplies), (['↔'], xnor)]

def ofSpelling? (text : List Char) : Option Connective :=
  vocabulary.lookup (text.map Char.toLower)

structure Unknown where
  text : String
  deriving DecidableEq, Repr

def Unknown.message (unknown : Unknown) : String :=
  "unknown operator: " ++ Text.quoteString unknown.text

def read (text : String) : Except Unknown Connective :=
  let spelling := Text.trim text.toList
  match ofSpelling? spelling with
  | some op => .ok op
  | none => .error ⟨String.ofList spelling⟩

end Connective

end BooleanCube
