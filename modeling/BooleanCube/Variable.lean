import BooleanCube.Text.CharClass
import BooleanCube.Text.Quoted

/-!
The three inputs of a Boolean function, and the rows of its truth table. The number of a row is
`4x + 2y + z`, so each variable owns one bit of it.
-/

namespace BooleanCube

/-- A row of a truth table over three inputs. -/
abbrev Row := Fin 8

def Row.all : List Row := List.finRange 8

def Row.ofIndex (index : Nat) : Row := Fin.ofNat 8 index

inductive Variable where
  | x | y | z
  deriving DecidableEq, Repr, Inhabited

namespace Variable

def all : List Variable := [x, y, z]

/-- The place of the variable's bit in the number of a row. -/
def shift : Variable → Nat
  | x => 2
  | y => 1
  | z => 0

def bit (var : Variable) (row : Row) : Bool := row.val.testBit var.shift

def letter : Variable → Char
  | x => 'x'
  | y => 'y'
  | z => 'z'

def name (var : Variable) : String := var.letter.toString

/-- The two variables left when this one is fixed, in the order `x`, `y`, `z`. -/
def others : Variable → Variable × Variable
  | x => (y, z)
  | y => (x, z)
  | z => (x, y)

def ofLetter? : Char → Option Variable
  | 'x' | 'X' => some x
  | 'y' | 'Y' => some y
  | 'z' | 'Z' => some z
  | _ => none

structure Unknown where
  text : String
  deriving DecidableEq, Repr

def Unknown.message (unknown : Unknown) : String :=
  "unknown variable: " ++ Text.quoteString unknown.text

/-- Reads the name of a variable; white space around it does not matter. -/
def read (text : String) : Except Unknown Variable :=
  let name := Text.trim text.toList
  let named? := match name with
    | [c] => ofLetter? c
    | _ => none
  match named? with
  | some var => .ok var
  | none => .error ⟨String.ofList name⟩

end Variable

end BooleanCube
