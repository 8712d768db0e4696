/-!
Classes of characters as lists of inclusive code point ranges, and the two small classes: white
space, and the letters of the ASCII alphabet.
-/

namespace BooleanCube.Text

def within (ranges : List (Nat × Nat)) (char : Char) : Bool :=
  ranges.any fun (low, high) => low ≤ char.toNat && char.toNat ≤ high

/-- The characters with the property White_Space. -/
def blankRanges : List (Nat × Nat) :=
  [(0x9, 0xd), (0x20, 0x20), (0x85, 0x85), (0xa0, 0xa0), (0x1680, 0x1680), (0x2000, 0x200a),
    (0x2028, 0x2029), (0x202f, 0x202f), (0x205f, 0x205f), (0x3000, 0x3000)]

def isBlank (char : Char) : Bool := within blankRanges char

/-- Letters are those of the ASCII alphabet, in either case. -/
def isLetter (char : Char) : Bool := char.isAlpha

def trim (text : List Char) : List Char :=
  ((text.dropWhile isBlank).reverse.dropWhile isBlank).reverse

end BooleanCube.Text
