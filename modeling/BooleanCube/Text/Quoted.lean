import BooleanCube.Text.Extending
import BooleanCube.Text.Printable

/-!
Texts and characters between quotes, as messages show them: what does not print by itself is
written as an escape.
-/

namespace BooleanCube.Text

/-- The code point in hexadecimal, without leading zeros. -/
def codePointEscape (char : Char) : String :=
  "\\u\x7b" ++ String.ofList (Nat.toDigits 16 char.toNat) ++ "\x7d"

/-- How a character is written between two of `quote`. The other kind of quote needs no escape. -/
def escape (quote : Char) : Char → String
  | '\x00' => "\\0"
  | '\t' => "\\t"
  | '\n' => "\\n"
  | '\r' => "\\r"
  | '\\' => "\\\\"
  | char =>
      if char = quote then String.ofList ['\\', char]
      else if isExtending char || !isPrintable char then codePointEscape char
      else char.toString

def quoteChar (char : Char) : String := "'" ++ escape '\'' char ++ "'"

def quoteString (text : String) : String :=
  "\"" ++ String.join (text.toList.map (escape '"')) ++ "\""

end BooleanCube.Text
