/-!
JSON values and their text over several lines, with two spaces for every level.
-/

namespace BooleanCube

inductive Json where
  | bool (value : Bool)
  | number (value : Nat)
  | string (text : String)
  | array (items : List Json)
  | object (fields : List (String × Json))

namespace Json

def controlEscape (char : Char) : String :=
  let digits := Nat.toDigits 16 char.toNat
  "\\u" ++ String.ofList (List.replicate (4 - digits.length) '0' ++ digits)

def escape : Char → String
  | '"' => "\\\""
  | '\\' => "\\\\"
  | '\x08' => "\\b"
  | '\x0c' => "\\f"
  | '\n' => "\\n"
  | '\r' => "\\r"
  | '\t' => "\\t"
  | char => if char.toNat < 0x20 then controlEscape char else char.toString

def quote (text : String) : String :=
  "\"" ++ String.join (text.toList.map escape) ++ "\""

def newline (depth : Nat) : String := "\n" ++ String.join (List.replicate depth "  ")

/-- Items one to a line between brackets; without items the brackets stand together. -/
def enclose (opening closing : String) (depth : Nat) (items : List String) : String :=
  if items.isEmpty then opening ++ closing
  else
    opening ++ newline (depth + 1) ++ ("," ++ newline (depth + 1)).intercalate items ++
      newline depth ++ closing

mutual

def renderAt (depth : Nat) : Json → String
  | bool value => if value then "true" else "false"
  | number value => toString value
  | string text => quote text
  | array items => enclose "[" "]" depth (renderItems (depth + 1) items)
  | object fields => enclose "\x7b" "\x7d" depth (renderFields (depth + 1) fields)

def renderItems (depth : Nat) : List Json → List String
  | [] => []
  | item :: items => renderAt depth item :: renderItems depth items

def renderFields (depth : Nat) : List (String × Json) → List String
  | [] => []
  | (name, value) :: fields =>
      (quote name ++ ": " ++ renderAt depth value) :: renderFields depth fields

end

def render (value : Json) : String := renderAt 0 value

def strings (texts : List String) : Json := array (texts.map string)

end Json

end BooleanCube
