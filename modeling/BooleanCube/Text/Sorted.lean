/-!
Lists put into the order of texts that their elements carry.
-/

namespace BooleanCube.Text

variable {α : Type}

def insertBy (text : α → String) (a : α) : List α → List α
  | [] => [a]
  | b :: rest => if text b < text a then b :: insertBy text a rest else a :: b :: rest

/-- Sorts by text, character by character; elements with the same text keep their order. -/
def sortBy (text : α → String) (as : List α) : List α := as.foldr (insertBy text) []

/-- What follows `last` in a list from which every element with the text of the one kept before it
is dropped. -/
def distinctAfter (text : α → String) (last : α) : List α → List α
  | [] => []
  | a :: rest =>
      if text a = text last then distinctAfter text last rest else a :: distinctAfter text a rest

/-- Of neighbours with the same text only the first. -/
def distinctBy (text : α → String) : List α → List α
  | [] => []
  | a :: rest => a :: distinctAfter text a rest

end BooleanCube.Text
