import BooleanCube.Connective

/-!
A text cut into its smallest parts: white space, spellings of connectives and single marks. The
longest spelling wins, and a word is one only where no letter touches it. The parts, put one after
the other, are the text.
-/

namespace BooleanCube

inductive Lexeme where
  | blank (char : Char)
  | connective (op : Connective) (spelling : List Char)
  | mark (char : Char)
  deriving DecidableEq, Repr

namespace Lexeme

def text : Lexeme → List Char
  | blank char => [char]
  | connective _ spelling => spelling
  | mark char => [char]

/-- The number of bytes of the part in UTF-8. -/
def size (part : Lexeme) : Nat := (part.text.map Char.utf8Size).foldr (· + ·) 0

/-- A spelling in letters is a word, and no letter may stand right before or after it. -/
def standsApart (before : Option Char) (spelling after : List Char) : Bool :=
  !spelling.head?.any Text.isLetter || !(before.any Text.isLetter || after.head?.any Text.isLetter)

/-- A text that begins with `spelling`, ASCII case ignored, cut behind it. -/
def cut? (spelling text : List Char) : Option (List Char × List Char) :=
  let (head, tail) := text.splitAt spelling.length
  if head.map Char.toLower = spelling then some (head, tail) else none

def connectiveAt? (before : Option Char) (text : List Char) :
    Option (Connective × List Char × List Char) :=
  Connective.vocabulary.findSome? fun entry =>
    match cut? entry.1 text with
    | some (head, tail) =>
        if standsApart before entry.1 tail then some (entry.2, head, tail) else none
    | none => none

theorem append_of_cut {spelling text head tail : List Char}
    (cut : cut? spelling text = some (head, tail)) :
    head.map Char.toLower = spelling ∧ head ++ tail = text := by
  simp only [cut?, List.splitAt_eq, Option.ite_none_right_eq_some, Option.some.injEq,
    Prod.mk.injEq] at cut
  obtain ⟨spelled, rfl, rfl⟩ := cut
  exact ⟨spelled, List.take_append_drop ..⟩

theorem append_of_connective_at {before : Option Char} {text head tail : List Char}
    {op : Connective} (found : connectiveAt? before text = some (op, head, tail)) :
    head ≠ [] ∧ head ++ tail = text := by
  obtain ⟨entry, member, fits⟩ := List.exists_of_findSome?_eq_some found
  split at fits
  · next cut =>
      obtain ⟨spelled, joined⟩ := append_of_cut cut
      simp only [Option.ite_none_right_eq_some, Option.some.injEq, Prod.mk.injEq] at fits
      obtain ⟨-, -, rfl, rfl⟩ := fits
      refine ⟨?_, joined⟩
      rintro rfl
      have nonempty : ∀ entry ∈ Connective.vocabulary, entry.1 ≠ [] := by decide
      exact nonempty _ member spelled.symm
  · cases fits

theorem length_of_connective_at {before : Option Char} {text head tail : List Char}
    {op : Connective} (found : connectiveAt? before text = some (op, head, tail)) :
    tail.length < text.length := by
  obtain ⟨nonempty, rfl⟩ := append_of_connective_at found
  have := List.length_pos_iff.2 nonempty
  simp only [List.length_append]
  omega

/-- The parts of a text that follows the character `before`. -/
def scan (before : Option Char) : List Char → List Lexeme
  | [] => []
  | char :: rest =>
      if Text.isBlank char then blank char :: scan (some char) rest
      else match _found : connectiveAt? before (char :: rest) with
        | some (op, head, tail) => connective op head :: scan head.getLast? tail
        | none => mark char :: scan (some char) rest
termination_by text => text.length
decreasing_by
  · simp
  · exact length_of_connective_at _found
  · simp

/-- No character is lost or moved. -/
theorem flat_map_text_scan (before : Option Char) (text : List Char) :
    (scan before text).flatMap Lexeme.text = text := by
  fun_induction scan before text with
  | case1 => rfl
  | case2 before char rest blank ih => simp [Lexeme.text, ih]
  | case3 before char rest blank op head tail found ih =>
      simp only [List.flatMap_cons, Lexeme.text, ih]
      exact (append_of_connective_at found).2
  | case4 before char rest blank found ih => simp [Lexeme.text, ih]

end Lexeme

end BooleanCube
