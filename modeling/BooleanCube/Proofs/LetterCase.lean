import BooleanCube.Proofs.Border
import BooleanCube.Proofs.Language

/-!
# Letter case

Texts that differ in the case of ASCII letters only are cut at the same places into parts that say
the same, so both are read as one expression, or both are refused at the same place for the same
reason. All of it follows from reading a text in lower case.
-/

namespace BooleanCube

namespace Text

def capitals : List Char := (List.range 26).map fun place => Char.ofNat (65 + place)

theorem to_lower_cases (char : Char) : char.toLower = char ∨ char ∈ capitals := by
  by_cases upper : char.val ≥ 'A'.val ∧ char.val ≤ 'Z'.val
  · right
    have range : 65 ≤ char.toNat ∧ char.toNat ≤ 90 := upper
    have place : char.toNat - 65 < 26 := by omega
    have isChar : Char.ofNat (65 + (char.toNat - 65)) = char := by
      rw [Nat.add_sub_cancel' range.1]
      exact Char.ofNat_toNat char
    exact List.mem_map.mpr ⟨_, List.mem_range.mpr place, isChar⟩
  · exact .inl (dif_neg upper)

theorem to_list_to_lower (text : String) : text.toLower.toList = text.toList.map Char.toLower :=
  String.toList_map

theorem to_lower_eq_iff {left right : String} :
    left.toLower = right.toLower ↔ left.toList.map Char.toLower = right.toList.map Char.toLower := by
  rw [← to_list_to_lower, ← to_list_to_lower, String.toList_inj]

/-- What holds of all characters that are in lower case has to be checked of the capitals only. -/
theorem forall_of_capitals {holds : Char → Prop} [DecidablePred holds]
    (checked : capitals.all (fun char => decide (holds char)) = true)
    (unchanged : ∀ char, char.toLower = char → holds char) (char : Char) : holds char := by
  rcases to_lower_cases char with same | capital
  · exact unchanged char same
  · exact of_decide_eq_true (List.all_eq_true.mp checked char capital)

theorem to_lower_to_lower (char : Char) : char.toLower.toLower = char.toLower := by
  apply forall_of_capitals (by decide) _ char
  intro char same
  rw [same, same]

theorem blank_to_lower (char : Char) : isBlank char.toLower = isBlank char := by
  apply forall_of_capitals (by decide) _ char
  intro char same
  rw [same]

theorem size_to_lower (char : Char) : char.toLower.utf8Size = char.utf8Size := by
  apply forall_of_capitals (by decide) _ char
  intro char same
  rw [same]

end Text

def Item.lower : Item → Item
  | unknown char => unknown char.toLower
  | item => item

/-- The same kind of error at the same place, with the character that it names in lower case. -/
def ReadError.lower : ReadError → ReadError
  | unexpected char offset => unexpected char.toLower offset
  | error => error

namespace Lexeme

def lower : Lexeme → Lexeme
  | blank char => blank char.toLower
  | connective op spelling => connective op (spelling.map Char.toLower)
  | mark char => mark char.toLower

theorem item_lower (part : Lexeme) : part.lower.item = part.item.lower := by
  cases part with
  | blank char => rfl
  | connective op spelling => rfl
  | mark char =>
      apply Text.forall_of_capitals (by decide) _ char
      intro char same
      rw [lower, same]
      unfold item
      split
      all_goals rename_i isMark
      all_goals cases isMark
      all_goals first | rfl | exact congrArg Item.unknown same.symm

theorem size_lower (part : Lexeme) : part.lower.size = part.size := by
  have same (spelling : List Char) :
      (spelling.map Char.toLower).map Char.utf8Size = spelling.map Char.utf8Size := by
    rw [List.map_map]
    exact List.map_congr_left fun char _ => Text.size_to_lower char
  have lowered : part.lower.text = part.text.map Char.toLower := by cases part <;> rfl
  rw [size, lowered, same, size]

section Cut

variable {before : Option Char} {text head tail : List Char} {op : Connective}

theorem spelled_lower_iff :
    Spelled (before.map Char.toLower) op (head.map Char.toLower) (tail.map Char.toLower) ↔
      Spelled before op head tail := by
  have spelling : (head.map Char.toLower).map Char.toLower = head.map Char.toLower := by
    rw [List.map_map]
    exact List.map_congr_left fun char _ => Text.to_lower_to_lower char
  have touches (neighbour : Option Char) :
      (∀ char ∈ neighbour.map Char.toLower, Text.isLetter char = false) ↔
        ∀ char ∈ neighbour, Text.isLetter char = false := by
    cases neighbour <;> simp [Text.letter_to_lower]
  constructor
  · rintro ⟨listed, apart⟩
    rw [spelling] at listed apart
    rw [List.head?_map, touches, touches] at apart
    exact ⟨listed, apart⟩
  · rintro ⟨listed, apart⟩
    refine ⟨spelling.symm ▸ listed, ?_⟩
    rw [spelling, List.head?_map, touches, touches]
    exact apart

theorem Unspelled.lower (unspelled : Unspelled before text) :
    Unspelled (before.map Char.toLower) (text.map Char.toLower) := by
  intro op head tail joined spelled
  obtain ⟨front, back, isText, rfl, rfl⟩ := List.map_eq_append_iff.mp joined.symm
  exact unspelled op front back isText.symm (spelled_lower_iff.mp spelled)

theorem Longest.lower (longest : Longest before text op head tail) :
    Longest (before.map Char.toLower) (text.map Char.toLower) op (head.map Char.toLower)
      (tail.map Char.toLower) where
  joined := by rw [← List.map_append, longest.joined]
  spelled := spelled_lower_iff.mpr longest.spelled
  longest := by
    intro other otherHead otherTail joined spelled
    obtain ⟨front, back, isText, rfl, rfl⟩ := List.map_eq_append_iff.mp joined.symm
    rw [List.length_map, List.length_map]
    exact longest.longest other front back isText.symm (spelled_lower_iff.mp spelled)

theorem Cut.lower {parts : List Lexeme} (cut : Cut before text parts) :
    Cut (before.map Char.toLower) (text.map Char.toLower) (parts.map Lexeme.lower) := by
  induction cut with
  | done => exact .done
  | blank space _ ih => exact .blank ((Text.blank_to_lower _).trans space) ih
  | @connective before text head tail op parts visible longest _ ih =>
      rw [← List.getLast?_map] at ih
      refine .connective ?_ longest.lower ih
      intro char isFirst
      rw [List.head?_map] at isFirst
      obtain ⟨first, inText, rfl⟩ := Option.map_eq_some_iff.mp isFirst
      rw [Text.blank_to_lower]
      exact visible first inText
  | mark visible unspelled _ ih =>
      exact .mark ((Text.blank_to_lower _).trans visible) unspelled.lower ih

theorem scan_lower (text : List Char) :
    scan none (text.map Char.toLower) = (scan none text).map Lexeme.lower :=
  (cut_iff.mp (cut_scan none text).lower).symm

end Cut

end Lexeme

namespace Reading

theorem take_item_lower (reading : Reading) (item : Item) :
    reading.takeItem item.lower = (reading.takeItem item).mapError ReadError.lower := by
  cases item with
  | space | negation | opening | closing | letter | unknown => rfl
  | macron =>
      rcases reading with ⟨_ | ⟨_ | _ | _ | _, _⟩, _, _⟩ <;> rfl
  | connective op =>
      rcases reading with ⟨_, _ | _, _⟩ <;> rfl

theorem step_lower (reading : Reading) (part : Lexeme) :
    reading.step part.lower = (reading.step part).mapError ReadError.lower := by
  have taken : reading.take part.lower = (reading.take part).mapError ReadError.lower := by
    rw [take_eq_take_item, take_eq_take_item, Lexeme.item_lower, take_item_lower]
  rw [step, step, taken, Lexeme.size_lower]
  cases reading.take part <;> rfl

theorem run_lower (reading : Reading) (parts : List Lexeme) :
    (parts.map Lexeme.lower).foldlM step reading =
      (parts.foldlM step reading).mapError ReadError.lower := by
  induction parts generalizing reading with
  | nil => rfl
  | cons part rest ih =>
      rw [List.map_cons, List.foldlM_cons, List.foldlM_cons, step_lower]
      cases reading.step part with
      | error error => rfl
      | ok next => exact ih next

theorem finish_lower (reading : Reading) :
    reading.finish.mapError ReadError.lower = reading.finish := by
  rcases reading with ⟨_, _ | _, _⟩ <;> rfl

end Reading

namespace Expression

/-- A text in lower case is read as it is, but for the character that an error names. -/
theorem read_to_lower (text : String) :
    read text.toLower = (read text).mapError ReadError.lower := by
  rw [read, read, Text.to_list_to_lower, Lexeme.scan_lower, Reading.run_lower]
  cases (Lexeme.scan none text.toList).foldlM Reading.step Reading.start with
  | error error => rfl
  | ok last => exact last.finish_lower.symm

/-- Two texts that are the same in lower case are read as the same expression, or both are refused
for the same reason and at the same place. -/
theorem read_ignores_case {left right : String} (same : left.toLower = right.toLower) :
    (∃ expression, read left = .ok expression ∧ read right = .ok expression) ∨
      ∃ leftError rightError, read left = .error leftError ∧ read right = .error rightError ∧
        leftError.lower = rightError.lower := by
  have lowered : (read left).mapError ReadError.lower = (read right).mapError ReadError.lower := by
    rw [← read_to_lower, ← read_to_lower, same]
  cases leftRead : read left with
  | ok expression =>
      cases rightRead : read right with
      | ok other =>
          rw [leftRead, rightRead] at lowered
          cases lowered
          exact .inl ⟨_, rfl, rfl⟩
      | error error =>
          rw [leftRead, rightRead] at lowered
          cases lowered
  | error error =>
      cases rightRead : read right with
      | ok other =>
          rw [leftRead, rightRead] at lowered
          cases lowered
      | error otherError =>
          rw [leftRead, rightRead] at lowered
          exact .inr ⟨error, otherError, rfl, rfl, Except.error.inj lowered⟩

/-- A word in mixed case, and a letter that is no variable. -/
theorem read_ignores_case_mixed :
    ("x xNoR !Y".toLower = "X XnOr !y".toLower ∧
        read "X XnOr !y" = .ok [.operand (.plain .x), .connective .xnor, .operand (.negative .y)]) ∧
      "¬X⊕Q".toLower = "¬x⊕q".toLower ∧
        ∃ error, read "¬x⊕q" = .error error ∧ error.lower = .unexpected 'q' 6 := by
  have sameWord : "x xNoR !Y".toLower = "X XnOr !y".toLower := Text.to_lower_eq_iff.mpr (by decide)
  have sameLetter : "¬X⊕Q".toLower = "¬x⊕q".toLower := Text.to_lower_eq_iff.mpr (by decide)
  have word : read "x xNoR !Y" =
      .ok [.operand (.plain .x), .connective .xnor, .operand (.negative .y)] := by decide +kernel
  have letter : read "¬X⊕Q" = .error (.unexpected 'Q' 6) := by decide +kernel
  constructor
  · refine ⟨sameWord, ?_⟩
    rcases read_ignores_case sameWord with ⟨expression, left, right⟩ | ⟨error, _, left, -⟩
    · rw [right, ← left, word]
    · rw [word] at left
      cases left
  · refine ⟨sameLetter, ?_⟩
    rcases read_ignores_case sameLetter with ⟨expression, left, -⟩ | ⟨error, other, left, right, same⟩
    · rw [letter] at left
      cases left
    · rw [letter] at left
      cases left
      exact ⟨other, right, same.symm⟩

end Expression

end BooleanCube
