import BooleanCube.Proofs.Border
import BooleanCube.Proofs.Language

/-!
# Texts put together with white space

White space ends every word and every symbol, and an expression leaves nothing behind that waits for
the text after it. So two texts with white space between them are read as the tokens of the one and
then those of the other.
-/

namespace BooleanCube

namespace Lexeme

theorem scan_append_blank {char : Char} (blank : Text.isBlank char = true) (text rest : List Char) :
    scan none (text ++ char :: rest) = scan none text ++ .blank char :: scan none rest := by
  have border : Text.Border text (char :: rest) := by
    rintro last - next ⟨⟩
    exact .inl blank
  have behind : Cut none (char :: rest) (.blank char :: scan none rest) := by
    refine .blank blank ((cut_scan none rest).behind ?_)
    intro letter
    rw [Text.letter_of_blank blank] at letter
    cases letter
  rw [scan_append border, cut_iff.mp behind]

end Lexeme

namespace Reading

/-- The state with the tokens of an earlier text below its own. An item that is taken is taken alike
whatever lies below, since it looks at no token but the one on top. -/
def above (reading : Reading) (below : List Token) (offset : Nat) : Reading :=
  ⟨reading.tokens ++ below, reading.negating, offset⟩

section Above

variable {reading next : Reading} (below : List Token)

theorem take_item_above {item : Item} (taken : reading.takeItem item = .ok next) (offset : Nat) :
    (reading.above below offset).takeItem item = .ok (next.above below offset) := by
  cases item with
  | space | negation | opening | closing | letter var =>
      cases taken
      rfl
  | macron =>
      -- The macron of a text that is read has its variable in the same text, so on top.
      rw [takeItem] at taken
      split at taken
      · next literal earlier top =>
          cases taken
          rw [takeItem, above, top]
          rfl
      · cases taken
  | connective op =>
      rw [takeItem] at taken
      split at taken
      · cases taken
      · next settled =>
          cases taken
          exact if_neg settled
  | unknown char => cases taken

theorem step_above {part : Lexeme} (stepped : reading.step part = .ok next) (offset : Nat) :
    ∃ later, (reading.above below offset).step part = .ok (next.above below later) := by
  rw [step, take_eq_take_item] at stepped
  obtain ⟨middle, taken, moved⟩ := bind_eq_ok_iff.mp stepped
  cases moved
  refine ⟨offset + part.size, ?_⟩
  rw [step, take_eq_take_item, take_item_above below taken]
  rfl

theorem run_above {parts : List Lexeme} {last : Reading}
    (run : parts.foldlM step reading = .ok last) (offset : Nat) :
    ∃ later, parts.foldlM step (reading.above below offset) = .ok (last.above below later) := by
  induction parts generalizing reading offset with
  | nil =>
      cases run
      exact ⟨offset, rfl⟩
  | cons part parts ih =>
      rw [List.foldlM_cons] at run
      obtain ⟨middle, stepped, behind⟩ := bind_eq_ok_iff.mp run
      obtain ⟨between, steppedAbove⟩ := step_above below stepped offset
      rw [List.foldlM_cons, steppedAbove]
      exact ih behind between

end Above

end Reading

namespace Expression

theorem read_append_blank {char : Char} (blank : Text.isBlank char = true) {left right : String}
    {first second : Expression} (leftRead : read left = .ok first)
    (rightRead : read right = .ok second) :
    read (left ++ char.toString ++ right) = .ok (first ++ second) := by
  obtain ⟨leftLast, leftRun, leftSettled, rfl⟩ := read_eq_ok_iff.mp leftRead
  obtain ⟨rightLast, rightRun, rightSettled, rfl⟩ := read_eq_ok_iff.mp rightRead
  have text : (left ++ char.toString ++ right).toList = left.toList ++ char :: right.toList := by
    simp
  have between : leftLast.step (.blank char) =
      .ok (Reading.start.above leftLast.tokens (leftLast.offset + (Lexeme.blank char).size)) := by
    rw [Reading.above, Reading.start, ← leftSettled]
    rfl
  obtain ⟨later, run⟩ := Reading.run_above leftLast.tokens rightRun
    (leftLast.offset + (Lexeme.blank char).size)
  refine read_eq_ok_iff.mpr ⟨rightLast.above leftLast.tokens later, ?_, rightSettled, ?_⟩
  · rw [text, Lexeme.scan_append_blank blank, List.foldlM_append, leftRun]
    change (Lexeme.blank char :: Lexeme.scan none right.toList).foldlM Reading.step leftLast = _
    rw [List.foldlM_cons, between]
    exact run
  · exact List.reverse_append

theorem read_empty : read "" = .ok [] := by decide +kernel

theorem read_indent {space : List Char} (blank : ∀ char ∈ space, Text.isBlank char = true)
    {text : String} {expression : Expression} (done : read text = .ok expression) :
    read (String.ofList space ++ text) = .ok expression := by
  induction space with
  | nil => exact done
  | cons char rest ih =>
      rw [List.forall_mem_cons] at blank
      have indented := read_append_blank blank.1 read_empty (ih blank.2)
      have joined : String.ofList (char :: rest) ++ text =
          "" ++ char.toString ++ (String.ofList rest ++ text) := by
        rw [← String.toList_inj]
        simp
      rwa [joined]

theorem read_trail {space : List Char} (blank : ∀ char ∈ space, Text.isBlank char = true)
    {text : String} {expression : Expression} (done : read text = .ok expression) :
    read (text ++ String.ofList space) = .ok expression := by
  cases space with
  | nil => rwa [String.ofList_nil, String.append_empty]
  | cons char rest =>
      rw [List.forall_mem_cons] at blank
      have trailed := read_append_blank blank.1 done (read_indent blank.2 read_empty)
      have joined : text ++ String.ofList (char :: rest) =
          text ++ char.toString ++ (String.ofList rest ++ "") := by
        rw [← String.toList_inj]
        simp
      rwa [joined, ← List.append_nil expression]

theorem read_padded {left right : List Char} (leftBlank : ∀ char ∈ left, Text.isBlank char = true)
    (rightBlank : ∀ char ∈ right, Text.isBlank char = true) {text : String}
    {expression : Expression} (done : read text = .ok expression) :
    read (String.ofList left ++ text ++ String.ofList right) = .ok expression :=
  read_trail rightBlank (read_indent leftBlank done)

/-- Two texts with white space between them are read as the tokens of the one and then those of the
other. -/
theorem read_append_space {left space right : String} {first second : Expression}
    (leftRead : read left = .ok first) (rightRead : read right = .ok second)
    (nonempty : space ≠ "") (blank : ∀ char ∈ space.toList, Text.isBlank char = true) :
    read (left ++ space ++ right) = .ok (first ++ second) := by
  have filled : space.toList ≠ [] := mt String.toList_eq_nil_iff.mp nonempty
  obtain ⟨char, rest, isSpace⟩ := List.exists_cons_of_ne_nil filled
  rw [isSpace, List.forall_mem_cons] at blank
  have parted := read_append_blank blank.1 leftRead (read_indent blank.2 rightRead)
  have joined : left ++ space ++ right =
      left ++ char.toString ++ (String.ofList rest ++ right) := by
    rw [← String.toList_inj]
    simp [isSpace]
  rwa [joined]

/-- An em space and a tab keep a variable and a word apart that would be the word `xor` without
them. -/
theorem read_append_space_word :
    let space := "\u2003\t"
    read "x" = .ok [.operand (.plain .x)] ∧
      read "or !y" = .ok [.connective .or, .operand (.negative .y)] ∧
      space ≠ "" ∧ (∀ char ∈ space.toList, Text.isBlank char = true) ∧
      read ("x" ++ space ++ "or !y") =
        .ok ([.operand (.plain .x)] ++ [.connective .or, .operand (.negative .y)]) := by
  intro space
  have left : read "x" = .ok [.operand (.plain .x)] := by decide +kernel
  have right : read "or !y" = .ok [.connective .or, .operand (.negative .y)] := by decide +kernel
  have nonempty : space ≠ "" := by decide
  have blank : ∀ char ∈ space.toList, Text.isBlank char = true :=
    List.all_eq_true.mp (by decide)
  exact ⟨left, right, nonempty, blank, read_append_space left right nonempty blank⟩

end Expression

end BooleanCube
