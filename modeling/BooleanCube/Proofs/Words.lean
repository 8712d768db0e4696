import BooleanCube.Proofs.Language
import BooleanCube.Proofs.Stretch
import Mathlib.Data.List.Forall2

/-!
# Words are read whole

Negations apart, every token of an expression stands for one part of its text, so the tokens fall
into pieces as the text falls into stretches. A run of letters gives the connective whose word it is
or a variable for each letter, and other characters give no variable.
-/

namespace BooleanCube

def Token.plain : Token → Token
  | .operand literal => .operand (.plain literal.var)
  | token => token

namespace Lexeme

def token? (part : Lexeme) : Option Token := part.item.token? false

theorem item_of_letter {char : Char} (letter : Text.isLetter char = true) :
    (∃ var : Variable, (mark char).item = .letter var ∧ char.toLower = var.letter) ∨
      (mark char).item = .unknown char := by
  unfold item
  split
  all_goals rename_i same
  all_goals cases same
  all_goals first | exact .inl ⟨_, rfl, rfl⟩ | cases letter | exact .inr rfl

theorem letter_of_item {part : Lexeme} {var : Variable} (isVariable : part.item = .letter var) :
    ∃ char, part = mark char ∧ Text.isLetter char = true ∧ Variable.ofLetter? char = some var := by
  unfold item at isVariable
  split at isVariable
  all_goals cases isVariable
  all_goals exact ⟨_, rfl, rfl, rfl⟩

theorem mem_of_mark {before : Option Char} {text : List Char} {char : Char}
    (member : mark char ∈ scan before text) : char ∈ text := by
  rw [← flat_map_text_scan before text]
  exact List.mem_flatMap.mpr ⟨_, member, List.mem_singleton_self char⟩

theorem item_of_operand {part : Lexeme} {literal : Literal}
    (isOperand : part.token? = some (.operand literal)) : part.item = .letter literal.var := by
  rw [token?] at isOperand
  cases isItem : part.item with
  | letter var =>
      rw [isItem] at isOperand
      cases isOperand
      rfl
  | _ =>
      rw [isItem] at isOperand
      cases isOperand

end Lexeme

theorem Item.expression_plain (items : List Item) :
    (expression items).map Token.plain = items.filterMap (token? false) := by
  have along (before : List Item) :
      (expressionAfter before items).map Token.plain = items.filterMap (token? false) := by
    induction items generalizing before with
    | nil => rfl
    | cons item rest ih =>
        rw [expressionAfter, List.map_append, ih, List.filterMap_cons]
        cases item <;> rfl
  exact along []

namespace Expression

/-- What one stretch of an expression is read as. -/
inductive ReadsAs : List Char → Expression → Prop where
  | word {stretch : List Char} {op : Connective}
      (spelled : stretch.map Char.toLower = op.word.toList) : ReadsAs stretch [.connective op]
  | letters {stretch : List Char} {literals : List Literal}
      (named : stretch.map Char.toLower = literals.map fun literal => literal.var.letter) :
      ReadsAs stretch (literals.map .operand)
  | symbols {stretch : List Char} {tokens : Expression}
      (unlettered : ∀ char ∈ stretch, Text.isLetter char = false)
      (cut : tokens = (Lexeme.scan none stretch).filterMap Lexeme.token?)
      (variableless : ∀ literal, .operand literal ∉ tokens) : ReadsAs stretch tokens

/-- Negations apart, the tokens read are those of the parts one by one. -/
theorem plain_of_read {text : String} {expression : Expression}
    (done : read text = .ok expression) :
    expression.map Token.plain = (Lexeme.scan none text.toList).filterMap Lexeme.token? := by
  have read := read_of_acceptable (acceptable_of_read done)
  rw [done] at read
  rw [Except.ok.inj read, Item.expression_plain, List.filterMap_map]
  rfl

/-- Tokens that are those of some stretches in a row fall into pieces, one for each stretch. -/
theorem exists_pieces {expression : Expression} {stretches : List (List Char)}
    {tokens : List Char → Expression}
    (joined : expression.map Token.plain = stretches.flatMap tokens) :
    ∃ pieces : List Expression, pieces.flatten = expression ∧
      List.Forall₂ (fun stretch piece => piece.map Token.plain = tokens stretch) stretches
        pieces := by
  induction stretches generalizing expression with
  | nil => exact ⟨[], (List.map_eq_nil_iff.mp joined).symm, .nil⟩
  | cons stretch rest ih =>
      obtain ⟨piece, behind, rfl, isPiece, isBehind⟩ := List.map_eq_append_iff.mp joined
      obtain ⟨pieces, rfl, read⟩ := ih isBehind
      exact ⟨piece :: pieces, rfl, .cons isPiece read⟩

theorem literals_of_letters {stretch : List Char} {piece : Expression}
    (letters : ∀ char ∈ stretch, Text.isLetter char = true)
    (readable : ∀ char ∈ stretch, ∀ other, (Lexeme.mark char).item ≠ .unknown other)
    (isPiece : piece.map Token.plain = (stretch.map Lexeme.mark).filterMap Lexeme.token?) :
    ∃ literals : List Literal, piece = literals.map .operand ∧
      stretch.map Char.toLower = literals.map fun literal => literal.var.letter := by
  induction stretch generalizing piece with
  | nil => exact ⟨[], List.map_eq_nil_iff.mp isPiece, rfl⟩
  | cons char rest ih =>
      rw [List.forall_mem_cons] at letters readable
      rcases Lexeme.item_of_letter letters.1 with ⟨var, isItem, named⟩ | unknown
      · have isToken : (Lexeme.mark char).token? = some (.operand (.plain var)) := by
          rw [Lexeme.token?, isItem]
          rfl
        rw [List.map_cons, List.filterMap_cons_some isToken] at isPiece
        obtain ⟨token, tokens, rfl, isOperand, isRest⟩ := List.map_eq_cons_iff.mp isPiece
        obtain ⟨literals, rfl, others⟩ := ih letters.2 readable.2 isRest
        cases token with
        | operand literal =>
            have sameVar : literal.var = var := by
              cases isOperand
              rfl
            refine ⟨literal :: literals, rfl, ?_⟩
            rw [List.map_cons, others, named, ← sameVar]
            rfl
        | connective op | opening | closing => cases isOperand
      · exact (readable.1 char unknown).elim

theorem variableless_of_unlettered {stretch : List Char}
    (unlettered : ∀ char ∈ stretch, Text.isLetter char = false) (literal : Literal) :
    .operand literal ∉ (Lexeme.scan none stretch).filterMap Lexeme.token? := by
  intro member
  obtain ⟨part, isPart, isOperand⟩ := List.mem_filterMap.mp member
  obtain ⟨char, rfl, letter, -⟩ := Lexeme.letter_of_item (Lexeme.item_of_operand isOperand)
  rw [unlettered char (Lexeme.mem_of_mark isPart)] at letter
  cases letter

theorem eq_of_plain {piece tokens : Expression} (plain : piece.map Token.plain = tokens)
    (variableless : ∀ literal, .operand literal ∉ tokens) : piece = tokens := by
  subst plain
  have same : ∀ token ∈ piece, token = token.plain := by
    intro token member
    cases token with
    | operand literal => exact (variableless _ (List.mem_map_of_mem member)).elim
    | connective op | opening | closing => rfl
  have mapped := List.map_congr_left same
  rwa [List.map_id'] at mapped

theorem reads_as {text stretch : List Char} {piece : Expression}
    (member : stretch ∈ Text.stretches text)
    (readable : ∀ part ∈ Lexeme.scan none stretch, ∀ char, part.item ≠ .unknown char)
    (isPiece : piece.map Token.plain = (Lexeme.scan none stretch).filterMap Lexeme.token?) :
    ReadsAs stretch piece := by
  rcases Text.uniform_of_mem_stretches member with letters | unlettered
  · rcases Lexeme.scan_letters (List.ne_nil_of_mem_splitBy member) letters with
      ⟨op, spelled, parts⟩ | parts
    · rw [parts] at isPiece
      rw [eq_of_plain isPiece (by simp [Lexeme.token?, Lexeme.item, Item.token?])]
      exact .word spelled
    · rw [parts] at readable isPiece
      rw [List.forall_mem_map] at readable
      obtain ⟨literals, rfl, named⟩ := literals_of_letters letters readable isPiece
      exact .letters named
  · have variableless := variableless_of_unlettered unlettered
    rw [eq_of_plain isPiece variableless]
    exact .symbols unlettered rfl variableless

theorem exists_readings {text : String} {expression : Expression}
    (done : read text = .ok expression) :
    ∃ pieces : List Expression, pieces.flatten = expression ∧
      List.Forall₂ ReadsAs (Text.stretches text.toList) pieces := by
  have readable := (acceptable_of_read done).readable
  have plain := plain_of_read done
  rw [Lexeme.scan_stretches, List.filterMap_flatMap] at plain
  obtain ⟨pieces, joined, pairs⟩ := exists_pieces plain
  -- What a stretch is read as is known of the stretches of this text only.
  have along : ∀ stretch ∈ Text.stretches text.toList, stretch ∈ Text.stretches text.toList :=
    fun _ member => member
  refine ⟨pieces, joined, ((List.forall₂_and_left _ _).mpr ⟨along, pairs⟩).imp ?_⟩
  rintro stretch piece ⟨member, isPiece⟩
  refine reads_as member ?_ isPiece
  intro part inStretch char unknown
  apply readable char
  rw [Lexeme.scan_stretches]
  exact List.mem_map.mpr ⟨part, List.mem_flatMap.mpr ⟨stretch, member, inStretch⟩, unknown⟩

/-- Each run of letters in an expression is the word of a connective and gives this one token, or it
gives one variable for each letter. No other text gives a variable. -/
theorem words_read_whole {text : String} {expression : Expression}
    (done : read text = .ok expression) :
    ∃ pieces : List Expression, pieces.flatten = expression ∧
      List.Forall₂ ReadsAs (Text.stretches text.toList) pieces ∧
      ∀ front run back, front ++ run ++ back = text.toList → Text.LetterRun front run back →
        ∃ here, pieces[(Text.stretches front).length]? = some here ∧
          ((∃ op, run.map Char.toLower = op.word.toList ∧ here = [.connective op]) ∨
            ∃ literals : List Literal, here = literals.map .operand ∧
              run.map Char.toLower = literals.map fun literal => literal.var.letter) := by
  obtain ⟨pieces, joined, readings⟩ := exists_readings done
  refine ⟨pieces, joined, readings, ?_⟩
  intro front run back isText isRun
  have behind := List.forall₂_drop (Text.stretches front).length readings
  rw [← isText, Text.stretches_at_run isRun, List.drop_left, List.forall₂_cons_left_iff] at behind
  obtain ⟨here, others, reading, -, isBehind⟩ := behind
  refine ⟨here, ?_, ?_⟩
  · rw [← List.head?_drop, isBehind]
    rfl
  · cases reading with
    | word spelled => exact .inl ⟨_, spelled, rfl⟩
    | letters named => exact .inr ⟨_, rfl, named⟩
    | symbols unlettered =>
        obtain ⟨first, rest, rfl⟩ := List.exists_cons_of_ne_nil isRun.nonempty
        have letter := isRun.letters first List.mem_cons_self
        rw [unlettered first List.mem_cons_self] at letter
        cases letter

/-- A word in capitals between symbols, and two variables that touch. -/
theorem words_read_whole_mixed :
    let expression : Expression := [.opening, .operand (.negative .x), .closing, .connective .xor,
      .operand (.plain .y), .operand (.negative .z)]
    read "!(x)XOR yZ\u0304" = .ok expression ∧
      ∃ pieces : List Expression, pieces.flatten = expression ∧
        List.Forall₂ ReadsAs
          [['!', '('], ['x'], [')'], ['X', 'O', 'R'], [' '], ['y', 'Z'], ['\u0304']] pieces := by
  intro expression
  have done : read "!(x)XOR yZ\u0304" = .ok expression := by decide +kernel
  obtain ⟨pieces, joined, readings, -⟩ := words_read_whole done
  exact ⟨done, pieces, joined, readings⟩

end Expression

end BooleanCube
