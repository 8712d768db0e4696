import BooleanCube.Reading

/-!
# Reading back what was written

Tokens are written without anything between them. The text falls apart at the same places again: no
word can be spelled with the characters of written tokens, so every connective found there is a
single symbol, and all other characters stand for themselves.
-/

namespace BooleanCube

namespace Lexeme

theorem scan_mark {before : Option Char} {char : Char} {rest : List Char}
    (visible : Text.isBlank char = false)
    (unspelled : connectiveAt? before (char :: rest) = none) :
    scan before (char :: rest) = mark char :: scan (some char) rest := by
  rw [scan, if_neg (by simp [visible])]
  split
  · next found => rw [unspelled] at found; cases found
  · rfl

theorem scan_connective {before : Option Char} {char : Char} {rest head tail : List Char}
    {op : Connective} (visible : Text.isBlank char = false)
    (found : connectiveAt? before (char :: rest) = some (op, head, tail)) :
    scan before (char :: rest) = connective op head :: scan head.getLast? tail := by
  rw [scan, if_neg (by simp [visible])]
  split
  · next other =>
      rw [found] at other
      cases other
      rfl
  · next missing => rw [found] at missing; cases missing

theorem connective_at_symbol (before : Option Char) (op : Connective) (rest : List Char) :
    connectiveAt? before (op.symbol :: rest) = some (op, [op.symbol], rest) := by
  have unlettered : Text.isLetter op.symbol = false := by cases op <;> decide
  cases op <;> simp only [Connective.symbol] at unlettered ⊢ <;>
    simp [connectiveAt?, Connective.vocabulary, cut?, standsApart, unlettered]

def marks : List Char := ['x', 'y', 'z', macron, '(', ')']

def alphabet : List Char := marks ++ ['∧', '∨', '⊕', '↓', '↑', '→', '←', '↔']

theorem symbol_in_alphabet (op : Connective) : op.symbol ∈ alphabet := by
  cases op <;> decide

theorem mark_is_no_symbol (char : Char) (isMark : char ∈ marks) (op : Connective) :
    char ≠ op.symbol := by
  intro same
  subst same
  cases op <;> revert isMark <;> decide

theorem alphabet_lower : ∀ char ∈ alphabet, char.toLower = char := by
  have checked : alphabet.all (fun char => char.toLower == char) = true := by decide
  intro char member
  exact eq_of_beq (List.all_eq_true.mp checked char member)

theorem alphabet_visible : ∀ char ∈ alphabet, Text.isBlank char = false := by
  have checked : alphabet.all (fun char => !Text.isBlank char) = true := by decide
  intro char member
  have visible := List.all_eq_true.mp checked char member
  rwa [Bool.not_eq_true'] at visible

/-- Of all spellings only the symbols stay within the alphabet. -/
theorem spelling_within_alphabet :
    ∀ entry ∈ Connective.vocabulary, (∀ char ∈ entry.1, char ∈ alphabet) →
      entry.1 = [entry.2.symbol] := by
  have checked : Connective.vocabulary.all (fun entry =>
      !entry.1.all alphabet.contains || entry.1 == [entry.2.symbol]) = true := by decide
  intro entry member within
  have spelled : entry.1.all alphabet.contains = true :=
    List.all_eq_true.mpr fun char isChar => List.contains_iff_mem.mpr (within char isChar)
  have symbol := List.all_eq_true.mp checked entry member
  rw [spelled] at symbol
  exact eq_of_beq symbol

theorem connective_within_alphabet {before : Option Char} {text head tail : List Char}
    {op : Connective} (written : ∀ char ∈ text, char ∈ alphabet)
    (found : connectiveAt? before text = some (op, head, tail)) : head = [op.symbol] := by
  obtain ⟨entry, member, fits⟩ := List.exists_of_findSome?_eq_some found
  split at fits
  · next first behind cut =>
      obtain ⟨spelled, joined⟩ := append_of_cut cut
      simp only [Option.ite_none_right_eq_some, Option.some.injEq, Prod.mk.injEq] at fits
      rcases fits with ⟨-, rfl, rfl, rfl⟩
      have firstWritten : ∀ char ∈ first, char ∈ alphabet := by
        intro char inFirst
        exact written char (joined ▸ List.mem_append_left behind inFirst)
      have unchanged : first.map Char.toLower = first := by
        have same : ∀ char ∈ first, char.toLower = id char := by
          intro char inFirst
          exact alphabet_lower char (firstWritten char inFirst)
        rw [List.map_congr_left same, List.map_id]
      rw [unchanged] at spelled
      subst spelled
      exact spelling_within_alphabet entry member firstWritten
  · cases fits

def Written : Lexeme → Prop
  | blank _ => False
  | connective op spelling => spelling = [op.symbol]
  | mark char => char ∈ marks

theorem text_within_alphabet {part : Lexeme} (written : part.Written) :
    ∀ char ∈ part.text, char ∈ alphabet := by
  intro char inText
  cases part with
  | blank other => exact written.elim
  | connective op spelling =>
      have spelled : spelling = [op.symbol] := written
      rw [text, spelled, List.mem_singleton] at inText
      exact inText ▸ symbol_in_alphabet op
  | mark other =>
      rw [text, List.mem_singleton] at inText
      exact List.mem_append_left _ (inText ▸ written)

theorem unspelled_mark {before : Option Char} {char : Char} {rest : List Char}
    (isMark : char ∈ marks) (written : ∀ other ∈ char :: rest, other ∈ alphabet) :
    connectiveAt? before (char :: rest) = none := by
  rw [Option.eq_none_iff_forall_ne_some]
  intro result found
  rcases result with ⟨op, head, tail⟩
  have symbol := connective_within_alphabet written found
  have joined := (append_of_connective_at found).2
  rw [symbol] at joined
  exact mark_is_no_symbol char isMark op (List.cons.inj joined).1.symm

theorem scan_written (before : Option Char) (parts : List Lexeme)
    (written : ∀ part ∈ parts, part.Written) : scan before (parts.flatMap text) = parts := by
  induction parts generalizing before with
  | nil => simp [scan]
  | cons part rest ih =>
      have within : ∀ char ∈ (part :: rest).flatMap text, char ∈ alphabet := by
        intro char inText
        obtain ⟨other, member, inPart⟩ := List.mem_flatMap.mp inText
        exact text_within_alphabet (written other member) char inPart
      have partWritten := written part List.mem_cons_self
      have restWritten : ∀ part ∈ rest, part.Written := by
        intro other member
        exact written other (List.mem_cons_of_mem part member)
      rw [List.flatMap_cons] at within ⊢
      cases part with
      | blank char => exact partWritten.elim
      | connective op spelling =>
          have spelled : spelling = [op.symbol] := partWritten
          subst spelled
          have visible := alphabet_visible op.symbol (symbol_in_alphabet op)
          exact (scan_connective visible (connective_at_symbol before op _)).trans
            (congrArg _ (ih _ restWritten))
      | mark char =>
          have visible := alphabet_visible char (within char List.mem_cons_self)
          exact (scan_mark visible (unspelled_mark partWritten within)).trans
            (congrArg _ (ih _ restWritten))

end Lexeme

namespace Token

def parts : Token → List Lexeme
  | operand ⟨var, false⟩ => [.mark var.letter]
  | operand ⟨var, true⟩ => [.mark var.letter, .mark macron]
  | connective op => [.connective op [op.symbol]]
  | opening => [.mark '(']
  | closing => [.mark ')']

theorem parts_written (token : Token) : ∀ part ∈ token.parts, part.Written := by
  have letterIsMark (var : Variable) : var.letter ∈ Lexeme.marks := by cases var <;> decide
  have macronIsMark : macron ∈ Lexeme.marks := by decide
  rcases token with ⟨var, _ | _⟩ | op | _ | _
  · simpa [parts, Lexeme.Written] using letterIsMark var
  · simpa [parts, Lexeme.Written] using ⟨letterIsMark var, macronIsMark⟩
  · simp [parts, Lexeme.Written]
  · simp [parts, Lexeme.Written, Lexeme.marks]
  · simp [parts, Lexeme.Written, Lexeme.marks]

theorem render_to_list (token : Token) : token.render.toList = token.parts.flatMap Lexeme.text := by
  rcases token with ⟨var, _ | _⟩ | op | _ | _
  · cases var <;> rfl
  · cases var <;> rfl
  · cases op <;> rfl
  · rfl
  · rfl

end Token

namespace Reading

theorem read_token (token : Token) (tokens : List Token) (offset : Nat) :
    ∃ next, token.parts.foldlM step ⟨tokens, false, offset⟩ = .ok ⟨token :: tokens, false, next⟩ := by
  rcases token with ⟨var, _ | _⟩ | op | _ | _
  · cases var <;> exact ⟨_, rfl⟩
  · cases var <;> exact ⟨_, rfl⟩
  · exact ⟨_, rfl⟩
  · exact ⟨_, rfl⟩
  · exact ⟨_, rfl⟩

theorem read_tokens (expression : Expression) (tokens : List Token) (offset : Nat) :
    ∃ next, (expression.flatMap Token.parts).foldlM step ⟨tokens, false, offset⟩ =
      .ok ⟨expression.reverse ++ tokens, false, next⟩ := by
  induction expression generalizing tokens offset with
  | nil => exact ⟨offset, rfl⟩
  | cons token rest ih =>
      obtain ⟨middle, head⟩ := read_token token tokens offset
      obtain ⟨next, tail⟩ := ih (token :: tokens) middle
      refine ⟨next, ?_⟩
      rw [List.flatMap_cons, List.foldlM_append, head, List.reverse_cons, List.append_assoc]
      exact tail

end Reading

namespace Expression

theorem render_to_list (expression : Expression) :
    expression.render.toList = (expression.flatMap Token.parts).flatMap Lexeme.text := by
  rw [render, String.toList_join, List.flatMap_map, List.flatMap_assoc]
  exact congrArg (fun text => expression.flatMap text) (funext Token.render_to_list)

theorem scan_render (expression : Expression) :
    Lexeme.scan none expression.render.toList = expression.flatMap Token.parts := by
  rw [render_to_list]
  apply Lexeme.scan_written
  intro part member
  obtain ⟨token, _, inToken⟩ := List.mem_flatMap.mp member
  exact token.parts_written part inToken

theorem read_of_render (expression : Expression) : read expression.render = .ok expression := by
  obtain ⟨next, run⟩ := Reading.read_tokens expression [] 0
  rw [read, scan_render, Reading.start, run, List.append_nil]
  exact congrArg Except.ok (List.reverse_reverse expression)

theorem render_inj {left right : Expression} (same : left.render = right.render) :
    left = right := by
  have leftRead := read_of_render left
  rw [same, read_of_render right] at leftRead
  exact (Except.ok.inj leftRead).symm

/-- Any list of tokens, well formed or not, is read back from its text, and no two lists share a
text. -/
theorem read_render :
    (∀ expression : Expression, read expression.render = .ok expression) ∧
      Function.Injective render :=
  ⟨read_of_render, fun _ _ same => render_inj same⟩

end Expression

end BooleanCube
