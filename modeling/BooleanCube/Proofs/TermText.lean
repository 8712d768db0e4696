import BooleanCube.NormalForm
import BooleanCube.Proofs.RoundTrip

/-!
# Terms as expressions

The text of a term is that of an expression, parentheses included, so a term can be told from its
text. The two constants are no expressions: their digits are not in the alphabet.
-/

namespace BooleanCube

namespace Expression

def literals (expression : Expression) : List Literal :=
  expression.filterMap fun
    | .operand literal => some literal
    | _ => none

theorem literals_append (left right : Expression) :
    literals (left ++ right) = left.literals ++ right.literals := List.filterMap_append

theorem render_within_alphabet (expression : Expression) :
    ∀ char ∈ expression.render.toList, char ∈ Lexeme.alphabet := by
  intro char member
  rw [render_to_list] at member
  obtain ⟨part, inParts, inText⟩ := List.mem_flatMap.mp member
  obtain ⟨token, _, inToken⟩ := List.mem_flatMap.mp inParts
  exact Lexeme.text_within_alphabet (token.parts_written part inToken) char inText

theorem render_append (left right : Expression) :
    render (left ++ right) = left.render ++ right.render := by
  rw [render, List.map_append, String.join_append]
  rfl

end Expression

namespace Term

def tokens (op : Connective) : Term → Expression
  | [] => []
  | [literal] => [.operand literal]
  | literal :: next :: rest => .operand literal :: .connective op :: tokens op (next :: rest)

theorem literals_tokens (op : Connective) (term : Term) : (tokens op term).literals = term := by
  induction term with
  | nil => rfl
  | cons literal rest ih =>
      cases rest with
      | nil => rfl
      | cons next others => exact congrArg (literal :: ·) ih

theorem render_tokens (op : Connective) (term : Term) :
    (tokens op term).render = op.symbol.toString.intercalate (term.map Literal.render) := by
  induction term with
  | nil => rfl
  | cons literal rest ih =>
      cases rest with
      | nil => simp [tokens, Expression.render, Token.render]
      | cons next others =>
          have tail : (tokens op (literal :: next :: others)).render =
              literal.render ++ (op.symbol.toString ++ (tokens op (next :: others)).render) := by
            simp only [tokens, Expression.render, List.map_cons, String.join_cons, Token.render]
          rw [tail, ih]
          simp only [List.map_cons, String.intercalate_cons_cons, String.append_assoc]

end Term

namespace Polarity

def tokens : Polarity → Term → Expression
  | disjunctive, term => Term.tokens .and term
  | conjunctive, [literal] => [.operand literal]
  | conjunctive, term => .opening :: (Term.tokens .or term ++ [.closing])

theorem literals_tokens (polarity : Polarity) (term : Term) :
    (polarity.tokens term).literals = term := by
  have within := Term.literals_tokens .or term
  cases polarity with
  | disjunctive => exact Term.literals_tokens .and term
  | conjunctive =>
      rcases term with _ | ⟨literal, _ | ⟨next, rest⟩⟩
      · rfl
      · rfl
      · simpa [tokens, Expression.literals] using within

theorem render_tokens (polarity : Polarity) {term : Term} (nonempty : term ≠ []) :
    (polarity.tokens term).render = polarity.renderTerm term := by
  rcases term with _ | ⟨literal, rest⟩
  · exact (nonempty rfl).elim
  cases polarity with
  | disjunctive => exact Term.render_tokens .and (literal :: rest)
  | conjunctive =>
      cases rest with
      | nil => simp [tokens, renderTerm, Expression.render, Token.render]
      | cons next others =>
          have inner := Term.render_tokens .or (literal :: next :: others)
          have closing : Expression.render [.closing] = ")" := by decide
          have opening : Expression.render [.opening] = "(" := by decide
          calc
            (tokens .conjunctive (literal :: next :: others)).render =
                Expression.render [.opening] ++
                  ((Term.tokens .or (literal :: next :: others)).render ++
                    Expression.render [.closing]) := by
              rw [← Expression.render_append, ← Expression.render_append]
              rfl
            _ = renderTerm .conjunctive (literal :: next :: others) := by
              rw [inner, opening, closing, ← String.append_assoc]
              rfl

theorem render_term_nil_ne (polarity : Polarity) (expression : Expression) :
    expression.render ≠ polarity.renderTerm [] := by
  intro same
  have within := expression.render_within_alphabet
  rw [same] at within
  cases polarity with
  | disjunctive => exact absurd (within '1' (by decide)) (by decide)
  | conjunctive => exact absurd (within '0' (by decide)) (by decide)

theorem render_term_inj (polarity : Polarity) {left right : Term}
    (same : polarity.renderTerm left = polarity.renderTerm right) : left = right := by
  by_cases leftEmpty : left = []
  · by_cases rightEmpty : right = []
    · rw [leftEmpty, rightEmpty]
    · rw [leftEmpty, ← polarity.render_tokens rightEmpty] at same
      exact (polarity.render_term_nil_ne _ same.symm).elim
  · by_cases rightEmpty : right = []
    · rw [rightEmpty, ← polarity.render_tokens leftEmpty] at same
      exact (polarity.render_term_nil_ne _ same).elim
    · rw [← polarity.render_tokens leftEmpty, ← polarity.render_tokens rightEmpty] at same
      have sameTokens := Expression.render_inj same
      rw [← polarity.literals_tokens left, sameTokens, polarity.literals_tokens]

end Polarity

end BooleanCube
