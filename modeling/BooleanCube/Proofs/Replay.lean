import BooleanCube.Proofs.Editing
import Mathlib.Data.List.DropRight
import Mathlib.Data.List.ModifyLast

/-!
# Edits replayed on tokens

A session remembers nothing but its tokens. After any edits from any start it is the session made
anew from the list that the same edits leave when they are replayed on plain tokens, where negation
goes back over whatever is no literal. So an edit that is taken back leaves no trace.
-/

namespace BooleanCube

namespace Token

def isOperand : Token → Bool
  | operand _ => true
  | _ => false

def negate : Token → Token
  | operand literal => operand ⟨literal.var, !literal.negated⟩
  | token => token

end Token

namespace Expression

/-- The tokens with the literal written last negated, wherever it stands; what is written behind it
stays. Without a literal all tokens stay. -/
def flipLast (expression : Expression) : Expression :=
  List.modifyLast Token.negate (expression.rdropWhile fun token => !token.isOperand) ++
    expression.rtakeWhile fun token => !token.isOperand

theorem flip_last_operand (before : Expression) (literal : Literal) :
    flipLast (before ++ [.operand literal]) =
      before ++ [.operand ⟨literal.var, !literal.negated⟩] := by
  unfold flipLast
  rw [List.rdropWhile_concat_neg _ _ _ (by simp [Token.isOperand]),
    List.rtakeWhile_concat_neg _ _ _ (by simp [Token.isOperand]),
    List.modifyLast_concat, List.append_nil]
  rfl

theorem flip_last_other (before : Expression) {token : Token} (other : token.isOperand = false) :
    flipLast (before ++ [token]) = flipLast before ++ [token] := by
  unfold flipLast
  rw [List.rdropWhile_concat_pos _ _ _ (by simp [other]),
    List.rtakeWhile_concat_pos _ _ _ (by simp [other]), List.append_assoc]

theorem negate_last_operand (before : Expression) (literal : Literal) :
    negateLast? (before ++ [.operand literal]) = some (before ++ [.operand literal.negate]) := by
  induction before with
  | nil => rfl
  | cons token rest ih =>
      rw [List.cons_append]
      unfold negateLast?
      rw [ih]
      rfl

theorem negate_last_other (before : Expression) {token : Token} (other : token.isOperand = false) :
    negateLast? (before ++ [token]) = (negateLast? before).map fun tokens => tokens ++ [token] := by
  induction before with
  | nil => cases token <;> first | rfl | cases other
  | cons first rest ih =>
      rw [List.cons_append]
      unfold negateLast?
      rw [ih]
      cases negateLast? rest with
      | some tokens => rfl
      | none => cases first <;> rfl

/-- The search from the end, with the expression itself where it finds no literal. -/
theorem negate_last_eq (expression : Expression) :
    expression.negateLast?.getD expression = expression.flipLast := by
  induction expression using List.reverseRecOn with
  | nil => rfl
  | append_singleton before token ih =>
      cases kind : token.isOperand with
      | true =>
          cases token with
          | operand literal =>
              rw [negate_last_operand, flip_last_operand, Option.getD_some, Literal.negate]
          | _ => cases kind
      | false =>
          rw [negate_last_other before kind, flip_last_other before kind, ← ih]
          cases negateLast? before <;> rfl

theorem flip_last_flip_last (expression : Expression) : expression.flipLast.flipLast = expression := by
  induction expression using List.reverseRecOn with
  | nil => rfl
  | append_singleton before token ih =>
      cases kind : token.isOperand with
      | true =>
          cases token with
          | operand literal =>
              rw [flip_last_operand, flip_last_operand, Bool.not_not]
          | _ => cases kind
      | false => rw [flip_last_other before kind, flip_last_other _ kind, ih]

def edit (tokens : Expression) : Edit → Expression
  | .push token => tokens ++ [token]
  | .pop => tokens.dropLast
  | .toggleNegation => tokens.flipLast
  | .clear => []
  | .recompute => tokens

def replay (tokens : Expression) (edits : List Edit) : Expression := edits.foldl edit tokens

end Expression

def Origin.tokens : Origin → Expression
  | nothing => []
  | expression tokens => tokens

theorem Origin.session_eq (origin : Origin) : origin.session = .ofExpression origin.tokens := by
  cases origin with
  | nothing => exact Session.empty_consistent
  | expression tokens => rfl

namespace Session

/-- The edit that may leave the table alone does so only where the tokens stay. -/
theorem toggle_of_expression (tokens : Expression) :
    (ofExpression tokens).toggleNegation = ofExpression tokens.flipLast := by
  rw [← Expression.negate_last_eq, toggleNegation]
  cases found : tokens.negateLast? with
  | some negated => simp [ofExpression, found]
  | none => simp [ofExpression, found]

theorem edit_of_expression (tokens : Expression) (edit : Edit) :
    (ofExpression tokens).edit edit = ofExpression (tokens.edit edit) := by
  cases edit with
  | toggleNegation => exact toggle_of_expression tokens
  | _ => rfl

theorem run_of_expression (tokens : Expression) (edits : List Edit) :
    (ofExpression tokens).run edits = ofExpression (tokens.replay edits) := by
  induction edits generalizing tokens with
  | nil => rfl
  | cons edit edits ih =>
      have first := edit_of_expression tokens edit
      calc
        (ofExpression tokens).run (edit :: edits) = ((ofExpression tokens).edit edit).run edits := rfl
        _ = (ofExpression (tokens.edit edit)).run edits := by rw [first]
        _ = ofExpression (tokens.replay (edit :: edits)) := ih (tokens.edit edit)

theorem pop_push (tokens : Expression) (token : Token) :
    ((ofExpression tokens).push token).pop = (some token, ofExpression tokens) := by
  have last : (tokens ++ [token]).getLast? = some token := List.getLast?_concat
  have front : (tokens ++ [token]).dropLast = tokens := List.dropLast_concat
  exact congrArg₂ Prod.mk last (congrArg ofExpression front)

/-- After any edits from any start the whole session, with its table, is that of the tokens on which
the edits were replayed, and the token handed out by taking the last one away is their last. Putting
a token and taking it away again, or negating twice, restores the session. -/
theorem run_replays (origin : Origin) (edits : List Edit) :
    let session := origin.session.run edits
    let tokens := origin.tokens.replay edits
    session = .ofExpression tokens ∧
      session.pop.1 = tokens.getLast? ∧
      (∀ token, (session.push token).pop = (some token, session)) ∧
      session.toggleNegation.toggleNegation = session := by
  intro session tokens
  have anew : session = .ofExpression tokens := by
    change origin.session.run edits = _
    rw [origin.session_eq]
    exact run_of_expression origin.tokens edits
  rw [anew]
  refine ⟨rfl, rfl, pop_push tokens, ?_⟩
  rw [toggle_of_expression, toggle_of_expression, Expression.flip_last_flip_last]

end Session

end BooleanCube
