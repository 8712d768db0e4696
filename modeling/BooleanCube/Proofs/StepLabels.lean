import BooleanCube.TruthTable
import BooleanCube.Proofs.RoundTrip

/-!
# What the label of a column says

Every step stands for an expression: a negated literal, two literals with a connective between them,
or a leading part of the whole. Its label is the text of that expression and its values are those of
that expression, so a column can be checked by reading its label, however malformed the leading part
may be.
-/

namespace BooleanCube

namespace Token

def negated? : Token → Option Variable
  | operand ⟨var, true⟩ => some var
  | _ => none

theorem negated_eq_some_iff {token : Token} {var : Variable} :
    token.negated? = some var ↔ token = .operand (.negative var) := by
  rcases token with ⟨other, _ | _⟩ | op | _ | _ <;> simp [negated?, Literal.negative]

end Token

namespace Expression

theorem negated_eq (expression : Expression) :
    expression.negated = (expression.filterMap Token.negated?).eraseDups := rfl

theorem mem_negated_iff {expression : Expression} {var : Variable} :
    var ∈ expression.negated ↔ .operand (.negative var) ∈ expression := by
  rw [negated_eq, List.mem_eraseDups, List.mem_filterMap]
  simp only [Token.negated_eq_some_iff, exists_eq_right]

theorem negation_mem_steps {expression : Expression} {var : Variable}
    (written : .operand (.negative var) ∈ expression) : .negation var ∈ expression.steps := by
  have isNegated : var ∈ expression.negated := mem_negated_iff.mpr written
  exact List.mem_append_left _ (List.mem_append_left _ (List.mem_map_of_mem isNegated))

end Expression

namespace Step

def tokens : Step → Expression
  | negation var => [.operand (.negative var)]
  | pair left op right => [.operand left, .connective op, .operand right]
  | leading tokens => tokens

theorem render_tokens (step : Step) : step.tokens.render = step.label := by
  cases step with
  | negation var => simp [tokens, label, Expression.render, Token.render]
  | pair left op right =>
      simp only [tokens, label, Expression.render, Token.render, List.map_cons, List.map_nil,
        String.join_cons, String.join_nil, String.append_empty, String.append_assoc]
  | leading tokens => rfl

/-- The value of a negation and of a pair is found without the stacks; these would find the same. -/
theorem evaluate_tokens (step : Step) (assignment : Assignment) :
    step.tokens.evaluate assignment = step.evaluate assignment := by
  cases step with
  | negation var => exact Bool.bne_true (assignment.get var)
  | pair left op right => rfl
  | leading tokens => rfl

theorem read_label (step : Step) : Expression.read step.label = .ok step.tokens := by
  rw [← render_tokens, Expression.read_of_render]

theorem tokens_of_label {left right : Step} (same : left.label = right.label) :
    left.tokens = right.tokens := by
  apply Expression.render_inj
  rw [render_tokens, render_tokens, same]

end Step

namespace TruthTable

theorem values_of_step (step : Step) :
    (ofStep step).values = .ofFn fun row => step.tokens.evaluate (.ofRow row) := by
  simp only [ofStep, Step.evaluate_tokens]

/-- Every column holds the values of the expression that its label reads as, so columns with the
same label hold the same values, and the labels beside the columns are theirs in order. Each
variable that is written negated has such a column. -/
theorem columns_mean_labels (expression : Expression) :
    let table := generate expression
    (∀ column ∈ table.columns, ∃ parsed, Expression.read column.label = .ok parsed ∧
        column.values = .ofFn fun row => parsed.evaluate (.ofRow row)) ∧
      (∀ left ∈ table.columns, ∀ right ∈ table.columns,
        left.label = right.label → left.values = right.values) ∧
      table.labels.length = table.columns.length ∧
      (∀ place : Nat, table.labels[place]? = table.columns[place]?.map Column.label) ∧
      ∀ var, .operand (.negative var) ∈ expression →
        ∃ column ∈ table.columns, column.label = String.ofList [var.letter, '\u0304'] := by
  intro table
  refine ⟨?_, ?_, ?_, ?_, ?_⟩
  · intro column member
    obtain ⟨step, _, rfl⟩ := List.mem_map.mp member
    exact ⟨step.tokens, step.read_label, values_of_step step⟩
  · intro left leftMember right rightMember same
    obtain ⟨leftStep, _, rfl⟩ := List.mem_map.mp leftMember
    obtain ⟨rightStep, _, rfl⟩ := List.mem_map.mp rightMember
    have sameTokens : leftStep.tokens = rightStep.tokens := Step.tokens_of_label same
    rw [values_of_step, values_of_step, sameTokens]
  · simp only [table, generate, List.length_map]
  · intro place
    simp only [table, generate, List.getElem?_map, Option.map_map]
    rfl
  · intro var written
    have isStep : .negation var ∈ expression.steps := Expression.negation_mem_steps written
    refine ⟨ofStep (.negation var), List.mem_map_of_mem isStep, ?_⟩
    cases var <;> decide

end TruthTable

end BooleanCube
