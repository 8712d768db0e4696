import BooleanCube.Proofs.ColumnLayout
import Mathlib.Data.List.Flatten

/-!
# Tables of growing expressions

Tokens written behind an expression can add steps anywhere among those that it had: a negation, a
pair within its class, longer leading parts. None of the old steps goes, changes or moves past
another. Only a leading part of three tokens could be hidden by a pair, and it is hidden before too.
-/

namespace BooleanCube

namespace Expression

variable (expression more : Expression)

theorem negated_sublist_append : expression.negated.Sublist (expression ++ more).negated := by
  rw [negated_eq, negated_eq, List.filterMap_append, List.eraseDups_append]
  exact List.sublist_append_left _ _

theorem pair_at_append_of_lt {position : Nat} (inside : position + 2 < expression.length) :
    (expression ++ more).pairAt? position = expression.pairAt? position := by
  unfold pairAt?
  rw [List.getElem?_append_left (by omega), List.getElem?_append_left (by omega),
    List.getElem?_append_left inside]

theorem pair_at_append {position : Nat} {pair : Literal × Connective × Literal}
    (found : expression.pairAt? position = some pair) :
    (expression ++ more).pairAt? position = some pair := by
  rcases pair with ⟨left, op, right⟩
  have last := (pair_at_eq_some_iff.mp found).2.2
  have inside : position + 2 < expression.length := (List.getElem?_eq_some_iff.mp last).1
  rw [pair_at_append_of_lt expression more inside, found]

theorem pairs_sublist_append : expression.pairs.Sublist (expression ++ more).pairs := by
  induction expression with
  | nil => exact List.nil_sublist _
  | cons token rest ih =>
      rw [List.cons_append, pairs_cons, pairs_cons]
      apply List.Sublist.append _ ih
      cases found : pairAt? (token :: rest) 0 with
      | none => exact List.nil_sublist _
      | some pair =>
          have kept := pair_at_append (token :: rest) more found
          rw [List.cons_append] at kept
          rw [kept]

theorem pair_steps_sublist_append : expression.pairSteps.Sublist (expression ++ more).pairSteps := by
  apply List.Sublist.flatMap_right
  intro precedence _
  exact ((expression.pairs_sublist_append more).filter _).map _

theorem small_steps_sublist_append :
    expression.smallSteps.Sublist (expression ++ more).smallSteps :=
  ((expression.negated_sublist_append more).map _).append
    (expression.pair_steps_sublist_append more)

theorem leading_size_lt {size : Nat} (member : size ∈ expression.leadingSizes) :
    size < expression.length := by
  rcases List.mem_append.mp member with three | longer
  · split at three
    · next goesOn =>
        have long : 3 < expression.length := by
          simp only [Bool.and_eq_true, decide_eq_true_eq] at goesOn
          exact goesOn.1.1
        rw [List.mem_singleton] at three
        omega
    · cases three
  · rw [List.mem_range'_1] at longer
    omega

/-- Whether the leading part of three tokens has a column is settled by these tokens as soon as a
fourth follows. -/
theorem leading_sizes_sublist_append :
    expression.leadingSizes.Sublist (expression ++ more).leadingSizes := by
  unfold leadingSizes
  rw [List.length_append]
  by_cases long : 3 < expression.length
  · rw [List.take_append_of_le_length (by omega), pair_at_append_of_lt expression more (by omega),
      decide_eq_true long, decide_eq_true (by omega : 3 < expression.length + more.length)]
    exact (List.Sublist.refl _).append (List.range'_sublist_right.mpr (by omega))
  · have none : expression.length - 4 = 0 := by omega
    rw [decide_eq_false long, none]
    exact List.nil_sublist _

/-- Whatever is written behind an expression, its steps stay, in their order. -/
theorem steps_sublist_append : expression.steps.Sublist (expression ++ more).steps := by
  have sameParts :
      (expression.leadingSizes.map fun size => Step.leading (expression.take size)) =
        expression.leadingSizes.map fun size => Step.leading ((expression ++ more).take size) := by
    apply List.map_congr_left
    intro size member
    have shorter := expression.leading_size_lt member
    rw [List.take_append_of_le_length (Nat.le_of_lt shorter)]
  rw [steps_eq, steps_eq, sameParts]
  exact (expression.small_steps_sublist_append more).append
    ((expression.leading_sizes_sublist_append more).map _)

end Expression

namespace TruthTable

/-- Appending a token keeps all columns, with labels and values, in their order. -/
theorem columns_sublist_push (expression : Expression) (token : Token) :
    (generate expression).columns.Sublist (generate (expression.push token)).columns :=
  (expression.steps_sublist_append [token]).map ofStep

end TruthTable

end BooleanCube
