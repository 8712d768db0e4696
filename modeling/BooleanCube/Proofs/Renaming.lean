import BooleanCube.Proofs.ColumnLayout
import BooleanCube.Proofs.Rows
import Mathlib.Logic.Equiv.Defs

/-!
# Renaming the variables of an expression

A renaming acts on expressions and their texts by the letters and on rows by moving the bit of every
variable. Evaluation cannot tell, and the planner treats all variables alike: the table of a renamed
expression is the table of the expression with its labels renamed and its rows moved.
-/

namespace BooleanCube

abbrev Renaming := Equiv.Perm Variable

variable (perm : Renaming)

def Literal.rename (literal : Literal) : Literal := ⟨perm literal.var, literal.negated⟩

def Token.rename : Token → Token
  | operand literal => operand (literal.rename perm)
  | token => token

def Expression.rename (expression : Expression) : Expression :=
  expression.map (Token.rename perm)

def Step.rename : Step → Step
  | negation var => negation (perm var)
  | pair left op right => pair (left.rename perm) op (right.rename perm)
  | leading tokens => leading (Expression.rename perm tokens)

/-- Every variable gets the value of the one that it is the new name of. -/
def Assignment.rename (assignment : Assignment) : Assignment :=
  .ofFn fun var => assignment.get (perm.symm var)

/-- The row with the bit of every variable moved to the place of its new name. -/
def Row.rename (row : Row) : Row := ((Assignment.ofRow row).rename perm).row

/-- The function whose value in a moved row is the value in the row itself. -/
def TruthVector.rename (vector : TruthVector) : TruthVector :=
  .ofFn fun row => vector.get (row.rename perm.symm)

/-- The letter of the new name for the letter of a variable, any other character itself. -/
def Text.renameLetter (char : Char) : Char :=
  match Variable.all.find? fun var => var.letter = char with
  | some var => (perm var).letter
  | none => char

def Text.rename (text : String) : String := text.map (renameLetter perm)

def Column.rename (column : Column) : Column :=
  ⟨Text.rename perm column.label, column.values.rename perm⟩

namespace Assignment

theorem get_rename (assignment : Assignment) (var : Variable) :
    (assignment.rename perm).get (perm var) = assignment.get var := by
  rw [rename, get_of_fn, perm.symm_apply_apply]

theorem holds_rename (assignment : Assignment) (literal : Literal) :
    (assignment.rename perm).holds (literal.rename perm) = assignment.holds literal := by
  rw [holds, holds, Literal.rename, get_rename]

end Assignment

namespace Row

theorem bit_rename (row : Row) (var : Variable) :
    (perm var).bit (row.rename perm) = var.bit row := by
  rw [rename, Assignment.bit_row, Assignment.get_rename, Assignment.get_of_row]

theorem assignment_rename (row : Row) :
    Assignment.ofRow (row.rename perm) = (Assignment.ofRow row).rename perm := by
  rw [rename, Assignment.of_row_row]

theorem rename_symm_rename (row : Row) : (row.rename perm.symm).rename perm = row := by
  apply Row.eq_of_bits
  intro var
  have there := (row.rename perm.symm).bit_rename perm (perm.symm var)
  have back := row.bit_rename perm.symm var
  rw [perm.apply_symm_apply] at there
  rw [there, back]

end Row

namespace TruthVector

theorem get_rename (vector : TruthVector) (row : Row) :
    (vector.rename perm).get (row.rename perm) = vector.get row := by
  rw [rename, get_of_fn]
  exact congrArg vector.get (row.rename_symm_rename perm.symm)

theorem of_fn_rename {value renamed : Row → Bool}
    (moved : ∀ row : Row, renamed (row.rename perm) = value row) :
    ofFn renamed = (ofFn value).rename perm := by
  apply of_fn_eq
  intro row
  rw [rename, get_of_fn, get_of_fn, ← moved, Row.rename_symm_rename]

end TruthVector

namespace Expression

theorem evaluate_rename (expression : Expression) (assignment : Assignment) :
    (expression.rename perm).evaluate (assignment.rename perm) =
      expression.evaluate assignment := by
  have steps : (fun machine token =>
      Machine.step (assignment.rename perm) machine (Token.rename perm token)) =
        Machine.step assignment := by
    funext machine token
    cases token with
    | operand literal =>
        rw [Token.rename, Machine.step, Machine.step, Assignment.holds_rename]
    | _ => rfl
  rw [evaluate, evaluate, operands, operands, rename, List.foldl_map, steps]

theorem literals_rename (expression : Expression) :
    (expression.rename perm).literals = expression.literals.map (Literal.rename perm) := by
  rw [literals, literals, rename, List.filterMap_map, List.map_filterMap]
  apply congrArg fun pick => expression.filterMap pick
  funext token
  cases token <;> rfl

theorem take_rename (expression : Expression) (size : Nat) :
    (expression.rename perm).take size = rename perm (expression.take size) :=
  List.map_take.symm

theorem negated_rename (expression : Expression) :
    (expression.rename perm).negated = expression.negated.map perm := by
  have picked : Token.negated? ∘ Token.rename perm =
      fun token => token.negated?.map perm := by
    funext token
    rcases token with ⟨var, _ | _⟩ | op | _ | _ <;> rfl
  rw [negated_eq, negated_eq, rename, List.filterMap_map, picked, ← List.map_filterMap,
    erase_dups_map perm.injective]

theorem pair_at_rename (expression : Expression) (position : Nat) :
    (expression.rename perm).pairAt? position =
      (expression.pairAt? position).map fun (left, op, right) =>
        (left.rename perm, op, right.rename perm) := by
  unfold pairAt? rename
  rw [List.getElem?_map, List.getElem?_map, List.getElem?_map]
  rcases expression[position]? with _ | first | op | _ | _
  · rfl
  · rcases expression[position + 1]? with _ | left | op | _ | _
    · rfl
    · rfl
    · rcases expression[position + 2]? with _ | last | op | _ | _ <;> rfl
    · rfl
    · rfl
  · rfl
  · rfl
  · rfl

theorem pairs_rename (expression : Expression) :
    (expression.rename perm).pairs =
      expression.pairs.map fun (left, op, right) =>
        (left.rename perm, op, right.rename perm) := by
  rw [pairs_eq_filter_map, pairs_eq_filter_map, List.map_filterMap]
  simp only [← pair_at_rename]
  rw [rename, List.length_map]

theorem pair_steps_rename (expression : Expression) :
    (expression.rename perm).pairSteps = expression.pairSteps.map (Step.rename perm) := by
  unfold pairSteps
  rw [List.map_flatMap]
  apply congrArg fun steps => Connective.precedences.flatMap steps
  funext precedence
  rw [pairs_rename, List.filter_map, List.map_map, List.map_map]
  rfl

theorem leading_sizes_rename (expression : Expression) :
    (expression.rename perm).leadingSizes = expression.leadingSizes := by
  have length : (expression.rename perm).length = expression.length := List.length_map _
  have signs : Literal.negated ∘ Literal.rename perm = Literal.negated := rfl
  unfold leadingSizes
  rw [length, take_rename, literals_rename, List.any_map, signs, pair_at_rename,
    Option.isNone_map]

theorem steps_rename (expression : Expression) :
    (expression.rename perm).steps = expression.steps.map (Step.rename perm) := by
  rw [steps_eq, steps_eq, smallSteps, smallSteps, negated_rename, pair_steps_rename,
    leading_sizes_rename]
  simp only [take_rename, List.map_append, List.map_map]
  rfl

end Expression

namespace Text

theorem rename_letter (var : Variable) : renameLetter perm var.letter = (perm var).letter := by
  cases var <;> rfl

theorem rename_append (left right : String) :
    rename perm (left ++ right) = rename perm left ++ rename perm right := by
  apply String.toList_inj.mp
  simp only [rename, String.toList_map, String.toList_append, List.map_append]

end Text

theorem Token.render_rename (token : Token) :
    (token.rename perm).render = Text.rename perm token.render := by
  have macronStays : Text.renameLetter perm macron = macron := rfl
  apply String.toList_inj.mp
  rw [Text.rename, String.toList_map, render_to_list, render_to_list]
  rcases token with ⟨var, _ | _⟩ | op | _ | _
  · simp [rename, Literal.rename, parts, Lexeme.text, Text.rename_letter]
  · simp [rename, Literal.rename, parts, Lexeme.text, Text.rename_letter, macronStays]
  · cases op <;> rfl
  · rfl
  · rfl

theorem Expression.render_rename (expression : Expression) :
    (expression.rename perm).render = Text.rename perm expression.render := by
  induction expression with
  | nil =>
      apply String.toList_inj.mp
      rw [Text.rename, String.toList_map]
      rfl
  | cons token rest ih =>
      calc
        (rename perm (token :: rest)).render =
            (token.rename perm).render ++ (rename perm rest).render := String.join_cons
        _ = Text.rename perm (token.render ++ render rest) := by
          rw [Token.render_rename, ih, Text.rename_append]
        _ = Text.rename perm (render (token :: rest)) := congrArg _ String.join_cons.symm

namespace Step

theorem tokens_rename (step : Step) :
    (step.rename perm).tokens = Expression.rename perm step.tokens := by
  cases step <;> rfl

theorem label_rename (step : Step) :
    (step.rename perm).label = Text.rename perm step.label := by
  rw [← render_tokens, ← render_tokens, tokens_rename, Expression.render_rename]

theorem evaluate_rename (step : Step) (assignment : Assignment) :
    (step.rename perm).evaluate (assignment.rename perm) = step.evaluate assignment := by
  rw [← evaluate_tokens, ← evaluate_tokens, tokens_rename, Expression.evaluate_rename]

end Step

namespace TruthTable

theorem of_step_rename (step : Step) :
    ofStep (step.rename perm) = (ofStep step).rename perm := by
  have values : (ofStep (step.rename perm)).values = (ofStep step).values.rename perm := by
    apply TruthVector.of_fn_rename
    intro row
    rw [Row.assignment_rename, Step.evaluate_rename]
  exact congrArg₂ Column.mk (step.label_rename perm) values

/-- The columns of a renamed expression are the renamed columns, one for one. -/
theorem columns_rename (expression : Expression) :
    (generate (expression.rename perm)).columns =
      (generate expression).columns.map (Column.rename perm) := by
  unfold generate
  simp only [Expression.steps_rename, List.map_map]
  apply List.map_congr_left
  intro step _
  exact of_step_rename perm step

theorem vector_rename (expression : Expression) :
    (generate (expression.rename perm)).vector = (generate expression).vector.rename perm := by
  apply TruthVector.of_fn_rename
  intro row
  rw [Row.assignment_rename, Expression.evaluate_rename]

end TruthTable

end BooleanCube
