import BooleanCube.Proofs.FirstOccurrence
import BooleanCube.Proofs.StepLabels
import BooleanCube.Proofs.TermText
import Mathlib.Data.List.Nodup
import Mathlib.Tactic.Tauto

/-!
# The layout of the columns

The planner of a table looks at texts: it keeps a leading part if its label is new and long enough.
Texts tell expressions apart and have at least one character for each token, so what is kept can be
told from the tokens alone. Of the leading parts only the one of three tokens is ever left out.

The columns are told here without the steps of the planner: by the characters of their tokens, and
by bits for the negations and pairs.
-/

namespace BooleanCube

namespace Token

/-- The characters of a token. A negated letter has a macron behind it. -/
def chars : Token → List Char
  | operand ⟨var, negated⟩ => var.letter :: if negated then ['\u0304'] else []
  | connective op => [op.symbol]
  | opening => ['(']
  | closing => [')']

theorem text_parts (token : Token) : token.parts.flatMap Lexeme.text = token.chars := by
  rcases token with ⟨var, _ | _⟩ | op | _ | _ <;> rfl

theorem chars_length (token : Token) :
    token.chars.length = 1 + (Expression.literals [token]).countP Literal.negated := by
  rcases token with ⟨var, _ | _⟩ | op | _ | _ <;> rfl

end Token

namespace Expression

theorem render_chars (expression : Expression) :
    expression.render = String.ofList (expression.flatMap Token.chars) := by
  rw [← String.toList_inj, render_to_list, String.toList_ofList, List.flatMap_assoc]
  exact congrArg (fun chars => expression.flatMap chars) (funext Token.text_parts)

theorem render_length (expression : Expression) :
    expression.render.length =
      expression.length + expression.literals.countP Literal.negated := by
  rw [render_chars, String.length_ofList]
  induction expression with
  | nil => rfl
  | cons token rest ih =>
      have signs : literals (token :: rest) = literals [token] ++ literals rest :=
        literals_append [token] rest
      rw [List.flatMap_cons, List.length_append, token.chars_length, ih, signs, List.countP_append,
        List.length_cons]
      omega

theorem negated_in_order (expression : Expression) :
    expression.negated.Pairwise fun earlier later =>
      expression.idxOf (.operand (.negative earlier)) <
        expression.idxOf (.operand (.negative later)) := by
  rw [negated_eq]
  apply (erase_dups_in_order _).imp
  intro earlier later before
  apply index_lt_of_filter_map _ _ expression before
  · intro token
    exact Token.negated_eq_some_iff
  · intro token
    exact Token.negated_eq_some_iff

section Pairs

/-- The literals and the connective that stand at a position and at the two behind it. -/
def pairAt? (expression : Expression) (position : Nat) : Option (Literal × Connective × Literal) :=
  match expression[position]?, expression[position + 1]?, expression[position + 2]? with
  | some (.operand left), some (.connective op), some (.operand right) => some (left, op, right)
  | _, _, _ => none

/-- The pairs whose connective is picked, in the order of their positions. -/
def pairsWith (expression : Expression) (picked : Connective → Bool) :
    List (Literal × Connective × Literal) :=
  ((List.range expression.length).filterMap expression.pairAt?).filter fun (_, op, _) => picked op

theorem pair_at_eq_some_iff {expression : Expression} {position : Nat} {left right : Literal}
    {op : Connective} :
    expression.pairAt? position = some (left, op, right) ↔
      expression[position]? = some (.operand left) ∧
        expression[position + 1]? = some (.connective op) ∧
        expression[position + 2]? = some (.operand right) := by
  unfold pairAt?
  constructor
  · intro found
    split at found
    · next first second third =>
        cases found
        exact ⟨first, second, third⟩
    · cases found
  · intro found
    rcases found with ⟨first, second, third⟩
    rw [first, second, third]

theorem pairs_cons (token : Token) (rest : Expression) :
    pairs (token :: rest) = (pairAt? (token :: rest) 0).toList ++ rest.pairs := by
  conv_lhs => unfold pairs
  split
  · rfl
  · next noPair =>
      have missing : pairAt? (token :: rest) 0 = none := by
        rw [Option.eq_none_iff_forall_ne_some]
        intro ⟨left, op, right⟩ found
        rcases pair_at_eq_some_iff.mp found with ⟨first, second, third⟩
        rcases rest with _ | ⟨next, _ | ⟨last, others⟩⟩
        · cases second
        · cases third
        · cases first
          cases second
          cases third
          exact noPair _ _ _ _ rfl rfl
      rw [missing]
      rfl

theorem pairs_eq_filter_map (expression : Expression) :
    expression.pairs = (List.range expression.length).filterMap expression.pairAt? := by
  induction expression with
  | nil => rfl
  | cons token rest ih =>
      have later : pairAt? (token :: rest) ∘ Nat.succ = pairAt? rest := by
        funext position
        rfl
      rw [pairs_cons, List.length_cons, List.range_succ_eq_map, List.filterMap_cons,
        List.filterMap_map, later, ih]
      cases pairAt? (token :: rest) 0 <;> rfl

theorem pair_steps_eq (expression : Expression) :
    expression.pairSteps =
      (expression.pairsWith (fun op => op = .and) ++ expression.pairsWith (fun op => op = .or) ++
        expression.pairsWith fun op => op ≠ .and ∧ op ≠ .or).map
          fun (left, op, right) => .pair left op right := by
  have conjunction (op : Connective) : (op.precedence = 2) = (op = .and) := by
    cases op <;> decide
  have disjunction (op : Connective) : (op.precedence = 1) = (op = .or) := by
    cases op <;> decide
  have loosest (op : Connective) : (op.precedence = 0) = (op ≠ .and ∧ op ≠ .or) := by
    cases op <;> decide
  simp only [pairSteps, Connective.precedences, List.flatMap_cons, List.flatMap_nil,
    List.append_nil, pairs_eq_filter_map, pairsWith, conjunction, disjunction, loosest,
    List.append_assoc, List.map_append]

end Pairs

/-- Among different parts those are new whose tokens, and so whose labels, were not seen before. -/
theorem unseen_eq_filter (seen parts : List Expression) (nodup : parts.Nodup) :
    unseen (seen.map render) parts =
      parts.filter fun part => 3 < part.render.length && !seen.contains part := by
  induction parts generalizing seen with
  | nil => rfl
  | cons part rest ih =>
      rcases List.nodup_cons.mp nodup with ⟨new, restNodup⟩
      have seenLabel : (seen.map render).contains part.render = seen.contains part := by
        rw [Bool.eq_iff_iff, List.contains_iff_mem, List.contains_iff_mem]
        exact List.mem_map_of_injective fun _ _ => render_inj
      have restKept :
          (rest.filter fun other => 3 < other.render.length && !(part :: seen).contains other) =
            rest.filter fun other => 3 < other.render.length && !seen.contains other := by
        apply List.filter_congr
        intro other member
        have different : (other == part) = false := by
          rw [beq_eq_false_iff_ne]
          intro same
          exact new (same ▸ member)
        rw [List.contains_cons, different, Bool.false_or]
      have afterwards := ih (part :: seen) restNodup
      rw [List.map_cons] at afterwards
      rw [unseen, seenLabel, afterwards, restKept, ih seen restNodup, List.filter_cons]

section Leading

variable {expression : Expression} {size : Nat}

theorem pair_at_start_iff {left right : Literal} {op : Connective} :
    expression.pairAt? 0 = some (left, op, right) ↔
      expression.take 3 = [.operand left, .connective op, .operand right] := by
  rw [pair_at_eq_some_iff]
  rcases expression with _ | ⟨first, _ | ⟨second, _ | ⟨third, rest⟩⟩⟩ <;> simp

theorem mem_pair_steps_iff {step : Step} :
    step ∈ expression.pairSteps ↔
      ∃ left op right, (left, op, right) ∈ expression.pairs ∧ step = .pair left op right := by
  have classes (op : Connective) : op.precedence ∈ Connective.precedences := by
    cases op <;> decide
  simp only [pairSteps, List.mem_flatMap, List.mem_map, List.mem_filter, decide_eq_true_eq]
  constructor
  · intro found
    rcases found with ⟨_, _, ⟨left, op, right⟩, ⟨member, _⟩, rfl⟩
    exact ⟨left, op, right, member, rfl⟩
  · intro found
    rcases found with ⟨left, op, right, member, rfl⟩
    exact ⟨op.precedence, classes op, (left, op, right), ⟨member, rfl⟩, rfl⟩

def smallSteps (expression : Expression) : List Step :=
  expression.negated.map .negation ++ expression.pairSteps

theorem small_labels (expression : Expression) :
    expression.smallSteps.map Step.label = (expression.smallSteps.map Step.tokens).map render := by
  rw [List.map_map]
  apply List.map_congr_left
  intro step _
  exact step.render_tokens.symm

theorem take_mem_small_iff (lower : 3 ≤ size) (upper : size ≤ expression.length) :
    expression.take size ∈ expression.smallSteps.map Step.tokens ↔
      size = 3 ∧ (expression.pairAt? 0).isSome := by
  rw [List.mem_map]
  constructor
  · intro found
    rcases found with ⟨step, member, same⟩
    have sizes : step.tokens.length = size := by
      rw [same, List.length_take]
      omega
    rcases List.mem_append.mp member with negation | pair
    · rcases List.mem_map.mp negation with ⟨var, _, rfl⟩
      rw [Step.tokens, List.length_singleton] at sizes
      omega
    · rcases mem_pair_steps_iff.mp pair with ⟨left, op, right, _, rfl⟩
      have three : size = 3 := sizes.symm
      subst three
      exact ⟨rfl, Option.isSome_iff_exists.mpr ⟨_, pair_at_start_iff.mpr same.symm⟩⟩
  · intro pairInFront
    rcases pairInFront with ⟨rfl, found⟩
    rcases Option.isSome_iff_exists.mp found with ⟨⟨left, op, right⟩, atStart⟩
    have isPair : (left, op, right) ∈ expression.pairs := by
      rw [pairs_eq_filter_map, List.mem_filterMap]
      exact ⟨0, List.mem_range.mpr (by omega), atStart⟩
    have isStep := mem_pair_steps_iff.mpr ⟨left, op, right, isPair, rfl⟩
    exact ⟨.pair left op right, List.mem_append_right _ isStep,
      (pair_at_start_iff.mp atStart).symm⟩

theorem long_label_iff (lower : 3 ≤ size) (upper : size ≤ expression.length) :
    3 < (render (expression.take size)).length ↔
      size ≠ 3 ∨ (literals (expression.take 3)).any Literal.negated = true := by
  rw [render_length, List.length_take, Nat.min_eq_left upper]
  by_cases three : size = 3
  · have signs : 0 < (literals (expression.take 3)).countP Literal.negated ↔
        (literals (expression.take 3)).any Literal.negated = true := by
      rw [List.countP_pos_iff, List.any_eq_true]
    rw [three, ← signs]
    omega
  · constructor
    · intro _
      exact .inl three
    · intro _
      omega

/-- A leading part is kept if its label is long and no small step has the same tokens. -/
def keeps (expression part : Expression) : Bool :=
  3 < part.render.length && !(expression.smallSteps.map Step.tokens).contains part

/-- Every leading part of four tokens and more is kept. One of three tokens is kept if there is a
negation in it and it is no pair. -/
theorem keeps_iff (lower : 3 ≤ size) (upper : size ≤ expression.length) :
    expression.keeps (expression.take size) = true ↔
      size ≠ 3 ∨ (literals (expression.take 3)).any Literal.negated = true ∧
        (expression.pairAt? 0).isNone = true := by
  rw [keeps, Bool.and_eq_true, decide_eq_true_iff, Bool.not_eq_true', ← Bool.not_eq_true,
    List.contains_iff_mem, long_label_iff lower upper, take_mem_small_iff lower upper,
    Option.isSome_iff_ne_none, Option.isNone_iff_eq_none]
  tauto

/-- The sizes of the leading parts that have a column: three if the expression goes on and begins
with a negation among three tokens that are no pair, and every size from four on, short of the
whole. -/
def leadingSizes (expression : Expression) : List Nat :=
  (if 3 < expression.length && (literals (expression.take 3)).any Literal.negated &&
      (expression.pairAt? 0).isNone then [3] else []) ++ List.range' 4 (expression.length - 4)

theorem leading_parts_nodup (expression : Expression) : expression.leadingParts.Nodup := by
  apply List.Nodup.map_on _ List.nodup_range'
  intro left leftMember right rightMember same
  rw [List.mem_range'_1] at leftMember rightMember
  have sizes := congrArg List.length same
  rw [List.length_take, List.length_take] at sizes
  omega

theorem unseen_leading_parts (expression : Expression) :
    unseen (expression.smallSteps.map Step.label) expression.leadingParts =
      expression.leadingSizes.map fun size => expression.take size := by
  have filtered : unseen (expression.smallSteps.map Step.label) expression.leadingParts =
      expression.leadingParts.filter expression.keeps := by
    rw [small_labels]
    exact unseen_eq_filter _ _ expression.leading_parts_nodup
  rw [filtered, leadingParts, List.filter_map]
  apply congrArg
  unfold leadingSizes
  by_cases long : 3 < expression.length
  · have sizes : expression.length - 3 = expression.length - 4 + 1 := by omega
    have four : (List.range' 4 (expression.length - 4)).filter
        (expression.keeps ∘ fun size => expression.take size) =
          List.range' 4 (expression.length - 4) := by
      rw [List.filter_eq_self]
      intro size member
      rw [List.mem_range'_1] at member
      exact (keeps_iff (by omega) (by omega)).mpr (.inl (by omega))
    have three : (expression.keeps ∘ fun size => expression.take size) 3 =
        ((literals (expression.take 3)).any Literal.negated && (expression.pairAt? 0).isNone) := by
      rw [Bool.eq_iff_iff, Bool.and_eq_true]
      exact (keeps_iff (Nat.le_refl 3) (by omega)).trans (or_iff_right (not_not.mpr rfl))
    rw [sizes, List.range'_succ, List.filter_cons, four, three, decide_eq_true long,
      Bool.true_and]
    split <;> rfl
  · have none : expression.length - 3 = 0 := by omega
    have noneLonger : expression.length - 4 = 0 := by omega
    rw [none, noneLonger, decide_eq_false long, Bool.false_and]
    rfl

theorem steps_eq (expression : Expression) :
    expression.steps = expression.smallSteps ++
      expression.leadingSizes.map fun size => .leading (expression.take size) := by
  have leading := expression.unseen_leading_parts
  rw [smallSteps] at leading
  rw [steps, leading, List.map_map]
  rfl

end Leading

end Expression

namespace Column

/-- A column with the text of these tokens above it. -/
def headed (tokens : Expression) (value : Row → Bool) : Column :=
  ⟨String.ofList (tokens.flatMap Token.chars), Vector.ofFn value⟩

def ofNegation (var : Variable) : Column :=
  headed [.operand ⟨var, true⟩] fun row => !var.bit row

def ofPair : Literal × Connective × Literal → Column
  | (left, op, right) =>
      headed [.operand left, .connective op, .operand right] fun row =>
        op.apply (left.var.bit row != left.negated) (right.var.bit row != right.negated)

def ofLeading (tokens : Expression) : Column :=
  headed tokens fun row => tokens.evaluate (.ofRow row)

end Column

namespace TruthTable

theorem of_step_headed (step : Step) :
    ofStep step = .headed step.tokens fun row => step.evaluate (.ofRow row) := by
  rw [ofStep, ← step.render_tokens, Expression.render_chars]
  rfl

theorem of_step_negation (var : Variable) : ofStep (.negation var) = .ofNegation var := by
  simp only [of_step_headed, Step.evaluate, Assignment.get_of_row]
  rfl

theorem of_step_pair (left right : Literal) (op : Connective) :
    ofStep (.pair left op right) = .ofPair (left, op, right) := by
  simp only [of_step_headed, Step.evaluate, Assignment.holds_of_row]
  rfl

theorem of_step_leading (tokens : Expression) : ofStep (.leading tokens) = .ofLeading tokens :=
  of_step_headed (.leading tokens)

/-- The columns of a table: the negated variables in the order in which they first occur negated,
the pairs of neighbouring literals at every position, tightest connectives first, and the leading
parts by size. There is one for every size from four on; that of three tokens is left out if it is
a pair or has no negation. -/
theorem columns_laid_out (expression : Expression) :
    ∃ negated : List Variable,
      (∀ var, var ∈ negated ↔ .operand (.negative var) ∈ expression) ∧
      negated.Pairwise (fun earlier later =>
        expression.idxOf (.operand (.negative earlier)) <
          expression.idxOf (.operand (.negative later))) ∧
      (generate expression).columns =
        negated.map .ofNegation ++
          (expression.pairsWith (fun op => op = .and) ++
            expression.pairsWith (fun op => op = .or) ++
            expression.pairsWith fun op => op ≠ .and ∧ op ≠ .or).map .ofPair ++
          expression.leadingSizes.map fun size => .ofLeading (expression.take size) := by
  refine ⟨expression.negated, ?_, expression.negated_in_order, ?_⟩
  · intro var
    exact Expression.mem_negated_iff
  · rw [generate, expression.steps_eq, Expression.smallSteps, Expression.pair_steps_eq]
    simp only [List.map_append, List.map_map, Function.comp_def, of_step_negation, of_step_pair,
      of_step_leading]

end TruthTable

end BooleanCube
