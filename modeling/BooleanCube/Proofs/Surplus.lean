import BooleanCube.Proofs.Precedence

/-!
# Connectives without operands

A connective in front of an alternation has no left operand, and one behind it has no right operand.
Those in front lie at the bottom of their stack until the drain and are dropped. The one behind comes
to lie on top, so the drain applies it first, to the values on both sides of the looser connective
below it. All that wait are moved by one place, and it is the lowest of them that is dropped.
-/

namespace BooleanCube

theorem Connective.classes_of_chain {earlier last op : Connective}
    (first : earlier.LooserThan last) (second : last.LooserThan op) :
    op = .and ∧ last = .or ∧ earlier ≠ .and ∧ earlier ≠ .or := by
  cases last with
  | and => cases op <;> simp [LooserThan] at second
  | or =>
      cases op with
      | and => exact ⟨rfl, rfl, first⟩
      | or => simp [LooserThan] at second
      | xor | nor | nand | implies | reverseImplies | xnor => exact second.elim
  | xor | nor | nand | implies | reverseImplies | xnor => exact first.elim

namespace Machine

def above (machine base : Machine) : Machine :=
  ⟨machine.operands ++ base.operands, machine.waiting ++ base.waiting⟩

section Base

variable (op : Connective) (value : Bool) {base : Machine}
  (looser : ∀ top ∈ base.waiting, top.precedence < op.precedence)

include looser

theorem shift_onto :
    shift op base.waiting (value :: base.operands) = ⟨value :: base.operands, op :: base.waiting⟩ := by
  rcases base with ⟨operands, waiting⟩
  cases waiting with
  | nil => rfl
  | cons top waiting =>
      cases operands with
      | nil => rfl
      | cons a operands =>
          exact shift_tighter op top waiting a value operands (looser top List.mem_cons_self)

/-- The loop for a connective does not reach what is looser: as long as there is one operand more
than connectives above it, it ends as if there were nothing below. -/
theorem shift_above (waiting : List Connective) (operands : List Bool)
    (balanced : operands.length = waiting.length) :
    shift op (waiting ++ base.waiting) (value :: (operands ++ base.operands)) =
      (shift op waiting (value :: operands)).above base := by
  induction waiting generalizing operands value with
  | nil =>
      have none : operands = [] := List.length_eq_zero_iff.mp balanced
      rw [none]
      exact shift_onto op value looser
  | cons top waiting ih =>
      cases operands with
      | nil => cases balanced
      | cons a operands =>
          have balancedBelow : operands.length = waiting.length := Nat.succ.inj balanced
          rw [List.cons_append, List.cons_append]
          by_cases applied : op.precedence ≤ top.precedence
          · rw [shift_looser _ _ _ _ _ _ applied, shift_looser _ _ _ _ _ _ applied]
            exact ih (top.apply a value) operands balancedBelow
          · have tighter : top.precedence < op.precedence := Nat.lt_of_not_le applied
            rw [shift_tighter _ _ _ _ _ _ tighter, shift_tighter _ _ _ _ _ _ tighter]
            rfl

end Base

theorem shift_drains (op : Connective) (value : Bool) (waiting : List Connective)
    (operands : List Bool) (balanced : operands.length = waiting.length)
    (tight : ∀ top ∈ waiting, op.precedence ≤ top.precedence) :
    shift op waiting (value :: operands) = ⟨drain waiting (value :: operands), [op]⟩ := by
  induction waiting generalizing operands value with
  | nil =>
      have none : operands = [] := List.length_eq_zero_iff.mp balanced
      rw [none]
      rfl
  | cons top waiting ih =>
      cases operands with
      | nil => cases balanced
      | cons a operands =>
          rw [List.forall_mem_cons] at tight
          rw [shift_looser _ _ _ _ _ _ tight.1, drain]
          exact ih (top.apply a value) operands (Nat.succ.inj balanced) tight.2

theorem fold_connectives (assignment : Assignment) (leading waiting : List Connective) :
    (leading.map Token.connective).foldl (step assignment) ⟨[], waiting⟩ =
      ⟨[], leading.reverse ++ waiting⟩ := by
  induction leading generalizing waiting with
  | nil => rfl
  | cons op leading ih =>
      have kept : shift op waiting [] = ⟨[], op :: waiting⟩ := by cases waiting <;> rfl
      rw [List.map_cons, List.foldl_cons, step, kept, ih, List.reverse_cons, List.append_assoc]
      rfl

end Machine

namespace Held

theorem operands_length (held : Held) : held.operands.length = held.waiting.length := by
  simp only [operands, waiting, List.length_append, Option.length_toList, Option.isSome_map]

theorem mem_waiting_next {held : Held} {value : Bool} {op top : Connective}
    (member : top ∈ (held.next value op).waiting) : top = op ∨ top ∈ held.waiting := by
  by_cases tightest : op = .and
  · subst tightest
    rcases List.mem_cons.mp member with same | below
    · exact .inl same
    · exact .inr (List.mem_append_right _ below)
  by_cases middle : op = .or
  · subst middle
    rcases List.mem_cons.mp member with same | below
    · exact .inl same
    · exact .inr (List.mem_append_right _ (List.mem_append_right _ below))
  · rw [next_of_loose _ _ tightest middle] at member
    exact .inl (List.mem_singleton.mp member)

/-- Reading an alternation and a connective that nothing before it is looser than leaves one value,
on top of a base that is looser still. -/
theorem run_closed (held : Held) (assignment : Assignment) (literal : Literal)
    (rest : List (Connective × Literal)) (op : Connective) (base : Machine)
    (tight : ∀ top ∈ held.waiting, op.precedence ≤ top.precedence)
    (closed : ∀ link ∈ rest, op.precedence ≤ link.1.precedence)
    (looser : ∀ top ∈ base.waiting, top.precedence < op.precedence) :
    ((Alternation.tokens ⟨literal, rest⟩).push (.connective op)).foldl (Machine.step assignment)
        (Machine.above ⟨held.operands, held.waiting⟩ base) =
      ⟨held.valueBehind assignment ⟨literal, rest⟩ :: base.operands, op :: base.waiting⟩ := by
  induction rest generalizing held literal with
  | nil =>
      have drained := held.drain_held (assignment.holds literal) []
      rw [List.append_nil] at drained
      have closing := Machine.shift_drains op (assignment.holds literal) held.waiting held.operands
        held.operands_length tight
      have framed := Machine.shift_above op (assignment.holds literal) looser held.waiting
        held.operands held.operands_length
      rw [closing, drained, ← value_behind_last] at framed
      exact framed
  | cons link rest ih =>
      rcases link with ⟨o, item⟩
      rw [List.forall_mem_cons] at closed
      have looserLink (top : Connective) (member : top ∈ base.waiting) :
          top.precedence < o.precedence :=
        Nat.lt_of_lt_of_le (looser top member) closed.1
      have tightNext (top : Connective)
          (member : top ∈ (held.next (assignment.holds literal) o).waiting) :
          op.precedence ≤ top.precedence := by
        rcases mem_waiting_next member with same | before
        · rw [same]
          exact closed.1
        · exact tight top before
      have shifted := held.shift_held o (assignment.holds literal) []
      rw [List.append_nil, List.append_nil] at shifted
      have framed := Machine.shift_above o (assignment.holds literal) looserLink held.waiting
        held.operands held.operands_length
      rw [shifted] at framed
      rw [value_behind_link, ← ih _ item tightNext closed.2, ← framed]
      rfl

end Held

namespace Alternation

section Splitting

variable {Item : Type}

def link (left : Alternation Item) (op : Connective) (right : Alternation Item) :
    Alternation Item :=
  ⟨left.first, left.rest ++ (op, right.first) :: right.rest⟩

/-- No connective of the alternation binds looser than this one. -/
def NoneLooser (alternation : Alternation Item) (op : Connective) : Prop :=
  ∀ link ∈ alternation.rest, ¬link.1.LooserThan op

instance (alternation : Alternation Item) (op : Connective) :
    Decidable (alternation.NoneLooser op) :=
  inferInstanceAs (Decidable (∀ link ∈ alternation.rest, ¬link.1.LooserThan op))

/-- The alternation split at the last of its connectives that are looser than `op`. -/
structure LastLooser (whole : Alternation Item) (op : Connective) (left : Alternation Item)
    (last : Connective) (right : Alternation Item) : Prop where
  parts : whole = left.link last right
  looser : last.LooserThan op
  behind : right.NoneLooser op

theorem exists_last_looser {whole : Alternation Item} {op : Connective}
    (present : ¬whole.NoneLooser op) : ∃ left last right, whole.LastLooser op left last right := by
  rcases whole with ⟨first, rest⟩
  induction rest generalizing first with
  | nil => exact absurd (List.forall_mem_nil _) present
  | cons link rest ih =>
      rcases link with ⟨o, item⟩
      by_cases behind : NoneLooser ⟨item, rest⟩ op
      · have looser : o.LooserThan op := by
          apply Decidable.byContradiction
          intro tight
          exact present (List.forall_mem_cons.mpr ⟨tight, behind⟩)
        exact ⟨⟨first, []⟩, o, ⟨item, rest⟩, rfl, looser, behind⟩
      · obtain ⟨left, last, right, parts, looser, closed⟩ := ih item behind
        have whole : (⟨first, (o, item) :: rest⟩ : Alternation Item) =
            Alternation.link ⟨first, (o, left.first) :: left.rest⟩ last right := by
          simp only [Alternation.link, mk.injEq] at parts
          rw [parts.1, parts.2]
          rfl
        exact ⟨⟨first, (o, left.first) :: left.rest⟩, last, right, whole, looser, closed⟩

end Splitting

variable (assignment : Assignment)

theorem tokens_link (left right : Alternation Literal) (op : Connective) :
    (left.link op right).tokens = left.tokens.push (.connective op) ++ right.tokens := by
  simp [tokens, link, Expression.push]

theorem run_closed {part : Alternation Literal} {op : Connective} (closed : part.NoneLooser op)
    (base : Machine) (looser : ∀ top ∈ base.waiting, top.precedence < op.precedence) :
    (part.tokens.push (.connective op)).foldl (Machine.step assignment) base =
      ⟨part.tokens.evaluate assignment :: base.operands, op :: base.waiting⟩ := by
  rw [evaluate_tokens, ← Held.value_behind_nothing]
  have tight : ∀ link ∈ part.rest, op.precedence ≤ link.1.precedence := fun link member =>
    Connective.not_looser_than_iff.mp (closed link member)
  exact Held.nothing.run_closed assignment part.first part.rest op base (List.forall_mem_nil _)
    tight looser

theorem NoneLooser.run_start {part : Alternation Literal} {op : Connective}
    (closed : part.NoneLooser op) :
    (part.tokens.push (.connective op)).foldl (Machine.step assignment) Machine.start =
      ⟨[part.tokens.evaluate assignment], [op]⟩ :=
  run_closed assignment closed Machine.start (List.forall_mem_nil _)

theorem NoneLooser.evaluate_push {part : Alternation Literal} {op : Connective}
    (closed : part.NoneLooser op) :
    (part.tokens.push (.connective op)).evaluate assignment = part.tokens.evaluate assignment := by
  rw [Expression.evaluate, Expression.operands, closed.run_start assignment]
  rfl

namespace LastLooser

variable {whole left right : Alternation Literal} {op last : Connective}

theorem tokens_push (split : whole.LastLooser op left last right) :
    whole.tokens.push (.connective op) =
      left.tokens.push (.connective last) ++ right.tokens.push (.connective op) := by
  rw [split.parts, tokens_link, Expression.push, List.append_assoc]
  rfl

/-- What was left by the part in front lies below the value of the part behind. -/
theorem run_push (split : whole.LastLooser op left last right) {operands : List Bool}
    {waiting : List Connective} (looser : ∀ top ∈ waiting, top.precedence < last.precedence)
    (before : (left.tokens.push (.connective last)).foldl (Machine.step assignment) Machine.start =
      ⟨operands, last :: waiting⟩) :
    (whole.tokens.push (.connective op)).foldl (Machine.step assignment) Machine.start =
      ⟨right.tokens.evaluate assignment :: operands, op :: last :: waiting⟩ := by
  rw [split.tokens_push, List.foldl_append, before]
  have lower : last.precedence < op.precedence := Connective.looser_than_iff.mp split.looser
  apply run_closed assignment split.behind
  rw [List.forall_mem_cons]
  constructor
  · exact lower
  · intro top member
    exact Nat.lt_trans (looser top member) lower

theorem evaluate_two (split : whole.LastLooser op left last right)
    (closed : left.NoneLooser last) :
    (whole.tokens.push (.connective op)).evaluate assignment =
      op.apply (left.tokens.evaluate assignment) (right.tokens.evaluate assignment) := by
  have first := closed.run_start assignment
  have run := split.run_push assignment (List.forall_mem_nil _) first
  rw [Expression.evaluate, Expression.operands, run]
  rfl

/-- Three classes of precedence wait, and the last to be taken from the stack is dropped. -/
theorem evaluate_three {front middle : Alternation Literal} {earlier : Connective}
    (split : whole.LastLooser op left last right)
    (before : left.LastLooser last front earlier middle) (closed : front.NoneLooser earlier) :
    (whole.tokens.push (.connective op)).evaluate assignment =
      last.apply (front.tokens.evaluate assignment)
        (op.apply (middle.tokens.evaluate assignment) (right.tokens.evaluate assignment)) := by
  have first := closed.run_start assignment
  have second := before.run_push assignment (List.forall_mem_nil _) first
  have lower := Connective.looser_than_iff.mp before.looser
  have run := split.run_push assignment (List.forall_mem_singleton.mpr lower) second
  rw [Expression.evaluate, Expression.operands, run]
  rfl

end LastLooser

/-- A connective behind an alternation is dropped if no other is looser. Otherwise the last looser
one splits the alternation. It is the one that is dropped, and the trailing connective joins the
parts, unless there is one still looser before it. Then all three classes of precedence occur: the
trailing conjunction joins the last two of three parts, the disjunction joins the first to them, and
the last connective of the loosest class is dropped. The parts have the values of the grammar. -/
theorem evaluate_trailing (whole : Alternation Literal) (op : Connective) :
    let value (part : Alternation Literal) : Bool := part.tokens.evaluate assignment
    let trailed : Bool := (whole.tokens.push (.connective op)).evaluate assignment
    (∀ part, value part = part.value assignment) ∧
      (whole.NoneLooser op → trailed = value whole) ∧
      (¬whole.NoneLooser op → ∃ left last right, whole.LastLooser op left last right) ∧
      ∀ left last right, whole.LastLooser op left last right →
        (left.NoneLooser last → trailed = op.apply (value left) (value right)) ∧
        (¬left.NoneLooser last → op = .and ∧ last = .or ∧
          (∃ front earlier middle, left.LastLooser last front earlier middle) ∧
          ∀ front earlier middle, left.LastLooser last front earlier middle →
            earlier ≠ .and ∧ earlier ≠ .or ∧
              trailed = Connective.or.apply (value front)
                (Connective.and.apply (value middle) (value right))) := by
  intro value trailed
  constructor
  · intro part
    exact part.evaluate_tokens assignment
  constructor
  · intro closed
    exact closed.evaluate_push assignment
  constructor
  · exact exists_last_looser
  intro left last right split
  constructor
  · exact split.evaluate_two assignment
  · intro looserBefore
    have classes : op = .and ∧ last = .or := by
      obtain ⟨_, _, _, before⟩ := exists_last_looser looserBefore
      have chain := Connective.classes_of_chain before.looser split.looser
      exact ⟨chain.1, chain.2.1⟩
    refine ⟨classes.1, classes.2, exists_last_looser looserBefore, ?_⟩
    intro front earlier middle before
    obtain ⟨_, _, notAnd, notOr⟩ := Connective.classes_of_chain before.looser split.looser
    have closed : front.NoneLooser earlier := by
      intro link _
      rw [Connective.not_looser_than_iff, Connective.precedence_zero notAnd notOr]
      exact Nat.zero_le _
    have three : trailed = last.apply (value front) (op.apply (value middle) (value right)) :=
      split.evaluate_three assignment before closed
    rw [classes.1, classes.2] at three
    exact ⟨notAnd, notOr, three⟩

/-- All three classes: a conjunction behind `x ⊕ y ∨ z ∧ x̄` pushes the exclusive disjunction out. -/
theorem evaluate_trailing_three_classes :
    let whole : Alternation Literal :=
      ⟨.plain .x, [(.xor, .plain .y), (.or, .plain .z), (.and, .negative .x)]⟩
    let left : Alternation Literal := ⟨.plain .x, [(.xor, .plain .y)]⟩
    let right : Alternation Literal := ⟨.plain .z, [(.and, .negative .x)]⟩
    let assignment : Assignment := ⟨true, true, false⟩
    whole.LastLooser .and left .or right ∧ ¬left.NoneLooser .or ∧
      left.LastLooser .or ⟨.plain .x, []⟩ .xor ⟨.plain .y, []⟩ ∧
      (whole.tokens.push (.connective .and)).evaluate assignment =
        Connective.or.apply (Expression.evaluate [.operand (.plain .x)] assignment)
          (Connective.and.apply (Expression.evaluate [.operand (.plain .y)] assignment)
            (right.tokens.evaluate assignment)) := by
  intro whole left right assignment
  have split : whole.LastLooser .and left .or right := ⟨rfl, by decide, by decide⟩
  have looserBefore : ¬left.NoneLooser .or := by decide
  have before : left.LastLooser .or ⟨.plain .x, []⟩ .xor ⟨.plain .y, []⟩ :=
    ⟨rfl, by decide, by decide⟩
  obtain ⟨-, -, -, splits⟩ := evaluate_trailing assignment whole .and
  obtain ⟨-, -, -, earlier⟩ := (splits left .or right split).2 looserBefore
  exact ⟨split, looserBefore, before, (earlier _ _ _ before).2.2⟩

/-- Connectives in front of an alternation change nothing, whatever their precedence: it keeps the
value of the grammar. -/
theorem evaluate_leading (leading : List Connective) (alternation : Alternation Literal) :
    Expression.evaluate (leading.map Token.connective ++ alternation.tokens) assignment =
        alternation.tokens.evaluate assignment ∧
      alternation.tokens.evaluate assignment = alternation.value assignment := by
  have run := alternation.finish_tokens assignment (leading.reverse ++ [])
  have plain := alternation.evaluate_tokens assignment
  constructor
  · rw [plain, Expression.evaluate, Expression.operands, List.foldl_append, Machine.start,
      Machine.fold_connectives]
    exact congrArg (fun values => values.headD false) run
  · exact plain

end Alternation

end BooleanCube
