import BooleanCube.Proofs.Grammar

/-!
# The stacks follow the grammar

The evaluator sees one token at a time and keeps two stacks. Between two literals these hold at most
three values, one for each class of precedence, with the loosest at the bottom. What they hold is
exactly what the grammar has cut off so far, and this relation is kept from token to token.
-/

namespace BooleanCube

theorem Connective.precedence_zero {op : Connective} (notAnd : op ≠ .and) (notOr : op ≠ .or) :
    op.precedence = 0 := by
  cases op <;> first | rfl | contradiction

/-- The numbers of precedence order the connectives as the grammar does. -/
theorem Connective.looser_than_iff {op other : Connective} :
    op.LooserThan other ↔ op.precedence < other.precedence := by
  cases op <;> cases other <;> decide

theorem Connective.not_looser_than_iff {op other : Connective} :
    ¬op.LooserThan other ↔ other.precedence ≤ op.precedence := by
  rw [looser_than_iff, Nat.not_lt]

namespace Machine

theorem shift_single (op : Connective) (waiting : List Connective) (value : Bool) :
    shift op waiting [value] = ⟨[value], op :: waiting⟩ := by
  cases waiting <;> rfl

theorem drain_single (waiting : List Connective) (value : Bool) :
    drain waiting [value] = [value] := by
  induction waiting with
  | nil => rfl
  | cons op waiting ih => simpa only [drain] using ih

theorem shift_looser (op top : Connective) (waiting : List Connective) (a b : Bool)
    (operands : List Bool) (looser : op.precedence ≤ top.precedence) :
    shift op (top :: waiting) (b :: a :: operands) = shift op waiting (top.apply a b :: operands) := by
  rw [shift, if_pos looser]

theorem shift_tighter (op top : Connective) (waiting : List Connective) (a b : Bool)
    (operands : List Bool) (tighter : top.precedence < op.precedence) :
    shift op (top :: waiting) (b :: a :: operands) = ⟨b :: a :: operands, op :: top :: waiting⟩ := by
  rw [shift, if_neg (Nat.not_le.mpr tighter)]

theorem fold_step_bare (assignment : Assignment) (expression : Expression) (machine : Machine) :
    expression.bare.foldl (step assignment) machine = expression.foldl (step assignment) machine := by
  induction expression generalizing machine with
  | nil => rfl
  | cons token rest ih =>
      have bareRest := ih (step assignment machine token)
      cases token <;> simpa [Expression.bare, step] using bareRest

end Machine

/-- What has been read before an operand and still waits for it: the value of the finished segments
with the connective behind them, that of the finished groups of the open segment, and that of the
literals of the open group. -/
structure Held where
  segments : Option (Bool × Connective)
  groups : Option Bool
  literals : Option Bool
  loosest : ∀ link ∈ segments, link.2.precedence = 0

namespace Held

def nothing : Held := ⟨none, none, none, by simp⟩

/-- The value of the open group if it ends with `value`. -/
def group (held : Held) (value : Bool) : Bool := held.literals.elim value fun left => left && value

/-- The value of the open segment if it ends with a group of this value. -/
def segment (held : Held) (group : Bool) : Bool := held.groups.elim group fun left => left || group

def whole (held : Held) (segment : Bool) : Bool :=
  held.segments.elim segment fun (left, op) => op.apply left segment

def next (held : Held) (value : Bool) (op : Connective) : Held :=
  if tightest : op = .and then { held with literals := some (held.group value) }
  else if middle : op = .or then
    { held with groups := some (held.segment (held.group value)), literals := none }
  else
    ⟨some (held.whole (held.segment (held.group value)), op), none, none, by
      rintro link ⟨⟩
      exact Connective.precedence_zero tightest middle⟩

theorem next_of_loose (held : Held) (value : Bool) {op : Connective} (notAnd : op ≠ .and)
    (notOr : op ≠ .or) :
    held.next value op =
      ⟨some (held.whole (held.segment (held.group value)), op), none, none, by
        rintro link ⟨⟩
        exact Connective.precedence_zero notAnd notOr⟩ := by
  rw [next, dif_neg notAnd, dif_neg notOr]

def operands (held : Held) : List Bool :=
  held.literals.toList ++ (held.groups.toList ++ (held.segments.map Prod.fst).toList)

/-- The connectives on the stack, the top first: precedence falls strictly towards the bottom. -/
def waiting (held : Held) : List Connective :=
  (held.literals.map fun _ => .and).toList ++
    ((held.groups.map fun _ => .or).toList ++ (held.segments.map Prod.snd).toList)

section Stacks

variable (op : Connective) (value : Bool) (waiting below : List Connective) (operands : List Bool)

theorem shift_literals (literals : Option Bool) :
    Machine.shift op ((literals.map fun _ => .and).toList ++ waiting)
        (value :: (literals.toList ++ operands)) =
      Machine.shift op waiting ((literals.elim value fun left => left && value) :: operands) := by
  cases literals with
  | none => rfl
  | some left =>
      have looser : op.precedence ≤ Connective.and.precedence := by cases op <;> decide
      exact Machine.shift_looser op .and waiting left value operands looser

theorem shift_groups (notAnd : op ≠ .and) (groups : Option Bool) :
    Machine.shift op ((groups.map fun _ => .or).toList ++ waiting)
        (value :: (groups.toList ++ operands)) =
      Machine.shift op waiting ((groups.elim value fun left => left || value) :: operands) := by
  cases groups with
  | none => rfl
  | some left =>
      have looser : op.precedence ≤ Connective.or.precedence := by
        cases op <;> first | decide | contradiction
      exact Machine.shift_looser op .or waiting left value operands looser

theorem shift_segments (loosest : op.precedence = 0) (segments : Option (Bool × Connective)) :
    Machine.shift op ((segments.map Prod.snd).toList ++ waiting)
        (value :: ((segments.map Prod.fst).toList ++ operands)) =
      Machine.shift op waiting
        ((segments.elim value fun (left, op) => op.apply left value) :: operands) := by
  cases segments with
  | none => rfl
  | some link => exact Machine.shift_looser op link.2 waiting link.1 value operands (by omega)

theorem stop_at_segments (tighter : 0 < op.precedence) (segments : Option (Bool × Connective))
    (loosest : ∀ link ∈ segments, link.2.precedence = 0) :
    Machine.shift op ((segments.map Prod.snd).toList ++ waiting)
        (value :: (segments.map Prod.fst).toList) =
      ⟨value :: (segments.map Prod.fst).toList,
        op :: ((segments.map Prod.snd).toList ++ waiting)⟩ := by
  cases segments with
  | none => exact Machine.shift_single op waiting value
  | some link =>
      have loose := loosest link rfl
      exact Machine.shift_tighter op link.2 waiting link.1 value [] (by omega)

theorem stop_at_groups (groups : Option Bool) (segments : Option (Bool × Connective))
    (loosest : ∀ link ∈ segments, link.2.precedence = 0) :
    Machine.shift .and
        ((groups.map fun _ => .or).toList ++ ((segments.map Prod.snd).toList ++ waiting))
        (value :: (groups.toList ++ (segments.map Prod.fst).toList)) =
      ⟨value :: (groups.toList ++ (segments.map Prod.fst).toList),
        .and :: ((groups.map fun _ => .or).toList ++
          ((segments.map Prod.snd).toList ++ waiting))⟩ := by
  cases groups with
  | none => exact stop_at_segments .and value waiting (by decide) segments loosest
  | some left => exact Machine.shift_tighter .and .or _ left value _ (by decide)

end Stacks

/-- One connective: the loop on the stacks does to them what the grammar does to what is held.
Connectives that lie below all of this have no operands of their own and stay. -/
theorem shift_held (held : Held) (op : Connective) (value : Bool) (below : List Connective) :
    Machine.shift op (held.waiting ++ below) (value :: held.operands) =
      ⟨(held.next value op).operands, (held.next value op).waiting ++ below⟩ := by
  rcases held with ⟨segments, groups, literals, loosest⟩
  simp only [waiting, operands, List.append_assoc]
  rw [shift_literals]
  by_cases tightest : op = .and
  · subst tightest
    rw [stop_at_groups _ _ groups segments loosest]
    rfl
  rw [shift_groups _ _ _ _ tightest]
  by_cases middle : op = .or
  · subst middle
    rw [stop_at_segments _ _ _ (by decide) segments loosest]
    rfl
  · have loose := Connective.precedence_zero tightest middle
    have closed := shift_segments op (segment ⟨segments, groups, literals, loosest⟩
      (group ⟨segments, groups, literals, loosest⟩ value)) below [] loose segments
    rw [List.append_nil, Machine.shift_single] at closed
    rw [next_of_loose _ _ tightest middle]
    exact closed

/-- At the end everything held is joined to the last value, and connectives without operands are
dropped. -/
theorem drain_held (held : Held) (value : Bool) (below : List Connective) :
    Machine.drain (held.waiting ++ below) (value :: held.operands) =
      [held.whole (held.segment (held.group value))] := by
  rcases held with ⟨segments, groups, literals, loosest⟩
  rcases literals with _ | literal <;> rcases groups with _ | group <;>
    rcases segments with _ | link <;> exact Machine.drain_single below _

theorem group_and (held : Held) (left right : Bool) :
    held.group (left && right) = (held.group left && right) := by
  rcases held with ⟨_, _, _ | literal, _⟩ <;> simp [group, Bool.and_assoc]

theorem segment_or (held : Held) (left right : Bool) :
    held.segment (left || right) = (held.segment left || right) := by
  rcases held with ⟨_, _ | value, _, _⟩ <;> simp [segment, Bool.or_assoc]

def valueBehind (held : Held) (assignment : Assignment) (alternation : Alternation Literal) :
    Bool :=
  let groups := alternation.segments.first.groups
  let group := held.group (groups.first.groupValue assignment)
  let segment := held.segment
    (group || (groups.rest.map Prod.snd).any (Alternation.groupValue assignment))
  alternation.segments.rest.foldl
    (fun left (op, segment) => op.apply left (segment.segmentValue assignment))
    (held.whole segment)

theorem value_behind_nothing (assignment : Assignment) (alternation : Alternation Literal) :
    nothing.valueBehind assignment alternation = alternation.value assignment := rfl

theorem value_behind_last (held : Held) (assignment : Assignment) (literal : Literal) :
    held.valueBehind assignment ⟨literal, []⟩ =
      held.whole (held.segment (held.group (assignment.holds literal))) := by
  simp only [valueBehind, Alternation.segments, Alternation.groups, Alternation.cut_single,
    Alternation.group_value_single, List.map_nil, List.any_nil, Bool.or_false, List.foldl_nil]

/-- The grammar, too, can be read from left to right: a literal with the connective behind it joins
what is held. -/
theorem value_behind_link (held : Held) (assignment : Assignment) (literal item : Literal)
    (op : Connective) (rest : List (Connective × Literal)) :
    held.valueBehind assignment ⟨literal, (op, item) :: rest⟩ =
      (held.next (assignment.holds literal) op).valueBehind assignment ⟨item, rest⟩ := by
  simp only [valueBehind, Alternation.segments, Alternation.groups]
  by_cases tightest : op = .and
  · subst tightest
    rw [Alternation.cut_past_link (by decide), Alternation.cut_past_link (by decide),
      Alternation.group_value_link, group_and]
    rfl
  by_cases middle : op = .or
  · subst middle
    rw [Alternation.cut_past_link (by decide), Alternation.cut_at_link (by decide)]
    simp only [List.map_cons, List.any_cons]
    rw [segment_or, Alternation.group_value_single]
    rfl
  · have cutHere : decide (op ≠ .and ∧ op ≠ .or) = true := decide_eq_true ⟨tightest, middle⟩
    rw [Alternation.cut_at_link cutHere, next_of_loose _ _ tightest middle,
      Alternation.cut_single]
    simp only [List.foldl_cons, List.map_nil, List.any_nil, Bool.or_false,
      Alternation.group_value_single]
    rfl

/-- The invariant of a run: reading the rest of an alternation from a state that stands for what is
held ends with its value behind that. -/
theorem finish_rest (held : Held) (assignment : Assignment) (literal : Literal)
    (rest : List (Connective × Literal)) (below : List Connective) :
    ((Alternation.tokens ⟨literal, rest⟩).foldl (Machine.step assignment)
        ⟨held.operands, held.waiting ++ below⟩).finish =
      [held.valueBehind assignment ⟨literal, rest⟩] := by
  induction rest generalizing held literal with
  | nil =>
      rw [value_behind_last]
      exact drain_held held (assignment.holds literal) below
  | cons link rest ih =>
      rcases link with ⟨op, item⟩
      rw [value_behind_link, ← ih]
      simp only [Alternation.tokens, List.flatMap_cons, List.cons_append, List.nil_append,
        List.foldl_cons, Machine.step]
      rw [shift_held]

end Held

namespace Alternation

/-- A whole run ends with one value. Connectives that lie below do not count. -/
theorem finish_tokens (alternation : Alternation Literal) (assignment : Assignment)
    (below : List Connective) :
    (alternation.tokens.foldl (Machine.step assignment) ⟨[], below⟩).finish =
      [alternation.value assignment] := by
  have run := Held.finish_rest .nothing assignment alternation.first alternation.rest below
  rw [Held.value_behind_nothing] at run
  exact run

theorem evaluate_tokens (alternation : Alternation Literal) (assignment : Assignment) :
    alternation.tokens.evaluate assignment = alternation.value assignment := by
  have run := alternation.finish_tokens assignment []
  exact congrArg (fun values => values.headD false) run

end Alternation

namespace Expression

/-- The stacks compute the grammar: if literals and connectives alternate once the parentheses are
left out, the value is that of the segments and groups. -/
theorem evaluate_alternation (expression : Expression) (alternation : Alternation Literal)
    (alternates : expression.bare = alternation.tokens) (assignment : Assignment) :
    expression.evaluate assignment = alternation.value assignment := by
  have bareRun := Machine.fold_step_bare assignment expression Machine.start
  have run := Held.finish_rest .nothing assignment alternation.first alternation.rest []
  rw [Held.value_behind_nothing] at run
  rw [evaluate, operands, ← bareRun, alternates]
  exact congrArg (fun values => values.headD false) run

/-- A conjunction, a disjunction and two implications with parentheses that do not match. -/
theorem evaluate_alternation_unmatched :
    let unmatched : Expression :=
      [.opening, .operand (.plain .x), .connective .implies, .operand (.plain .y),
        .connective .or, .closing, .closing, .operand (.plain .z), .connective .and,
        .operand (.negative .x), .connective .implies, .opening, .operand (.plain .y)]
    let alternation : Alternation Literal :=
      ⟨.plain .x, [(.implies, .plain .y), (.or, .plain .z), (.and, .negative .x),
        (.implies, .plain .y)]⟩
    unmatched.bare = alternation.tokens ∧
      unmatched.evaluate ⟨false, false, true⟩ = alternation.value ⟨false, false, true⟩ :=
  ⟨by decide, evaluate_alternation _ _ (by decide) _⟩

end Expression

end BooleanCube
