import BooleanCube.Evaluation

/-!
# The grammar of precedence

Expressions in which literals and connectives alternate, read by cutting. Every connective but
conjunction and disjunction cuts an alternation into segments, a disjunction cuts a segment into
groups, and within a group all literals must hold. The segments are folded from left to right.
Nothing here knows of stacks or of numbers for precedence.
-/

namespace BooleanCube

/-- The first connective binds less tightly than the second. Conjunction binds tightest, then
disjunction, and all others alike. -/
def Connective.LooserThan (op : Connective) : Connective → Prop
  | .and => op ≠ .and
  | .or => op ≠ .and ∧ op ≠ .or
  | _ => False

instance (op : Connective) : (other : Connective) → Decidable (op.LooserThan other)
  | .and => inferInstanceAs (Decidable (op ≠ .and))
  | .or => inferInstanceAs (Decidable (op ≠ .and ∧ op ≠ .or))
  | .xor | .nor | .nand | .implies | .reverseImplies | .xnor => inferInstanceAs (Decidable False)

/-- Items with a connective between any two neighbours; each later item stands with the connective
before it. -/
structure Alternation (Item : Type) where
  first : Item
  rest : List (Connective × Item)

namespace Alternation

variable {Item : Type}

def items (alternation : Alternation Item) : List Item :=
  alternation.first :: alternation.rest.map Prod.snd

def cutAfter (cuts : Connective → Bool) (first : Item) :
    List (Connective × Item) → Alternation (Alternation Item)
  | [] => ⟨⟨first, []⟩, []⟩
  | (op, item) :: rest =>
      let behind := cutAfter cuts item rest
      if cuts op then ⟨⟨first, []⟩, (op, behind.first) :: behind.rest⟩
      else ⟨⟨first, (op, behind.first.first) :: behind.first.rest⟩, behind.rest⟩

def cut (cuts : Connective → Bool) (alternation : Alternation Item) :
    Alternation (Alternation Item) :=
  cutAfter cuts alternation.first alternation.rest

theorem cut_single (cuts : Connective → Bool) (item : Item) :
    cut cuts ⟨item, []⟩ = ⟨⟨item, []⟩, []⟩ := rfl

theorem cut_at_link {cuts : Connective → Bool} {op : Connective} (picked : cuts op = true)
    (first item : Item) (rest : List (Connective × Item)) :
    cut cuts ⟨first, (op, item) :: rest⟩ =
      ⟨⟨first, []⟩, (op, (cut cuts ⟨item, rest⟩).first) :: (cut cuts ⟨item, rest⟩).rest⟩ := by
  simp only [cut, cutAfter]
  rw [if_pos picked]

theorem cut_past_link {cuts : Connective → Bool} {op : Connective} (spared : cuts op = false)
    (first item : Item) (rest : List (Connective × Item)) :
    cut cuts ⟨first, (op, item) :: rest⟩ =
      ⟨⟨first, (op, (cut cuts ⟨item, rest⟩).first.first) :: (cut cuts ⟨item, rest⟩).first.rest⟩,
        (cut cuts ⟨item, rest⟩).rest⟩ := by
  simp only [cut, cutAfter]
  rw [if_neg (by simp [spared])]

def join (parts : Alternation (Alternation Item)) : Alternation Item :=
  ⟨parts.first.first,
    parts.first.rest ++ parts.rest.flatMap fun (op, part) => (op, part.first) :: part.rest⟩

/-- The parts between the connectives that are neither conjunction nor disjunction. -/
def segments (alternation : Alternation Item) : Alternation (Alternation Item) :=
  alternation.cut fun op => op ≠ .and ∧ op ≠ .or

def groups (segment : Alternation Item) : Alternation (Alternation Item) :=
  segment.cut fun op => op = .or

def groupValue (assignment : Assignment) (group : Alternation Literal) : Bool :=
  group.items.all assignment.holds

def segmentValue (assignment : Assignment) (segment : Alternation Literal) : Bool :=
  segment.groups.items.any (groupValue assignment)

/-- The value of an alternation: its segments from left to right, joined by the connectives that
they were cut at. -/
def value (assignment : Assignment) (alternation : Alternation Literal) : Bool :=
  alternation.segments.rest.foldl
    (fun left (op, segment) => op.apply left (segment.segmentValue assignment))
    (alternation.segments.first.segmentValue assignment)

theorem group_value_single (assignment : Assignment) (literal : Literal) :
    groupValue assignment ⟨literal, []⟩ = assignment.holds literal := by
  simp [groupValue, items]

theorem group_value_link (assignment : Assignment) (literal item : Literal) (op : Connective)
    (rest : List (Connective × Literal)) :
    groupValue assignment ⟨literal, (op, item) :: rest⟩ =
      (assignment.holds literal && groupValue assignment ⟨item, rest⟩) := rfl

def tokens (alternation : Alternation Literal) : Expression :=
  .operand alternation.first ::
    alternation.rest.flatMap fun (op, literal) => [.connective op, .operand literal]

end Alternation

def Expression.bare (expression : Expression) : Expression :=
  expression.filter fun token => token ≠ .opening ∧ token ≠ .closing

end BooleanCube
