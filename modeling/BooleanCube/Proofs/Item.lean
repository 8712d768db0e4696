import BooleanCube.Lexeme
import BooleanCube.Expression
import Mathlib.Algebra.Ring.Parity

/-!
# Items and negations

The language of expressions, told from the items of a text as a whole and without a state. Negation
signs count towards the next variable, macrons towards the last one, and the sign of a variable is
the parity of both counts together.
-/

namespace BooleanCube

/-- What a part of a text is to the reader of expressions. -/
inductive Item where
  | space
  | negation
  | macron
  | connective (op : Connective)
  | opening
  | closing
  | letter (var : Variable)
  | unknown (char : Char)
  deriving DecidableEq, Repr

def Lexeme.item : Lexeme → Item
  | blank _ => .space
  | connective op _ => .connective op
  | mark '!' | mark '~' | mark '¬' => .negation
  | mark '\u0304' => .macron
  | mark '(' => .opening
  | mark ')' => .closing
  | mark 'x' | mark 'X' => .letter .x
  | mark 'y' | mark 'Y' => .letter .y
  | mark 'z' | mark 'Z' => .letter .z
  | mark char => .unknown char

namespace Item

/-- Items that may stand between a variable and a macron that belongs to it. -/
def passes : Item → Bool
  | space | negation | macron => true
  | _ => false

/-- Items behind which no macron belongs to a variable in front of them. -/
def stops : Item → Bool
  | connective _ | opening | closing | letter _ => true
  | _ => false

def isLetter : Item → Bool
  | letter _ => true
  | _ => false

/-- The token that an item stands for; `negated` is the sign of a variable. -/
def token? (negated : Bool) : Item → Option Token
  | connective op => some (.connective op)
  | opening => some .opening
  | closing => some .closing
  | letter var => some (.operand ⟨var, negated⟩)
  | _ => none

/-- The number of negation signs since the last variable, or since the start. -/
def waiting (before : List Item) : Nat :=
  (before.reverse.takeWhile fun item => !item.isLetter).count negation

/-- The number of macrons up to the next connective, parenthesis or variable. -/
def macrons (after : List Item) : Nat :=
  (after.takeWhile fun item => !item.stops).count macron

/-- The last item that is neither white space nor a negation sign nor a macron. -/
def latest? (before : List Item) : Option Item := before.reverse.find? fun item => !item.passes

/-- What every item of an expression must find in front of it. -/
structure Allowed (items : List Item) : Prop where
  readable : ∀ char, unknown char ∉ items
  settled : ∀ before op after, items = before ++ connective op :: after → Even (waiting before)
  attached : ∀ before after, items = before ++ macron :: after →
    ∃ var, latest? before = some (letter var)

structure Acceptable (items : List Item) : Prop extends Allowed items where
  finished : Even (waiting items)

def expressionAfter (before : List Item) : List Item → Expression
  | [] => []
  | item :: after =>
      (item.token? (decide (Odd (waiting before + macrons after)))).toList ++
        expressionAfter (before ++ [item]) after

def expression (items : List Item) : Expression := expressionAfter [] items

theorem waiting_snoc (items : List Item) (item : Item) :
    waiting (items ++ [item]) =
      if item.isLetter then 0 else waiting items + if item = negation then 1 else 0 := by
  simp only [waiting, List.reverse_append, List.reverse_singleton, List.singleton_append,
    List.takeWhile_cons]
  cases item <;> simp [isLetter]

theorem macrons_append (left right : List Item) :
    macrons (left ++ right) = macrons left + if left.any stops then 0 else macrons right := by
  induction left with
  | nil => simp [macrons]
  | cons item rest ih =>
      simp only [macrons] at ih
      cases stop : item.stops with
      | true => simp [macrons, stop]
      | false => simp [macrons, stop, List.count_cons, ih, Nat.add_right_comm]

theorem macrons_before_stop {item : Item} (stop : item.stops = true) (left rest : List Item) :
    macrons (left ++ item :: rest) = macrons left := by
  have none : macrons (item :: rest) = 0 := by simp [macrons, stop]
  rw [macrons_append, none, ite_self, Nat.add_zero]

theorem stops_of_passing {item : Item} (passing : item.passes = true) : item.stops = false := by
  cases item <;> simp_all [passes, stops]

theorem macrons_of_passing {middle : List Item} (passing : ∀ item ∈ middle, item.passes = true) :
    macrons (middle ++ [macron]) = macrons middle + 1 := by
  have stopless : middle.any stops = false := by
    rw [List.any_eq_false]
    intro item member
    rw [stops_of_passing (passing item member)]
    decide
  rw [macrons_append, stopless]
  rfl

theorem token_of_passing {item : Item} (passes : item.passes = true) (negated : Bool) :
    item.token? negated = none := by
  cases item <;> first | rfl | cases passes

theorem expression_of_passing (before : List Item) {items : List Item}
    (passing : ∀ item ∈ items, item.passes = true) : expressionAfter before items = [] := by
  induction items generalizing before with
  | nil => rfl
  | cons item rest ih =>
      rw [List.forall_mem_cons] at passing
      rw [expressionAfter, token_of_passing passing.1, ih _ passing.2]
      rfl

/-- What follows a connective, a parenthesis or a variable changes no token in front of it. -/
theorem expression_before_stop {item : Item} (stop : item.stops = true)
    (before left rest : List Item) :
    expressionAfter before (left ++ item :: rest) =
      expressionAfter before left ++ expressionAfter (before ++ left) (item :: rest) := by
  induction left generalizing before with
  | nil => simp [expressionAfter]
  | cons first left ih =>
      simp only [List.cons_append, expressionAfter, macrons_before_stop stop, ih, List.append_assoc,
        List.nil_append]

theorem expression_last_token {item : Item} (stop : item.stops = true) (front : List Item)
    {middle : List Item} (passing : ∀ item ∈ middle, item.passes = true) :
    expression (front ++ item :: middle) =
      expression front ++ (item.token? (decide (Odd (waiting front + macrons middle)))).toList := by
  rw [expression, expression_before_stop stop, expressionAfter, expression_of_passing _ passing,
    List.nil_append, List.append_nil, expression]

theorem expression_snoc_blank {item : Item} (passes : item.passes = true) (other : item ≠ macron)
    (items : List Item) : expression (items ++ [item]) = expression items := by
  have unseen : macrons [item] = 0 := by
    cases item <;> first | rfl | contradiction
  have along (before : List Item) :
      expressionAfter before (items ++ [item]) = expressionAfter before items := by
    induction items generalizing before with
    | nil => exact expression_of_passing before (by simpa using passes)
    | cons first rest ih =>
        rw [List.cons_append, expressionAfter, macrons_append, unseen, ite_self, ih]
        rfl
  exact along []

theorem latest_eq_some {items : List Item} {item : Item} (latest : latest? items = some item) :
    item.passes = false ∧ ∃ front middle, items = front ++ item :: middle ∧
      ∀ other ∈ middle, other.passes = true := by
  obtain ⟨visible, behind, before, split, passing⟩ := List.find?_eq_some_iff_append.mp latest
  refine ⟨by simpa using visible, before.reverse, behind.reverse, ?_, ?_⟩
  · simpa using congrArg List.reverse split
  · simpa using passing

theorem latest_eq_none {items : List Item} (latest : latest? items = none) :
    ∀ item ∈ items, item.passes = true := by
  simpa [latest?] using latest

theorem snoc_eq_split_iff {items before after : List Item} {item last : Item} :
    items ++ [last] = before ++ item :: after ↔
      (items = before ∧ last = item ∧ after = []) ∨
        ∃ rest, after = rest ++ [last] ∧ items = before ++ item :: rest := by
  rcases List.eq_nil_or_concat after with rfl | ⟨rest, final, rfl⟩
  · rw [List.append_singleton_inj]
    simp
  · rw [List.concat_eq_append, ← List.cons_append, ← List.append_assoc, List.append_singleton_inj]
    simp only [List.append_singleton_inj]
    constructor
    · rintro ⟨rfl, rfl⟩
      exact .inr ⟨rest, ⟨rfl, rfl⟩, rfl⟩
    · rintro (⟨_, _, impossible⟩ | ⟨other, ⟨rfl, rfl⟩, same⟩)
      · simp at impossible
      · exact ⟨same, rfl⟩

theorem allowed_nil : Allowed [] := by
  constructor <;> simp

/-- The conditions on a text are those on the text without its last item and those on that item. -/
theorem allowed_snoc_iff {items : List Item} {item : Item} :
    Allowed (items ++ [item]) ↔ Allowed items ∧ (∀ char, item ≠ unknown char) ∧
      (∀ op, item = connective op → Even (waiting items)) ∧
      (item = macron → ∃ var, latest? items = some (letter var)) := by
  constructor
  · intro allowed
    refine ⟨⟨?_, ?_, ?_⟩, ?_, ?_, ?_⟩
    · intro char member
      exact allowed.readable char (List.mem_append_left _ member)
    · rintro before op after rfl
      exact allowed.settled before op (after ++ [item]) (by simp)
    · rintro before after rfl
      exact allowed.attached before (after ++ [item]) (by simp)
    · rintro char rfl
      exact allowed.readable char (by simp)
    · rintro op rfl
      exact allowed.settled items op [] rfl
    · rintro rfl
      exact allowed.attached items [] rfl
  · rintro ⟨allowed, readable, settled, attached⟩
    refine ⟨?_, ?_, ?_⟩
    · intro char member
      rcases List.mem_append.mp member with inItems | isLast
      · exact allowed.readable char inItems
      · exact readable char (List.mem_singleton.mp isLast).symm
    · intro before op after split
      rcases snoc_eq_split_iff.mp split with ⟨rfl, isLast, -⟩ | ⟨rest, -, inner⟩
      · exact settled op isLast
      · exact allowed.settled before op rest inner
    · intro before after split
      rcases snoc_eq_split_iff.mp split with ⟨rfl, isLast, -⟩ | ⟨rest, -, inner⟩
      · exact attached isLast
      · exact allowed.attached before rest inner

end Item

end BooleanCube
