import BooleanCube.TruthVector

/-!
Two-level normal forms: disjunctions of products and conjunctions of clauses, their values and
their texts. A form without terms and a term without literals are the constants.
-/

namespace BooleanCube

/-- Which of the two connectives is on the outside. -/
inductive Polarity where
  | disjunctive
  | conjunctive
  deriving DecidableEq, Repr

abbrev Term := List Literal

namespace Polarity

def acronym : Polarity → String
  | disjunctive => "DNF"
  | conjunctive => "CNF"

def evalTerm : Polarity → Term → Row → Bool
  | disjunctive, term, row => term.all fun literal => literal.eval row
  | conjunctive, term, row => term.any fun literal => literal.eval row

/-- A clause stands in parentheses unless it is a single literal. -/
def renderTerm : Polarity → Term → String
  | disjunctive, [] => "1"
  | conjunctive, [] => "0"
  | disjunctive, term => "∧".intercalate (term.map Literal.render)
  | conjunctive, [literal] => literal.render
  | conjunctive, term => "(" ++ "∨".intercalate (term.map Literal.render) ++ ")"

def unit : Polarity → Bool
  | disjunctive => false
  | conjunctive => true

def separator : Polarity → String
  | disjunctive => " ∨ "
  | conjunctive => " ∧ "

/-- The full term of one row: the product true only there, or the clause false only there. -/
def rowTerm : Polarity → Row → Term
  | disjunctive, row => Variable.all.map fun var => ⟨var, !var.bit row⟩
  | conjunctive, row => Variable.all.map fun var => ⟨var, var.bit row⟩

/-- The rows that the terms of a form speak of: the true ones of a disjunction, the false ones of
a conjunction. -/
def rows : Polarity → TruthVector → List Row
  | disjunctive, vector => vector.minterms
  | conjunctive, vector => vector.maxterms

end Polarity

structure NormalForm where
  polarity : Polarity
  terms : List Term
  deriving DecidableEq, Repr

namespace NormalForm

/-- The constant `value`: no terms, or a single term without literals. -/
def constant (polarity : Polarity) (value : Bool) : NormalForm :=
  ⟨polarity, if value = polarity.unit then [] else [[]]⟩

/-- One full term for each row that the terms speak of; constants are written as such. -/
def canonical (polarity : Polarity) (vector : TruthVector) : NormalForm :=
  let rows := polarity.rows vector
  if rows.length = 0 then constant polarity polarity.unit
  else if rows.length = Row.all.length then constant polarity !polarity.unit
  else ⟨polarity, rows.map polarity.rowTerm⟩

def eval (form : NormalForm) (row : Row) : Bool :=
  match form.polarity with
  | .disjunctive => form.terms.any fun term => form.polarity.evalTerm term row
  | .conjunctive => form.terms.all fun term => form.polarity.evalTerm term row

def truthVector (form : NormalForm) : TruthVector := .ofFn form.eval

/-- The text of a form. An empty term absorbs all others. -/
def render (form : NormalForm) : String :=
  if form.terms.isEmpty then digit form.polarity.unit
  else if form.terms.any List.isEmpty then digit !form.polarity.unit
  else form.polarity.separator.intercalate (form.terms.map form.polarity.renderTerm)

end NormalForm

end BooleanCube
