import BooleanCube.Session
import BooleanCube.Proofs.Derived
import BooleanCube.Proofs.PathTree

/-!
# Sessions under edit

A session starts empty or from any expression. Whatever edits follow, its table is that of its
expression, so everything read from it denotes the function of the expression. Only the canonical
conjunction of a session without tokens is an exception: it is true although the function is false.
-/

namespace BooleanCube

inductive Edit where
  | push (token : Token)
  | pop
  | toggleNegation
  | clear
  | recompute
  deriving DecidableEq, Repr

inductive Origin where
  | nothing
  | expression (tokens : Expression)
  deriving DecidableEq, Repr

def Origin.session : Origin → Session
  | nothing => .empty
  | expression tokens => .ofExpression tokens

namespace Session

def edit (session : Session) : Edit → Session
  | .push token => session.push token
  | .pop => session.pop.2
  | .toggleNegation => session.toggleNegation
  | .clear => session.clear
  | .recompute => session.recompute

def run (session : Session) (edits : List Edit) : Session := edits.foldl edit session

def Consistent (session : Session) : Prop := session = .ofExpression session.expression

theorem of_expression_consistent (expression : Expression) :
    (ofExpression expression).Consistent := rfl

/-- The session without tokens has the table of the empty expression, though it was not made so. -/
theorem empty_consistent : empty.Consistent := rfl

theorem origin_consistent (origin : Origin) : origin.session.Consistent := by
  cases origin with
  | nothing => exact empty_consistent
  | expression tokens => exact of_expression_consistent tokens

theorem edit_consistent {session : Session} (consistent : session.Consistent) (edit : Edit) :
    (session.edit edit).Consistent := by
  cases edit with
  | push token => exact of_expression_consistent _
  | pop => exact of_expression_consistent _
  | toggleNegation =>
      rw [Session.edit, toggleNegation]
      split
      · exact of_expression_consistent _
      · exact consistent
  | clear => exact of_expression_consistent _
  | recompute => exact of_expression_consistent _

theorem run_consistent {session : Session} (consistent : session.Consistent) (edits : List Edit) :
    (session.run edits).Consistent := by
  induction edits generalizing session with
  | nil => exact consistent
  | cons edit edits ih => exact ih (edit_consistent consistent edit)

theorem Consistent.vector_row {session : Session} (consistent : session.Consistent) (row : Row) :
    session.vector.get row = session.expression.evaluate (.ofRow row) := by
  rw [vector, consistent]
  exact TruthTable.vector_generate session.expression row

/-- After any edits from any start, all that is read from a session denotes the function of its
expression, except for the canonical conjunction if no token is left. -/
theorem readers_agree (origin : Origin) (edits : List Edit) :
    let session := origin.session.run edits
    (∀ row : Row, session.vector.get row = session.expression.evaluate (.ofRow row)) ∧
      session.canonicalDisjunctive.truthVector = session.vector ∧
      (∀ polarity, (session.minimal polarity).form.truthVector = session.vector) ∧
      session.tree.expand = session.vector ∧
      (∀ pivot, (Expansion.ofVector session.vector pivot).reconstruct = session.vector) ∧
      (session.minterms ++ session.maxterms).Perm Row.all ∧
      (session.expression ≠ [] → session.canonicalConjunctive.truthVector = session.vector) ∧
      (session.expression = [] →
        session.canonicalConjunctive = .constant .conjunctive true) := by
  intro session
  have consistent : session.Consistent := run_consistent (origin_consistent origin) edits
  refine ⟨consistent.vector_row, NormalForm.canonical_truth_vector _ _,
    session.vector.minimal_truth_vector, ExpansionTree.expand_of_vector _,
    Expansion.reconstruct_of_vector _, TruthVector.minterms_maxterms_perm _, ?_, ?_⟩
  · intro tokens
    rw [canonicalConjunctive, if_neg (by simpa using tokens)]
    exact NormalForm.canonical_truth_vector _ _
  · intro none
    rw [canonicalConjunctive, if_pos (by simpa using none)]

end Session

end BooleanCube
