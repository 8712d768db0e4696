import BooleanCube.Session
import BooleanCube.Proofs.Derived
import BooleanCube.Proofs.SumOfProducts

/-!
# Canonical texts

The texts of the minimal and the canonical forms are names of functions: sessions show the same text
exactly if they have the same function. The text of a disjunctive form, unless it is a digit, can be
entered again and leads back to the same function and to the same texts.
-/

namespace BooleanCube

/-- A way to make forms of one polarity from functions, each denoting its function. -/
structure Faithful (polarity : Polarity) (form : TruthVector → NormalForm) : Prop where
  polarity_eq : ∀ vector, (form vector).polarity = polarity
  denotes : ∀ vector, (form vector).truthVector = vector

theorem minimal_faithful (polarity : Polarity) :
    Faithful polarity fun vector => (vector.minimal polarity).form where
  polarity_eq vector := (vector.minimal_exact polarity).polarity_eq
  denotes vector := vector.minimal_truth_vector polarity

theorem canonical_faithful (polarity : Polarity) :
    Faithful polarity (NormalForm.canonical polarity) where
  polarity_eq vector := by
    rw [NormalForm.canonical]
    split
    · rfl
    · split <;> rfl
  denotes := NormalForm.canonical_truth_vector polarity

namespace Faithful

variable {polarity : Polarity} {form : TruthVector → NormalForm}

theorem render_eq_iff (faithful : Faithful polarity form) (left right : TruthVector) :
    (form left).render = (form right).render ↔ left = right := by
  constructor
  · intro same
    have samePolarity : (form left).polarity = (form right).polarity := by
      rw [faithful.polarity_eq, faithful.polarity_eq]
    have sameVector := NormalForm.truth_vector_of_render samePolarity same
    rwa [faithful.denotes, faithful.denotes] at sameVector
  · intro same
    rw [same]

theorem eval (faithful : Faithful polarity form) (vector : TruthVector) (row : Row) :
    (form vector).eval row = vector.get row := by
  have entry := TruthVector.get_of_fn (form vector).eval row
  rw [← entry]
  exact congrArg (fun values => values.get row) (faithful.denotes vector)

theorem regular (faithful : Faithful polarity form) {vector : TruthVector}
    (varies : ¬∃ value, ∀ row : Row, vector.get row = value) : (form vector).Regular := by
  by_contra other
  obtain ⟨value, -, constant⟩ := NormalForm.constant_of_not_regular other
  apply varies
  refine ⟨value, ?_⟩
  intro row
  rw [← faithful.eval, constant]

theorem reenter (faithful : Faithful .disjunctive form) {vector : TruthVector}
    (varies : ¬∃ value, ∀ row : Row, vector.get row = value) :
    ∃ session, Session.read (form vector).render = .ok session ∧ session.vector = vector := by
  have regular := faithful.regular varies
  have polarity := faithful.polarity_eq vector
  have evaluates (row : Row) := faithful.eval vector row
  cases isForm : form vector with
  | mk outer terms =>
      rw [isForm] at regular polarity evaluates
      cases polarity
      refine ⟨.ofExpression (Polarity.disjunctive.formTokens terms), ?_, ?_⟩
      · rw [Session.read, regular.read]
        rfl
      · apply TruthVector.of_fn_eq
        intro row
        rw [NormalForm.evaluate_tokens regular, evaluates]

end Faithful

namespace Session

/-- The texts of the minimal disjunction, the canonical disjunction and the minimal conjunction are
the same for two expressions exactly if their functions are. If the function varies, the disjunctive
texts can be entered again, which gives the function and all three texts anew. -/
theorem texts_canonical :
    (∀ left right : Expression,
      let session := ofExpression left
      let other := ofExpression right
      ((session.minimal .disjunctive).expression = (other.minimal .disjunctive).expression ↔
          session.vector = other.vector) ∧
        (session.canonicalDisjunctive.render = other.canonicalDisjunctive.render ↔
          session.vector = other.vector) ∧
        ((session.minimal .conjunctive).expression = (other.minimal .conjunctive).expression ↔
          session.vector = other.vector)) ∧
    ∀ expression : Expression,
      let session := ofExpression expression
      (¬∃ value, ∀ row : Row, session.vector.get row = value) →
        ∀ text ∈ [(session.minimal .disjunctive).expression, session.canonicalDisjunctive.render],
          ∃ again, Session.read text = .ok again ∧ again.vector = session.vector ∧
            (again.minimal .disjunctive).expression =
              (session.minimal .disjunctive).expression ∧
            again.canonicalDisjunctive.render = session.canonicalDisjunctive.render ∧
            (again.minimal .conjunctive).expression =
              (session.minimal .conjunctive).expression := by
  constructor
  · intro left right session other
    exact ⟨(minimal_faithful .disjunctive).render_eq_iff _ _,
      (canonical_faithful .disjunctive).render_eq_iff _ _,
      (minimal_faithful .conjunctive).render_eq_iff _ _⟩
  · intro expression session varies text member
    have reread : ∃ again, Session.read text = .ok again ∧ again.vector = session.vector := by
      simp only [List.mem_cons, List.not_mem_nil, or_false] at member
      rcases member with rfl | rfl
      · exact (minimal_faithful .disjunctive).reenter varies
      · exact (canonical_faithful .disjunctive).reenter varies
    obtain ⟨again, done, sameVector⟩ := reread
    refine ⟨again, done, sameVector, ?_, ?_, ?_⟩
    · rw [minimal, minimal, sameVector]
    · rw [canonicalDisjunctive, canonicalDisjunctive, sameVector]
    · rw [minimal, minimal, sameVector]

theorem texts_canonical_varying :
    let session := ofExpression [.operand (.negative .x), .connective .nor, .operand (.plain .y)]
    (¬∃ value, ∀ row : Row, session.vector.get row = value) ∧
      ∃ again, Session.read session.canonicalDisjunctive.render = .ok again ∧
        again.vector = session.vector := by
  intro session
  have varies : ¬∃ value, ∀ row : Row, session.vector.get row = value := by decide
  have canonical : session.canonicalDisjunctive.render ∈
      [(session.minimal .disjunctive).expression, session.canonicalDisjunctive.render] := by simp
  obtain ⟨again, done, sameVector, -⟩ := texts_canonical.2 _ varies _ canonical
  exact ⟨varies, again, done, sameVector⟩

end Session

end BooleanCube
