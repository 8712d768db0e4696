import BooleanCube.Proofs.Spacing
import BooleanCube.Proofs.TermText

/-!
# The text of a form

A form with terms, none of them empty, is written term by term, and its text is read back as the
tokens of its terms with the outer connective in between. All other forms are written as a digit,
which is no expression and which names their value. Either way the text tells the value of the form.
-/

namespace BooleanCube

namespace Polarity

def outer : Polarity → Connective
  | disjunctive => .or
  | conjunctive => .and

def formTokens (polarity : Polarity) : List Term → Expression
  | [] => []
  | [term] => polarity.tokens term
  | term :: next :: rest =>
      polarity.tokens term ++ .connective polarity.outer :: formTokens polarity (next :: rest)

theorem separator_eq (polarity : Polarity) :
    polarity.separator = ' '.toString ++ (polarity.outer.symbol.toString ++ ' '.toString) := by
  cases polarity <;> rfl

theorem read_term (polarity : Polarity) {term : Term} (filled : term ≠ []) :
    Expression.read (polarity.renderTerm term) = .ok (polarity.tokens term) := by
  rw [← polarity.render_tokens filled, Expression.read_of_render]

theorem read_outer (polarity : Polarity) :
    Expression.read polarity.outer.symbol.toString = .ok [.connective polarity.outer] := by
  have render : Expression.render [.connective polarity.outer] =
      polarity.outer.symbol.toString := by
    cases polarity <;> decide
  rw [← render, Expression.read_of_render]

theorem read_terms (polarity : Polarity) {terms : List Term} (nonempty : terms ≠ [])
    (filled : ∀ term ∈ terms, term ≠ []) :
    Expression.read (polarity.separator.intercalate (terms.map polarity.renderTerm)) =
      .ok (polarity.formTokens terms) := by
  induction terms with
  | nil => exact (nonempty rfl).elim
  | cons term rest ih =>
      rw [List.forall_mem_cons] at filled
      have first := polarity.read_term filled.1
      cases rest with
      | nil => simpa [formTokens] using first
      | cons next others =>
          have blank : Text.isBlank ' ' = true := by decide
          have behind := ih (List.cons_ne_nil next others) filled.2
          have tail := Expression.read_append_blank blank polarity.read_outer behind
          have whole := Expression.read_append_blank blank first tail
          have text : polarity.separator.intercalate
                ((term :: next :: others).map polarity.renderTerm) =
              polarity.renderTerm term ++ ' '.toString ++
                (polarity.outer.symbol.toString ++ ' '.toString ++
                  polarity.separator.intercalate ((next :: others).map polarity.renderTerm)) := by
            rw [List.map_cons, List.map_cons, String.intercalate_cons_cons]
            nth_rewrite 1 [separator_eq]
            simp only [String.append_assoc]
          rw [text, whole]
          rfl

theorem outer_not_mem_tokens (polarity : Polarity) (term : Term) :
    .connective polarity.outer ∉ polarity.tokens term := by
  have inner (op : Connective) (different : polarity.outer ≠ op) :
      .connective polarity.outer ∉ Term.tokens op term := by
    induction term with
    | nil => simp [Term.tokens]
    | cons literal rest ih =>
        cases rest with
        | nil => simp [Term.tokens]
        | cons next others => simpa [Term.tokens, different] using ih
  cases polarity with
  | disjunctive => exact inner .and (by decide)
  | conjunctive =>
      have clause := inner .or (by decide)
      rcases term with _ | ⟨literal, _ | ⟨next, rest⟩⟩
      · simp [tokens, Term.tokens]
      · simp [tokens]
      · simpa [tokens] using clause

theorem tokens_inj (polarity : Polarity) {left right : Term}
    (same : polarity.tokens left = polarity.tokens right) : left = right := by
  rw [← polarity.literals_tokens left, same, polarity.literals_tokens]

theorem append_cons_inj {token : Token} {left right leftRest rightRest : Expression}
    (leftFree : token ∉ left) (rightFree : token ∉ right)
    (same : left ++ token :: leftRest = right ++ token :: rightRest) :
    left = right ∧ leftRest = rightRest := by
  rcases List.append_eq_append_iff.mp same with
    ⟨_ | ⟨first, middle⟩, isRight, isRest⟩ | ⟨_ | ⟨first, middle⟩, isLeft, isRest⟩
  · exact ⟨by simpa using isRight.symm, by simpa using isRest⟩
  · obtain ⟨rfl, -⟩ := List.cons.inj isRest
    exact (rightFree (by simp [isRight])).elim
  · exact ⟨by simpa using isLeft, by simpa using isRest.symm⟩
  · obtain ⟨rfl, -⟩ := List.cons.inj isRest
    exact (leftFree (by simp [isLeft])).elim

/-- The outer connective stands between terms only, so the terms can be told from the tokens. -/
theorem form_tokens_inj (polarity : Polarity) {left right : List Term} (leftNonempty : left ≠ [])
    (rightNonempty : right ≠ []) (same : polarity.formTokens left = polarity.formTokens right) :
    left = right := by
  induction left generalizing right with
  | nil => exact (leftNonempty rfl).elim
  | cons term rest ih =>
      have termFree := polarity.outer_not_mem_tokens term
      rcases right with _ | ⟨otherTerm, otherRest⟩
      · exact (rightNonempty rfl).elim
      have otherFree := polarity.outer_not_mem_tokens otherTerm
      rcases rest with _ | ⟨next, others⟩ <;> rcases otherRest with _ | ⟨otherNext, otherOthers⟩
      · rw [polarity.tokens_inj same]
      · have inTerm : .connective polarity.outer ∈ polarity.tokens term := by
          rw [show polarity.tokens term = _ from same]
          simp [formTokens]
        exact (termFree inTerm).elim
      · have inOther : .connective polarity.outer ∈ polarity.tokens otherTerm := by
          rw [← show _ = polarity.tokens otherTerm from same]
          simp [formTokens]
        exact (otherFree inOther).elim
      · obtain ⟨sameTerm, sameRest⟩ := append_cons_inj termFree otherFree same
        rw [polarity.tokens_inj sameTerm,
          ih (List.cons_ne_nil _ _) (List.cons_ne_nil _ _) sameRest]

end Polarity

namespace NormalForm

structure Regular (form : NormalForm) : Prop where
  nonempty : form.terms ≠ []
  filled : ∀ term ∈ form.terms, term ≠ []

theorem Regular.render {form : NormalForm} (regular : form.Regular) :
    form.render =
      form.polarity.separator.intercalate (form.terms.map form.polarity.renderTerm) := by
  have noneEmpty : ¬form.terms.any List.isEmpty = true := by
    intro someEmpty
    obtain ⟨term, member, isEmpty⟩ := List.any_eq_true.mp someEmpty
    exact regular.filled term member (List.isEmpty_iff.mp isEmpty)
  rw [NormalForm.render, if_neg (by simpa using regular.nonempty), if_neg noneEmpty]

theorem Regular.read {form : NormalForm} (regular : form.Regular) :
    Expression.read form.render = .ok (form.polarity.formTokens form.terms) := by
  rw [regular.render]
  exact form.polarity.read_terms regular.nonempty regular.filled

theorem constant_of_not_regular {form : NormalForm} (other : ¬form.Regular) :
    ∃ value, form.render = digit value ∧ ∀ row, form.eval row = value := by
  rcases form with ⟨polarity, terms⟩
  by_cases isEmpty : terms = []
  · subst isEmpty
    exact ⟨polarity.unit, rfl, fun row => by cases polarity <;> rfl⟩
  · have empty : [] ∈ terms := by
      by_contra filled
      exact other ⟨isEmpty, fun term member termEmpty => filled (termEmpty ▸ member)⟩
    refine ⟨!polarity.unit, ?_, ?_⟩
    · have anyEmpty : terms.any List.isEmpty = true :=
        List.any_eq_true.mpr ⟨[], empty, rfl⟩
      rw [NormalForm.render, if_neg (by simpa using isEmpty), if_pos anyEmpty]
    · intro row
      cases polarity with
      | disjunctive => exact List.any_eq_true.mpr ⟨[], empty, rfl⟩
      | conjunctive => exact List.all_eq_false.mpr ⟨[], empty, Bool.false_ne_true⟩

theorem read_digit (value : Bool) : ∃ error, Expression.read (digit value) = .error error := by
  cases value with
  | false => exact ⟨.unexpected '0' 0, by cbv⟩
  | true => exact ⟨.unexpected '1' 0, by cbv⟩

/-- Forms of one polarity with the same text have the same value: the terms can be read from it, or
the constant. -/
theorem truth_vector_of_render {left right : NormalForm} (polarity : left.polarity = right.polarity)
    (same : left.render = right.render) : left.truthVector = right.truthVector := by
  by_cases leftRegular : left.Regular <;> by_cases rightRegular : right.Regular
  · have leftRead := leftRegular.read
    rw [same, rightRegular.read, polarity] at leftRead
    have sameTerms := right.polarity.form_tokens_inj rightRegular.nonempty leftRegular.nonempty
      (Except.ok.inj leftRead)
    rcases left with ⟨_, _⟩
    rcases right with ⟨_, _⟩
    cases polarity
    cases sameTerms
    rfl
  · obtain ⟨value, text, -⟩ := constant_of_not_regular rightRegular
    obtain ⟨error, refused⟩ := read_digit value
    rw [← text, ← same, leftRegular.read] at refused
    cases refused
  · obtain ⟨value, text, -⟩ := constant_of_not_regular leftRegular
    obtain ⟨error, refused⟩ := read_digit value
    rw [← text, same, rightRegular.read] at refused
    cases refused
  · obtain ⟨leftValue, leftText, leftEval⟩ := constant_of_not_regular leftRegular
    obtain ⟨rightValue, rightText, rightEval⟩ := constant_of_not_regular rightRegular
    have sameDigit : digit leftValue = digit rightValue := by rw [← leftText, ← rightText, same]
    have sameValue : leftValue = rightValue := by
      revert sameDigit
      cases leftValue <;> cases rightValue <;> decide
    rw [truthVector, truthVector, funext leftEval, funext rightEval, sameValue]

end NormalForm

end BooleanCube
