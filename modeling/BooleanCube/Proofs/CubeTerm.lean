import BooleanCube.Proofs.Implicant
import BooleanCube.Proofs.TermText

/-!
# The term of a cube

A product is true and a clause is false exactly in the rows of its cube, and a proper cube can be
told from the text of its term.
-/

namespace BooleanCube

theorem Row.byte_bit (row : Row) (var : Variable) : row.byte.getLsbD var.shift = var.bit row := by
  rw [← BitVec.testBit_toNat, Row.byte_to_nat]
  rfl

namespace NormalForm

theorem eval_disjunctive (terms : List Term) (row : Row) :
    eval ⟨.disjunctive, terms⟩ row =
      terms.any fun term => Polarity.disjunctive.evalTerm term row := rfl

theorem eval_conjunctive (terms : List Term) (row : Row) :
    eval ⟨.conjunctive, terms⟩ row =
      terms.all fun term => Polarity.conjunctive.evalTerm term row := rfl

end NormalForm

namespace Cube

variable {cube other : Cube}

theorem bit_eq_some_iff {var : Variable} {bit : Bool} :
    cube.bit? var = some bit ↔
      cube.mask.getLsbD var.shift = false ∧ cube.value.getLsbD var.shift = bit := by
  rw [bit?]
  cases cube.mask.getLsbD var.shift <;> simp

theorem covers_row_iff (proper : cube.Proper) {row : Row} :
    cube.covers row.byte = true ↔
      ∀ var bit, cube.bit? var = some bit → var.bit row = bit := by
  rw [covers_proper_iff proper]
  constructor
  · intro agree var bit isBit
    rcases bit_eq_some_iff.mp isBit with ⟨fixed, value⟩
    rw [← Row.byte_bit, agree var.shift fixed, value]
  · intro agree place fixed
    by_cases low : place < 3
    · rcases Variable.exists_shift low with ⟨var, rfl⟩
      rw [Row.byte_bit]
      exact agree var _ (bit_eq_some_iff.mpr ⟨fixed, rfl⟩)
    · have rowLow : row.byte.toNat < 8 := Row.byte_to_nat row ▸ row.isLt
      rw [lt_eight_iff.mp rowLow place (by omega), lt_eight_iff.mp proper.value_lt place (by omega)]

theorem mem_term_iff {polarity : Polarity} {literal : Literal} :
    literal ∈ cube.term polarity ↔
      ∃ bit, cube.bit? literal.var = some bit ∧ literal.negated = (bit == polarity.unit) := by
  simp only [term, List.mem_filterMap, Option.map_eq_some_iff]
  constructor
  · intro member
    rcases member with ⟨var, -, bit, isBit, rfl⟩
    cases polarity <;> exact ⟨bit, isBit, by cases bit <;> rfl⟩
  · intro written
    rcases written with ⟨bit, isBit, sign⟩
    refine ⟨literal.var, literal.var.mem_all, bit, isBit, ?_⟩
    rcases literal with ⟨var, negated⟩
    subst sign
    cases polarity <;> cases bit <;> rfl

theorem eval_mem_term {polarity : Polarity} {literal : Literal} (row : Row)
    (member : literal ∈ cube.term polarity) :
    ∃ bit, cube.bit? literal.var = some bit ∧
      literal.eval row = ((literal.var.bit row == bit) != polarity.unit) := by
  rcases mem_term_iff.mp member with ⟨bit, isBit, sign⟩
  refine ⟨bit, isBit, ?_⟩
  rw [Literal.eval, sign]
  cases literal.var.bit row <;> cases bit <;> cases polarity <;> rfl

theorem bit_iff_mem_term (polarity : Polarity) {var : Variable} {bit : Bool} :
    cube.bit? var = some bit ↔ ⟨var, bit == polarity.unit⟩ ∈ cube.term polarity := by
  rw [mem_term_iff]
  constructor
  · intro isBit
    exact ⟨bit, isBit, rfl⟩
  · intro written
    rcases written with ⟨other, isBit, sign⟩
    have same : bit = other := by
      cases bit <;> cases other <;> cases polarity <;> first | rfl | cases sign
    rw [same]
    exact isBit

/-- Inside a cube all its literals are true in a product and false in a clause; outside, some literal
is not. -/
theorem covers_iff_literals (proper : cube.Proper) (polarity : Polarity) (row : Row) :
    cube.covers row.byte = true ↔
      ∀ literal ∈ cube.term polarity, literal.eval row = !polarity.unit := by
  rw [covers_row_iff proper]
  constructor
  · intro agree literal member
    rcases eval_mem_term row member with ⟨bit, isBit, value⟩
    rw [value, agree literal.var bit isBit, beq_self_eq_true, Bool.true_bne]
  · intro literals var bit isBit
    have value := literals _ ((bit_iff_mem_term polarity).mp isBit)
    cases polarity <;> simpa [Literal.eval, Polarity.unit] using value

theorem eval_term (proper : cube.Proper) (polarity : Polarity) (row : Row) :
    polarity.evalTerm (cube.term polarity) row = (cube.covers row.byte != polarity.unit) := by
  have literals := covers_iff_literals proper polarity row
  cases polarity with
  | disjunctive =>
      rw [Polarity.unit, Bool.bne_false, Bool.eq_iff_iff, literals, Polarity.evalTerm,
        List.all_eq_true]
      rfl
  | conjunctive =>
      rw [Polarity.unit, Bool.bne_true, ← Bool.not_inj_iff, Bool.not_not, Bool.eq_iff_iff, literals,
        Polarity.evalTerm, Bool.not_eq_true', List.any_eq_false]
      simp [Polarity.unit]

/-- The form that the terms of some cubes make up tells whether one of them covers the row. -/
theorem eval_form (polarity : Polarity) {cubes : List Cube}
    (proper : ∀ cube ∈ cubes, cube.Proper) (row : Row) :
    NormalForm.eval ⟨polarity, cubes.map fun cube => cube.term polarity⟩ row =
      (cubes.any (fun cube => cube.covers row.byte) != polarity.unit) := by
  induction cubes with
  | nil => cases polarity <;> rfl
  | cons cube rest ih =>
      have first := eval_term (proper cube List.mem_cons_self) polarity row
      have others := ih fun other member => proper other (List.mem_cons_of_mem _ member)
      cases polarity with
      | disjunctive =>
          rw [Polarity.unit, Bool.bne_false] at first others
          rw [NormalForm.eval_disjunctive] at others
          rw [NormalForm.eval_disjunctive, List.map_cons, List.any_cons, first, others,
            List.any_cons, Polarity.unit, Bool.bne_false]
      | conjunctive =>
          rw [Polarity.unit, Bool.bne_true] at first others
          rw [NormalForm.eval_conjunctive] at others
          rw [NormalForm.eval_conjunctive, List.map_cons, List.all_cons, first, others,
            List.any_cons, Polarity.unit, Bool.bne_true, Bool.not_or]

theorem term_inj (proper : cube.Proper) (otherProper : other.Proper) {polarity : Polarity}
    (same : cube.term polarity = other.term polarity) : cube = other := by
  apply extent_inj proper otherProper
  ext row
  rw [mem_extent, mem_extent, covers_row_iff proper, covers_row_iff otherProper]
  simp only [bit_iff_mem_term polarity, same]

theorem term_text_inj (proper : cube.Proper) (otherProper : other.Proper) {polarity : Polarity}
    (same : cube.termText polarity = other.termText polarity) : cube = other :=
  term_inj proper otherProper (polarity.render_term_inj same)

end Cube

end BooleanCube
