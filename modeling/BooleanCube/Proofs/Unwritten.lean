import BooleanCube.Session
import BooleanCube.Proofs.ColumnLayout
import BooleanCube.Proofs.Derived

/-!
# Variables that are not written

The value of an expression depends on the variables in its literals only. So neither its function
nor a column of its table tells two rows apart that differ in another variable, and no prime cube
fixes one: the cube across that place would be an implicant too, and the union of both is larger.
-/

namespace BooleanCube

namespace Row

def SameBut (var : Variable) (left right : Row) : Prop :=
  ∀ other : Variable, other ≠ var → other.bit left = other.bit right

def setBit (var : Variable) (value : Bool) (row : Row) : Row :=
  Assignment.row (.ofFn fun other => if other = var then value else other.bit row)

theorem bit_set_bit (var other : Variable) (value : Bool) (row : Row) :
    other.bit (row.setBit var value) = if other = var then value else other.bit row := by
  rw [setBit, Assignment.bit_row, Assignment.get_of_fn]

theorem set_bit_same_but (var : Variable) (value : Bool) (row : Row) :
    SameBut var (row.setBit var value) row := by
  intro other different
  rw [bit_set_bit, if_neg different]

end Row

namespace Expression

theorem mem_literals_iff {expression : Expression} {literal : Literal} :
    literal ∈ expression.literals ↔ .operand literal ∈ expression := by
  unfold literals
  rw [List.mem_filterMap]
  constructor
  · intro found
    rcases found with ⟨token, member, picked⟩
    cases token with
    | operand other =>
        cases picked
        exact member
    | _ => cases picked
  · intro member
    exact ⟨.operand literal, member, rfl⟩

/-- Assignments under which the literals have the same values lead the stacks the same way. -/
theorem evaluate_congr (expression : Expression) {left right : Assignment}
    (agree : ∀ literal ∈ expression.literals, left.holds literal = right.holds literal) :
    expression.evaluate left = expression.evaluate right := by
  have runs : expression.foldl (Machine.step left) Machine.start =
      expression.foldl (Machine.step right) Machine.start := by
    apply List.foldl_ext
    intro machine token member
    cases token with
    | operand literal =>
        have value := agree literal (mem_literals_iff.mpr member)
        rw [Machine.step, Machine.step, value]
    | _ => rfl
  rw [evaluate, evaluate, operands, operands, runs]

theorem mem_of_mem_pairs {expression : Expression} {left right : Literal} {op : Connective}
    (member : (left, op, right) ∈ expression.pairs) :
    .operand left ∈ expression ∧ .operand right ∈ expression := by
  rw [pairs_eq_filter_map, List.mem_filterMap] at member
  rcases member with ⟨position, _, found⟩
  rcases pair_at_eq_some_iff.mp found with ⟨first, _, third⟩
  exact ⟨List.mem_of_getElem? first, List.mem_of_getElem? third⟩

theorem literals_of_step {expression : Expression} {step : Step}
    (member : step ∈ expression.steps) {literal : Literal}
    (written : literal ∈ step.tokens.literals) : literal ∈ expression.literals := by
  rw [mem_literals_iff] at written ⊢
  rw [steps_eq, List.mem_append] at member
  rcases member with small | leading
  · rcases List.mem_append.mp small with negation | pair
    · rcases List.mem_map.mp negation with ⟨var, isNegated, rfl⟩
      rw [Step.tokens, List.mem_singleton] at written
      rw [written]
      exact mem_negated_iff.mp isNegated
    · rcases mem_pair_steps_iff.mp pair with ⟨left, op, right, isPair, rfl⟩
      have both := mem_of_mem_pairs isPair
      simp only [Step.tokens, List.mem_cons, List.not_mem_nil, or_false, Token.operand.injEq,
        reduceCtorEq, false_or] at written
      rcases written with isLeft | isRight
      · rw [isLeft]
        exact both.1
      · rw [isRight]
        exact both.2
  · rcases List.mem_map.mp leading with ⟨size, _, rfl⟩
    exact List.mem_of_mem_take written

section Unwritten

variable {expression : Expression} {var : Variable} {left right : Row}

theorem evaluate_same_but (unwritten : ∀ literal ∈ expression.literals, literal.var ≠ var)
    (same : Row.SameBut var left right) :
    expression.evaluate (.ofRow left) = expression.evaluate (.ofRow right) := by
  apply evaluate_congr
  intro literal member
  have bits := same literal.var (unwritten literal member)
  rw [Assignment.holds_of_row, Assignment.holds_of_row, Literal.eval, Literal.eval, bits]

theorem step_same_but (unwritten : ∀ literal ∈ expression.literals, literal.var ≠ var)
    (same : Row.SameBut var left right) {step : Step} (member : step ∈ expression.steps) :
    step.evaluate (.ofRow left) = step.evaluate (.ofRow right) := by
  rw [← step.evaluate_tokens, ← step.evaluate_tokens]
  apply evaluate_same_but _ same
  intro literal written
  exact unwritten literal (literals_of_step member written)

end Unwritten

end Expression

/-- A function that has the same value in rows which differ in this variable only. -/
def TruthVector.Ignores (vector : TruthVector) (var : Variable) : Prop :=
  ∀ left right : Row, left.SameBut var right → vector.get left = vector.get right

theorem Cofactor.row_at_same_but (fixed : Variable) (place : Fin 4) :
    Row.SameBut fixed (rowAt fixed true place) (rowAt fixed false place) := by
  intro other different
  simp only [rowAt, Assignment.bit_row, Assignment.get_of_fn, if_neg different]

theorem Expansion.cofactors_same {vector : TruthVector} {pivot : Variable}
    (ignores : vector.Ignores pivot) :
    (ofVector vector pivot).high.values = (ofVector vector pivot).low.values := by
  apply congrArg Vector.ofFn
  funext place
  exact ignores _ _ (Cofactor.row_at_same_but pivot place)

namespace Cube

variable {cube : Cube} {var : Variable}

theorem bit_of_neighbour {other : Variable} (different : other ≠ var) :
    (cube.neighbour var.shift).bit? other = cube.bit? other := by
  have bound := var.shift_lt
  have places : var.shift ≠ other.shift := by
    intro same
    exact different (Variable.shift_inj same).symm
  simp [bit?, neighbour, get_lsb_single var.shift _ (by omega), places]

/-- A row of the cube across a place is carried into the cube by the bit of the variable there. -/
theorem set_bit_mem_extent (proper : cube.Proper)
    (neighbourProper : (cube.neighbour var.shift).Proper) {row : Row}
    (member : row ∈ (cube.neighbour var.shift).extent) :
    row.setBit var (cube.value.getLsbD var.shift) ∈ cube.extent := by
  rw [mem_extent, covers_row_iff neighbourProper] at member
  rw [mem_extent, covers_row_iff proper]
  intro other bit isBit
  rw [Row.bit_set_bit]
  split
  · next same =>
      rw [same] at isBit
      exact (bit_eq_some_iff.mp isBit).2
  · next different =>
      exact member other bit ((bit_of_neighbour different).trans isBit)

/-- A prime cube of rows that a variable does not tell apart leaves the variable free. -/
theorem Prime.free {rows : Finset Row} (prime : cube.Prime rows) (var : Variable)
    (ignores : ∀ left right : Row, left.SameBut var right → left ∈ rows → right ∈ rows) :
    cube.bit? var = none := by
  by_contra isFixed
  have proper := prime.implicant.proper
  have low := var.shift_lt
  have fixed : cube.mask.getLsbD var.shift = false := by
    rw [bit?] at isFixed
    simpa using isFixed
  have neighbourProper := neighbour_proper proper low fixed
  obtain ⟨union, combined⟩ := combine_neighbour cube (by omega) fixed
  have unionProper := combine_proper proper neighbourProper combined
  have across : (cube.neighbour var.shift).extent ⊆ rows := by
    intro row member
    apply ignores _ row (Row.set_bit_same_but var (cube.value.getLsbD var.shift) row)
    exact prime.implicant.inside (set_bit_mem_extent proper neighbourProper member)
  have larger : cube.extent ⊂ union.extent := by
    apply Finset.ssubset_iff_subset_ne.mpr
    constructor
    · rw [extent_combine combined]
      exact Finset.subset_union_left
    · intro same
      have more := weight_combine combined
      rw [extent_inj proper unionProper same] at more
      omega
  apply prime.maximal union ⟨unionProper, _⟩ larger
  rw [extent_combine combined]
  exact Finset.union_subset prime.implicant.inside across

end Cube

namespace TruthVector

theorem Ignores.unwritten {vector : TruthVector} {var : Variable} (ignores : vector.Ignores var)
    {polarity : Polarity} {term : Term} (member : term ∈ (vector.minimal polarity).form.terms)
    {literal : Literal} (written : literal ∈ term) : literal.var ≠ var := by
  intro same
  rw [(vector.minimal_exact polarity).terms_eq, List.mem_map] at member
  rcases member with ⟨cube, isPrime, rfl⟩
  have free : cube.bit? var = none := by
    apply (mem_primes_iff.mp isPrime).free var
    intro left right sameBut inside
    rw [Polarity.mem_row_set] at inside ⊢
    rw [← ignores left right sameBut, inside]
  rcases Cube.mem_term_iff.mp written with ⟨bit, isBit, _⟩
  rw [same, free] at isBit
  cases isBit

end TruthVector

namespace Session

/-- A variable that is not written does not show: the function and all columns have the same values
in rows that differ in it only, both cofactors by it are the same, and neither minimal form has a
literal of it. -/
theorem unwritten_unreported (expression : Expression) (var : Variable)
    (unwritten : ∀ literal ∈ expression.literals, literal.var ≠ var) :
    let session := ofExpression expression
    (∀ left right : Row, left.SameBut var right →
      session.vector.get left = session.vector.get right ∧
        ∀ column ∈ session.table.columns, column.values.get left = column.values.get right) ∧
      (Expansion.ofVector session.vector var).high.values =
        (Expansion.ofVector session.vector var).low.values ∧
      ∀ polarity, ∀ term ∈ (session.minimal polarity).form.terms, ∀ literal ∈ term,
        literal.var ≠ var := by
  intro session
  have ignores : session.vector.Ignores var := by
    intro left right same
    change (TruthTable.generate expression).vector.get left =
      (TruthTable.generate expression).vector.get right
    rw [TruthTable.vector_generate, TruthTable.vector_generate]
    exact Expression.evaluate_same_but unwritten same
  refine ⟨?_, Expansion.cofactors_same ignores, ?_⟩
  · intro left right same
    refine ⟨ignores left right same, ?_⟩
    intro column member
    rcases List.mem_map.mp member with ⟨step, isStep, rfl⟩
    rw [TruthTable.get_step_values, TruthTable.get_step_values]
    exact Expression.step_same_but unwritten same isStep
  · intro polarity term member literal written
    exact ignores.unwritten member written

/-- An implication without `y`, behind a stray parenthesis and before a disjunction that is cut
off. -/
theorem unwritten_unreported_dangling :
    let dangling : Expression :=
      [.closing, .operand (.negative .x), .connective .implies, .operand (.plain .z),
        .connective .or]
    let session := ofExpression dangling
    (∀ literal ∈ dangling.literals, literal.var ≠ .y) ∧
      (Expansion.ofVector session.vector .y).high.values =
        (Expansion.ofVector session.vector .y).low.values ∧
      ∀ polarity, ∀ term ∈ (session.minimal polarity).form.terms, ∀ literal ∈ term,
        literal.var ≠ .y := by
  intro dangling session
  have unwritten : ∀ literal ∈ dangling.literals, literal.var ≠ .y := by decide
  exact ⟨unwritten, (unwritten_unreported dangling .y unwritten).2⟩

end Session

end BooleanCube
