import BooleanCube.Proofs.SumOfProducts
import Mathlib.Data.List.Basic

/-!
# Products of sums as expressions

The parentheses of a clause do not group, so the text of a product of sums is read as a sum of
products: the last literal of every clause is tied to the first one of the next clause, and all
other literals stand alone. No true row is lost by that, but false rows may be taken for true ones.
-/

namespace BooleanCube

namespace Expression

theorem bare_append (left right : Expression) : bare (left ++ right) = left.bare ++ right.bare :=
  List.filter_append left right

theorem evaluate_bare (expression : Expression) (assignment : Assignment) :
    expression.bare.evaluate assignment = expression.evaluate assignment := by
  rw [evaluate, operands, Machine.fold_step_bare]
  rfl

end Expression

theorem Term.bare_tokens (op : Connective) (term : Term) :
    (tokens op term).bare = tokens op term := by
  induction term with
  | nil => rfl
  | cons literal rest ih =>
      cases rest with
      | nil => rfl
      | cons next others => exact congrArg (fun behind => _ :: _ :: behind) ih

namespace Polarity

/-- Only the parentheses tell the tokens of a clause from those of a plain sum. -/
theorem bare_clause (clause : Term) : (conjunctive.tokens clause).bare = Term.tokens .or clause := by
  rcases clause with _ | ⟨literal, _ | ⟨next, rest⟩⟩
  · rfl
  · rfl
  · have within := Term.bare_tokens .or (literal :: next :: rest)
    calc
      _ = (Term.tokens .or (literal :: next :: rest)).bare ++ Expression.bare [Token.closing] :=
        Expression.bare_append _ _
      _ = Term.tokens .or (literal :: next :: rest) := by
        rw [within]
        exact List.append_nil _

theorem form_tokens_cons (polarity : Polarity) (term : Term) {rest : List Term}
    (nonempty : rest ≠ []) :
    polarity.formTokens (term :: rest) =
      polarity.tokens term ++ .connective polarity.outer :: polarity.formTokens rest := by
  obtain ⟨next, others, rfl⟩ := List.exists_cons_of_ne_nil nonempty
  rfl

end Polarity

namespace NormalForm

/-- A clause in front of products when its parentheses do not count: its last literal joins the
first product, and each of the others is a product of its own. -/
def tie : Term → List Term → List Term
  | [], products => products
  | [last], [] => [[last]]
  | [last], product :: products => (last :: product) :: products
  | literal :: next :: rest, products => [literal] :: tie (next :: rest) products

def ungrouped (clauses : List Term) : List Term := clauses.foldr tie []

theorem tie_nonempty {clause : Term} (filled : clause ≠ []) (products : List Term) :
    tie clause products ≠ [] := by
  fun_cases tie clause products with
  | case1 => exact (filled rfl).elim
  | case2 | case3 | case4 => exact List.cons_ne_nil _ _

theorem tie_filled (clause : Term) {products : List Term}
    (filled : ∀ product ∈ products, product ≠ []) :
    ∀ product ∈ tie clause products, product ≠ [] := by
  fun_induction tie clause products with
  | case1 products => exact filled
  | case2 last => exact List.forall_mem_singleton.mpr (List.cons_ne_nil _ _)
  | case3 last product products =>
      rw [List.forall_mem_cons] at filled ⊢
      exact ⟨List.cons_ne_nil _ _, filled.2⟩
  | case4 literal next rest products ih =>
      rw [List.forall_mem_cons]
      exact ⟨List.cons_ne_nil _ _, ih filled⟩

theorem tie_alone (clause : Term) : tie clause [] = clause.map fun literal => [literal] := by
  induction clause with
  | nil => rfl
  | cons literal rest ih =>
      cases rest with
      | nil => rfl
      | cons next others => exact congrArg (_ :: ·) ih

theorem ungrouped_filled (clauses : List Term) : ∀ product ∈ ungrouped clauses, product ≠ [] := by
  induction clauses with
  | nil => exact List.forall_mem_nil _
  | cons clause rest ih => exact tie_filled clause ih

theorem ungrouped_nonempty {clauses : List Term} (nonempty : clauses ≠ [])
    (filled : ∀ clause ∈ clauses, clause ≠ []) : ungrouped clauses ≠ [] := by
  obtain ⟨clause, rest, rfl⟩ := List.exists_cons_of_ne_nil nonempty
  exact tie_nonempty (filled clause List.mem_cons_self) _

theorem ungrouped_single {clauses : List Term} (nonempty : clauses ≠ [])
    (single : ∀ clause ∈ clauses, clause.length = 1) : ungrouped clauses = [clauses.flatten] := by
  induction clauses with
  | nil => exact (nonempty rfl).elim
  | cons clause rest ih =>
      rw [List.forall_mem_cons] at single
      obtain ⟨last, rfl⟩ := List.length_eq_one_iff.mp single.1
      cases rest with
      | nil => rfl
      | cons next others =>
          have behind : List.foldr tie [] (next :: others) = [(next :: others).flatten] :=
            ih (List.cons_ne_nil next others) single.2
          rw [ungrouped, List.foldr_cons, behind]
          rfl

/-- What stands behind the last literal of a clause stands behind the whole clause. -/
theorem tokens_tie {products : List Term} {behind : Expression}
    (closed : ∀ last, Polarity.disjunctive.formTokens (tie [last] products) =
      .operand last :: behind) {clause : Term} (filled : clause ≠ []) :
    Polarity.disjunctive.formTokens (tie clause products) = Term.tokens .or clause ++ behind := by
  induction clause with
  | nil => exact (filled rfl).elim
  | cons literal rest ih =>
      cases rest with
      | nil => exact closed literal
      | cons next others =>
          have nonempty := tie_nonempty (List.cons_ne_nil next others) products
          rw [tie, Polarity.form_tokens_cons _ _ nonempty, ih (List.cons_ne_nil next others)]
          rfl

theorem tokens_tie_last (last : Literal) {products : List Term} (nonempty : products ≠ [])
    (filled : ∀ product ∈ products, product ≠ []) :
    Polarity.disjunctive.formTokens (tie [last] products) =
      .operand last :: .connective .and :: Polarity.disjunctive.formTokens products := by
  obtain ⟨product, others, rfl⟩ := List.exists_cons_of_ne_nil nonempty
  obtain ⟨literal, rest, rfl⟩ := List.exists_cons_of_ne_nil (filled product List.mem_cons_self)
  cases others <;> rfl

/-- Without its parentheses a product of sums has the tokens of a sum of products. -/
theorem bare_form_tokens {clauses : List Term} (filled : ∀ clause ∈ clauses, clause ≠ []) :
    (Polarity.conjunctive.formTokens clauses).bare =
      Polarity.disjunctive.formTokens (ungrouped clauses) := by
  induction clauses with
  | nil => rfl
  | cons clause rest ih =>
      rw [List.forall_mem_cons] at filled
      by_cases last : rest = []
      · subst last
        have alone : Polarity.disjunctive.formTokens (tie clause []) =
            Term.tokens .or clause ++ [] := tokens_tie (fun _ => rfl) filled.1
        rw [List.append_nil] at alone
        exact (Polarity.bare_clause clause).trans alone.symm
      · have behind (literal : Literal) :=
          tokens_tie_last literal (ungrouped_nonempty last filled.2) (ungrouped_filled rest)
        have tied := tokens_tie behind filled.1
        calc
          _ = Term.tokens .or clause ++
                .connective .and :: (Polarity.conjunctive.formTokens rest).bare := by
            rw [Polarity.form_tokens_cons _ _ last, Expression.bare_append, Polarity.bare_clause]
            rfl
          _ = Polarity.disjunctive.formTokens (tie clause (ungrouped rest)) := by
            rw [ih filled.2, tied]

theorem eval_sum_iff {products : List Term} {row : Row} :
    eval ⟨.disjunctive, products⟩ row = true ↔
      ∃ product ∈ products, ∀ literal ∈ product, literal.eval row = true := by
  simp only [eval, Polarity.evalTerm, List.any_eq_true, List.all_eq_true]

theorem eval_product_iff {clauses : List Term} {row : Row} :
    eval ⟨.conjunctive, clauses⟩ row = true ↔
      ∀ clause ∈ clauses, ∃ literal ∈ clause, literal.eval row = true := by
  simp only [eval, Polarity.evalTerm, List.any_eq_true, List.all_eq_true]

section Row

variable {row : Row}

/-- A true literal in front of a true sum: whether it is tied to a true product or to a false one,
a true product is left. -/
theorem eval_tie_last {last : Literal} (holds : last.eval row = true) {products : List Term}
    (behind : products ≠ [] → eval ⟨.disjunctive, products⟩ row = true) :
    eval ⟨.disjunctive, tie [last] products⟩ row = true := by
  rw [eval_sum_iff] at behind ⊢
  cases products with
  | nil => exact ⟨[last], List.mem_singleton_self _, List.forall_mem_singleton.mpr holds⟩
  | cons first others =>
      obtain ⟨product, member, isTrue⟩ := behind (List.cons_ne_nil first others)
      rcases List.mem_cons.mp member with rfl | later
      · exact ⟨last :: product, List.mem_cons_self, List.forall_mem_cons.mpr ⟨holds, isTrue⟩⟩
      · exact ⟨product, List.mem_cons_of_mem _ later, isTrue⟩

theorem eval_tie {products : List Term}
    (behind : products ≠ [] → eval ⟨.disjunctive, products⟩ row = true) {clause : Term}
    (holds : ∃ literal ∈ clause, literal.eval row = true) :
    eval ⟨.disjunctive, tie clause products⟩ row = true := by
  induction clause with
  | nil =>
      obtain ⟨literal, member, -⟩ := holds
      cases member
  | cons first rest ih =>
      rw [List.exists_mem_cons_iff] at holds
      cases rest with
      | nil =>
          have isTrue := holds.resolve_right (by simp)
          exact eval_tie_last isTrue behind
      | cons next others =>
          rw [tie, eval_sum_iff]
          rcases holds with isTrue | later
          · exact ⟨[first], List.mem_cons_self, List.forall_mem_singleton.mpr isTrue⟩
          · obtain ⟨product, member, productTrue⟩ := eval_sum_iff.mp (ih later)
            exact ⟨product, List.mem_cons_of_mem _ member, productTrue⟩

/-- Whatever makes every clause true makes one of the products true that the clauses are read as. -/
theorem eval_ungrouped {clauses : List Term} (nonempty : clauses ≠ [])
    (holds : eval ⟨.conjunctive, clauses⟩ row = true) :
    eval ⟨.disjunctive, ungrouped clauses⟩ row = true := by
  rw [eval_product_iff] at holds
  induction clauses with
  | nil => exact (nonempty rfl).elim
  | cons clause rest ih =>
      rw [List.forall_mem_cons] at holds
      apply eval_tie _ holds.1
      intro more
      apply ih _ holds.2
      rintro rfl
      exact more rfl

theorem eval_ungrouped_clause (clause : Term) :
    eval ⟨.disjunctive, ungrouped [clause]⟩ row = eval ⟨.conjunctive, [clause]⟩ row := by
  have alone : ungrouped [clause] = clause.map fun literal => [literal] := tie_alone clause
  rw [Bool.eq_iff_iff, eval_sum_iff, eval_product_iff, alone, List.forall_mem_singleton]
  simp only [List.mem_map, exists_exists_and_eq_and, List.forall_mem_singleton]

theorem eval_ungrouped_single {clauses : List Term} (nonempty : clauses ≠ [])
    (single : ∀ clause ∈ clauses, clause.length = 1) :
    eval ⟨.disjunctive, ungrouped clauses⟩ row = eval ⟨.conjunctive, clauses⟩ row := by
  have isTrue (clause : Term) (member : clause ∈ clauses) :
      (∃ literal ∈ clause, literal.eval row = true) ↔
        ∀ literal ∈ clause, literal.eval row = true := by
    obtain ⟨last, rfl⟩ := List.length_eq_one_iff.mp (single clause member)
    simp only [List.mem_singleton, exists_eq_left, forall_eq]
  rw [Bool.eq_iff_iff, eval_sum_iff, eval_product_iff, ungrouped_single nonempty single,
    forall₂_congr isTrue]
  simp only [List.mem_singleton, exists_eq_left, List.forall_mem_flatten]

end Row

theorem evaluate_ungrouped {clauses : List Term} (regular : Regular ⟨.conjunctive, clauses⟩)
    (row : Row) :
    (Polarity.conjunctive.formTokens clauses).evaluate (.ofRow row) =
      eval ⟨.disjunctive, ungrouped clauses⟩ row := by
  have products : Regular ⟨.disjunctive, ungrouped clauses⟩ :=
    ⟨ungrouped_nonempty regular.nonempty regular.filled, ungrouped_filled clauses⟩
  rw [← Expression.evaluate_bare, bare_form_tokens regular.filled, evaluate_tokens products]

/-- The text of a conjunctive form is an expression that is true in every row in which the form is.
It has the value of the form if there is a single clause or if all clauses are single literals. -/
theorem read_conjunctive {terms : List Term} (nonempty : terms ≠ [])
    (filled : ∀ term ∈ terms, term ≠ []) :
    let form : NormalForm := ⟨.conjunctive, terms⟩
    ∃ parsed, Expression.read form.render = .ok parsed ∧
      (∀ row, form.eval row = true → parsed.evaluate (.ofRow row) = true) ∧
      ((terms.length = 1 ∨ ∀ term ∈ terms, term.length = 1) →
        ∀ row, parsed.evaluate (.ofRow row) = form.eval row) := by
  intro form
  have regular : form.Regular := ⟨nonempty, filled⟩
  refine ⟨_, regular.read, ?_, ?_⟩
  · intro row holds
    rw [evaluate_ungrouped regular]
    exact eval_ungrouped nonempty holds
  · intro shape row
    rw [evaluate_ungrouped regular]
    rcases shape with oneClause | single
    · obtain ⟨clause, rfl⟩ := List.length_eq_one_iff.mp oneClause
      exact eval_ungrouped_clause clause
    · exact eval_ungrouped_single nonempty single

/-- A false row that the text takes for a true one, and a form of single literals. -/
theorem read_conjunctive_widened :
    let widened : NormalForm :=
      ⟨.conjunctive, [[.plain .x, .negative .y], [.plain .z], [.negative .x, .negative .z]]⟩
    let literals : NormalForm := ⟨.conjunctive, [[.plain .x], [.negative .y], [.plain .x]]⟩
    (widened.Regular ∧ ∃ parsed, Expression.read widened.render = .ok parsed ∧
        (∀ row, widened.eval row = true → parsed.evaluate (.ofRow row) = true) ∧
        ∃ row, widened.eval row = false ∧ parsed.evaluate (.ofRow row) = true) ∧
      literals.Regular ∧ ∃ parsed, Expression.read literals.render = .ok parsed ∧
        ∀ row, parsed.evaluate (.ofRow row) = literals.eval row := by
  intro widened literals
  have widenedRegular : widened.Regular := ⟨by decide, by decide⟩
  have literalsRegular : literals.Regular := ⟨by decide, by decide⟩
  obtain ⟨parsed, done, kept, -⟩ :=
    read_conjunctive widenedRegular.nonempty widenedRegular.filled
  obtain ⟨exactly, exactlyDone, -, same⟩ :=
    read_conjunctive literalsRegular.nonempty literalsRegular.filled
  refine ⟨⟨widenedRegular, parsed, done, kept, 5, by decide, ?_⟩,
    literalsRegular, exactly, exactlyDone, same (.inr (by decide))⟩
  rw [← Except.ok.inj (widenedRegular.read.symm.trans done)]
  decide

end NormalForm

end BooleanCube
