import BooleanCube.Proofs.FormText
import BooleanCube.Proofs.Precedence

/-!
# Sums of products as expressions

Conjunction binds tighter than disjunction, so the grammar cuts a sum of products at its sums and
gives it the value that the form has. No parentheses are needed, and none would count.
-/

namespace BooleanCube

namespace Alternation

variable {Item : Type} {cuts : Connective → Bool}

theorem cut_append {links tail : List (Connective × Item)}
    {rest : List (Connective × Alternation Item)}
    (spared : ∀ link ∈ links, cuts link.1 = false)
    (closed : ∀ item, cut cuts ⟨item, tail⟩ = ⟨⟨item, []⟩, rest⟩) (first : Item) :
    cut cuts ⟨first, links ++ tail⟩ = ⟨⟨first, links⟩, rest⟩ := by
  induction links generalizing first with
  | nil => exact closed first
  | cons link links ih =>
      rcases link with ⟨op, item⟩
      rw [List.forall_mem_cons] at spared
      rw [List.cons_append, cut_past_link spared.1, ih spared.2]

/-- Cutting undoes joining if the parts are joined at the connectives that are cut at. -/
theorem cut_join (parts : Alternation (Alternation Item))
    (picked : ∀ link ∈ parts.rest, cuts link.1 = true)
    (spared : ∀ part ∈ parts.items, ∀ link ∈ part.rest, cuts link.1 = false) :
    cut cuts parts.join = parts := by
  rcases parts with ⟨⟨first, links⟩, rest⟩
  induction rest generalizing first links with
  | nil =>
      simp only [items, List.map_nil, List.forall_mem_singleton] at spared
      exact cut_append spared (cut_single cuts) first
  | cons link rest ih =>
      rcases link with ⟨op, ⟨item, inner⟩⟩
      simp only [items, List.map_cons, List.forall_mem_cons] at picked spared
      refine cut_append spared.1 ?_ first
      intro last
      have behind := ih item inner picked.2 (by simpa [items] using spared.2)
      rw [join] at behind
      rw [List.flatMap_cons, List.cons_append, cut_at_link picked.1, behind]

theorem mem_join_rest {parts : Alternation (Alternation Item)} {link : Connective × Item}
    (member : link ∈ parts.join.rest) :
    (∃ outer ∈ parts.rest, link.1 = outer.1) ∨ ∃ part ∈ parts.items, link ∈ part.rest := by
  rcases List.mem_append.mp member with inFirst | behind
  · exact .inr ⟨parts.first, List.mem_cons_self, inFirst⟩
  · obtain ⟨outer, inRest, inPart⟩ := List.mem_flatMap.mp behind
    rcases List.mem_cons.mp inPart with isHead | inner
    · exact .inl ⟨outer, inRest, by rw [isHead]⟩
    · exact .inr ⟨outer.2, List.mem_cons_of_mem _ (List.mem_map_of_mem inRest), inner⟩

theorem tokens_join (parts : Alternation (Alternation Literal)) :
    parts.join.tokens =
      parts.first.tokens ++ parts.rest.flatMap fun (op, part) => .connective op :: part.tokens := by
  simp [tokens, join, List.flatMap_assoc]

/-- A sum of products: the parts are joined by disjunctions, and within them by conjunctions. -/
structure IsSum (parts : Alternation (Alternation Literal)) : Prop where
  sums : ∀ link ∈ parts.rest, link.1 = .or
  products : ∀ part ∈ parts.items, ∀ link ∈ part.rest, link.1 = .and

theorem IsSum.value {parts : Alternation (Alternation Literal)} (isSum : parts.IsSum)
    (assignment : Assignment) :
    parts.join.value assignment =
      parts.items.any fun part => part.items.all assignment.holds := by
  have tight : ∀ link ∈ parts.join.rest, decide (link.1 ≠ .and ∧ link.1 ≠ .or) = false := by
    intro link member
    rcases mem_join_rest member with ⟨outer, inRest, same⟩ | ⟨part, inParts, inner⟩
    · rw [same, isSum.sums outer inRest]
      rfl
    · rw [isSum.products part inParts link inner]
      rfl
  -- No connective cuts segments, so there is one segment, and the disjunctions cut it into parts.
  have segment : parts.join.segments = ⟨parts.join, []⟩ := by
    have whole : cut (fun op => op ≠ .and ∧ op ≠ .or) ⟨parts.join.first, parts.join.rest ++ []⟩ =
        ⟨parts.join, []⟩ := cut_append tight (cut_single _) parts.join.first
    rwa [List.append_nil] at whole
  have groups : parts.join.groups = parts := by
    apply cut_join
    · intro link member
      rw [isSum.sums link member]
      rfl
    · intro part member link inner
      rw [isSum.products part member link inner]
      rfl
  rw [Alternation.value, segment]
  simp only [List.foldl_nil, segmentValue, groups]
  rfl

def product (literal : Literal) (rest : List Literal) : Alternation Literal :=
  ⟨literal, rest.map fun next => (.and, next)⟩

theorem items_product (literal : Literal) (rest : List Literal) :
    (product literal rest).items = literal :: rest := by
  simp [product, items, Function.comp_def]

theorem product_links (literal : Literal) (rest : List Literal) :
    ∀ link ∈ (product literal rest).rest, link.1 = .and := by
  simp [product]

theorem tokens_product (literal : Literal) (rest : List Literal) :
    (product literal rest).tokens = Term.tokens .and (literal :: rest) := by
  induction rest generalizing literal with
  | nil => rfl
  | cons next rest ih =>
      rw [Term.tokens, ← ih next]
      rfl

/-- The tokens of a disjunctive form are those of a sum with the terms as its products. -/
theorem exists_sum {terms : List Term} (nonempty : terms ≠ [])
    (filled : ∀ term ∈ terms, term ≠ []) :
    ∃ parts : Alternation (Alternation Literal), parts.IsSum ∧
      parts.items.map Alternation.items = terms ∧
      Polarity.disjunctive.formTokens terms = parts.join.tokens := by
  induction terms with
  | nil => exact (nonempty rfl).elim
  | cons term rest ih =>
      rw [List.forall_mem_cons] at filled
      obtain ⟨literal, others, rfl⟩ := List.exists_cons_of_ne_nil filled.1
      have links := product_links literal others
      cases rest with
      | nil =>
          refine ⟨⟨product literal others, []⟩, ⟨?_, ?_⟩, ?_, ?_⟩
          · simp
          · simpa [items] using links
          · simp [items, ← items_product literal others]
          · rw [tokens_join, tokens_product]
            exact (List.append_nil _).symm
      | cons next more =>
          obtain ⟨parts, ⟨sums, products⟩, sameTerms, sameTokens⟩ :=
            ih (List.cons_ne_nil next more) filled.2
          refine ⟨⟨product literal others, (.or, parts.first) :: parts.rest⟩, ⟨?_, ?_⟩, ?_, ?_⟩
          · exact List.forall_mem_cons.mpr ⟨rfl, sums⟩
          · exact List.forall_mem_cons.mpr ⟨links, products⟩
          · rw [← sameTerms, ← items_product literal others]
            rfl
          · rw [tokens_join] at sameTokens ⊢
            rw [Polarity.formTokens, sameTokens, tokens_product]
            rfl

end Alternation

namespace NormalForm

theorem evaluate_tokens {terms : List Term} (regular : Regular ⟨.disjunctive, terms⟩) (row : Row) :
    (Polarity.disjunctive.formTokens terms).evaluate (.ofRow row) =
      eval ⟨.disjunctive, terms⟩ row := by
  obtain ⟨parts, isSum, sameTerms, sameTokens⟩ :=
    Alternation.exists_sum regular.nonempty regular.filled
  calc
    _ = parts.items.any fun part => part.items.all (Assignment.ofRow row).holds := by
      rw [← isSum.value, ← Alternation.evaluate_tokens, ← sameTokens]
    _ = (parts.items.map Alternation.items).any fun term =>
          term.all fun literal => literal.eval row := by
      simp only [List.any_map, Function.comp_def, ← Assignment.holds_of_row]
    _ = eval ⟨.disjunctive, terms⟩ row := by
      rw [sameTerms]
      rfl

/-- The text of a disjunctive form is an expression for its value, unless it is a digit: that is no
expression, and it names the value, which is constant. -/
theorem read_disjunctive (terms : List Term) :
    let form : NormalForm := ⟨.disjunctive, terms⟩
    ((terms ≠ [] ∧ ∀ term ∈ terms, term ≠ []) →
        ∃ parsed, Expression.read form.render = .ok parsed ∧
          ∀ row, parsed.evaluate (.ofRow row) = form.eval row) ∧
      (¬(terms ≠ [] ∧ ∀ term ∈ terms, term ≠ []) →
        ∃ value, form.render = digit value ∧
          (∃ error, Expression.read form.render = .error error) ∧
          ∀ row, form.eval row = value) := by
  intro form
  constructor
  · rintro ⟨nonempty, filled⟩
    have regular : form.Regular := ⟨nonempty, filled⟩
    exact ⟨_, regular.read, evaluate_tokens regular⟩
  · intro other
    have constant : ¬form.Regular := fun regular => other ⟨regular.nonempty, regular.filled⟩
    obtain ⟨value, text, eval⟩ := constant_of_not_regular constant
    exact ⟨value, text, text ▸ read_digit value, eval⟩

/-- A contradictory product, and one that is written twice. -/
theorem read_disjunctive_repeated :
    let terms : List Term :=
      [[.plain .x, .negative .x], [.negative .y, .plain .z], [.negative .y, .plain .z]]
    (terms ≠ [] ∧ ∀ term ∈ terms, term ≠ []) ∧
      ∃ parsed, Expression.read (render ⟨.disjunctive, terms⟩) = .ok parsed ∧
        ∀ row, parsed.evaluate (.ofRow row) = eval ⟨.disjunctive, terms⟩ row :=
  ⟨by decide, (read_disjunctive _).1 (by decide)⟩

end NormalForm

end BooleanCube
