import BooleanCube.Minimization
import BooleanCube.Proofs.CubeTerm
import BooleanCube.Proofs.MergeLevels
import BooleanCube.Proofs.TextOrder
import Mathlib.Data.Fintype.Card

/-!
# Minimal forms

The minimal form of a set of rows is made of its prime cubes, every one of them and each once, in
the order of their texts. Dropping equal texts loses no cube, and the constants are what the search
would find for the empty and the full set.
-/

namespace BooleanCube

namespace Cube

theorem eq_of_compare {cube other : Cube} (same : cube.compare other = .eq) : cube = other := by
  rw [compare, Ordering.then_eq_eq, Nat.compare_eq_eq, Nat.compare_eq_eq] at same
  rcases cube with ⟨value, mask⟩
  rcases other with ⟨otherValue, otherMask⟩
  exact congrArg₂ mk (BitVec.eq_of_toNat_eq same.1) (BitVec.eq_of_toNat_eq same.2)

theorem mem_insert_ordered {cube other : Cube} {cubes : List Cube} :
    other ∈ insertOrdered cube cubes ↔ other = cube ∨ other ∈ cubes := by
  induction cubes with
  | nil => simp [insertOrdered]
  | cons first rest ih =>
      rw [insertOrdered]
      split
      · exact List.mem_cons
      · next same =>
          rw [eq_of_compare same]
          simp
      · rw [List.mem_cons, ih, List.mem_cons]
        exact or_left_comm

theorem mem_ordered {cube : Cube} {cubes : List Cube} : cube ∈ ordered cubes ↔ cube ∈ cubes := by
  induction cubes with
  | nil => exact Iff.rfl
  | cons first rest ih =>
      have inserted : cube ∈ ordered (first :: rest) ↔ cube = first ∨ cube ∈ ordered rest :=
        mem_insert_ordered
      rw [inserted, ih, List.mem_cons]

theorem prime_univ_iff {cube : Cube} : cube.Prime Finset.univ ↔ cube = whole := by
  have proper : whole.Proper := ⟨by decide, by decide, by decide⟩
  have full : whole.extent = Finset.univ := by decide
  constructor
  · intro prime
    apply extent_inj prime.implicant.proper proper
    have notLess := prime.maximal whole ⟨proper, Finset.subset_univ _⟩
    rw [full, Finset.ssubset_univ_iff, not_not] at notLess
    rw [full, notLess]
  · intro same
    rw [same]
    constructor
    · exact ⟨proper, Finset.subset_univ _⟩
    · intro other implicant less
      rw [full] at less
      exact less.2 (Finset.subset_univ _)

end Cube

namespace Minimized

/-- A minimal form of a set of rows: its terms are those of the prime cubes, and the texts of the
terms increase strictly. -/
structure Exact (minimized : Minimized) (rows : Finset Row) (polarity : Polarity) : Prop where
  polarity_eq : minimized.form.polarity = polarity
  terms_eq : minimized.form.terms = minimized.primes.map fun cube => cube.term polarity
  mem_primes : ∀ cube : Cube, cube ∈ minimized.primes ↔ cube.Prime rows
  increasing : minimized.primes.Pairwise
    fun cube other => cube.termText polarity < other.termText polarity

theorem Exact.nodup {minimized : Minimized} {rows : Finset Row} {polarity : Polarity}
    (exact : minimized.Exact rows polarity) : minimized.primes.Nodup := by
  apply exact.increasing.imp
  intro cube other before same
  exact absurd (same ▸ before) (lt_irrefl _)

/-- A disjunction of the prime cubes is true inside the set, a conjunction outside. -/
theorem Exact.eval {minimized : Minimized} {rows : Finset Row} {polarity : Polarity}
    (exact : minimized.Exact rows polarity) (row : Row) :
    minimized.form.eval row = (decide (row ∈ rows) != polarity.unit) := by
  have proper : ∀ cube ∈ minimized.primes, cube.Proper := by
    intro cube member
    exact ((exact.mem_primes cube).mp member).implicant.proper
  have covered : minimized.primes.any (fun cube => cube.covers row.byte) = decide (row ∈ rows) := by
    rw [Bool.eq_iff_iff, List.any_eq_true, decide_eq_true_iff]
    constructor
    · intro some
      rcases some with ⟨cube, member, covers⟩
      have implicant := ((exact.mem_primes cube).mp member).implicant
      exact implicant.inside (Cube.mem_extent.mpr covers)
    · intro member
      rcases Cube.exists_prime_of_mem member with ⟨cube, prime, inside⟩
      exact ⟨cube, (exact.mem_primes cube).mpr prime, Cube.mem_extent.mp inside⟩
  have form : minimized.form =
      ⟨polarity, minimized.primes.map fun cube => cube.term polarity⟩ :=
    congrArg₂ NormalForm.mk exact.polarity_eq exact.terms_eq
  rw [form, Cube.eval_form polarity proper, covered]

section Search

variable {rows : List Row} (nodup : rows.Nodup) (polarity : Polarity)

include nodup

theorem mem_unmerged_all (cube : Cube) :
    cube ∈ (Round.all (rows.map Cube.ofRow)).flatMap Round.unmerged ↔
      cube.Prime rows.toFinset := by
  rw [Round.all, Round.mem_run_iff 9 (by decide) (Round.level_of_rows rows nodup)]
  exact and_iff_left (Nat.zero_le _)

theorem mem_primes_of (cube : Cube) :
    cube ∈ primesOf (Round.all (rows.map Cube.ofRow)) polarity ↔ cube.Prime rows.toFinset := by
  have sorted (other : Cube) :
      other ∈ Text.sortBy (Cube.termText polarity)
        (Cube.ordered ((Round.all (rows.map Cube.ofRow)).flatMap Round.unmerged)) ↔
          other.Prime rows.toFinset := by
    rw [(Text.sort_by_perm _ _).mem_iff, Cube.mem_ordered, mem_unmerged_all nodup]
  rw [primesOf, Text.mem_distinct_by, sorted]
  intro left leftMember right rightMember same
  exact Cube.term_text_inj ((sorted left).mp leftMember).implicant.proper
    ((sorted right).mp rightMember).implicant.proper same

theorem search_exact : (search rows polarity).Exact rows.toFinset polarity where
  polarity_eq := rfl
  terms_eq := rfl
  mem_primes := mem_primes_of nodup polarity
  increasing := Text.distinct_by_increasing _ _ (Text.sort_by_ascending _ _)

end Search

theorem empty_exact (polarity : Polarity) :
    (constant polarity [] polarity.unit).Exact ∅ polarity where
  polarity_eq := rfl
  terms_eq := if_pos rfl
  mem_primes := by
    intro cube
    constructor
    · intro member
      cases member
    · intro prime
      rcases Cube.extent_nonempty prime.implicant.proper with ⟨row, member⟩
      exact absurd (prime.implicant.inside member) (Finset.notMem_empty row)
  increasing := List.Pairwise.nil

theorem full_exact (polarity : Polarity) :
    (constant polarity [Cube.whole] !polarity.unit).Exact Finset.univ polarity where
  polarity_eq := rfl
  terms_eq := by cases polarity <;> rfl
  mem_primes := by
    intro cube
    rw [Cube.prime_univ_iff]
    exact List.mem_singleton
  increasing := List.pairwise_singleton _ _

def listed (terms : List Nat) : Finset Row := Finset.univ.filter fun row => row.val ∈ terms

theorem mem_listed {terms : List Nat} {row : Row} : row ∈ listed terms ↔ row.val ∈ terms := by
  rw [listed, Finset.mem_filter]
  exact and_iff_right (Finset.mem_univ row)

def listedRows (terms : List Nat) : List Row := Row.all.filter fun row => terms.contains row.val

theorem nodup_listed_rows (terms : List Nat) : (listedRows terms).Nodup :=
  (List.nodup_finRange 8).filter _

theorem to_finset_listed_rows (terms : List Nat) : (listedRows terms).toFinset = listed terms := by
  ext row
  rw [List.mem_toFinset, mem_listed, listedRows, List.mem_filter, List.contains_iff_mem]
  exact and_iff_right row.mem_all

theorem first_level (terms : List Nat) :
    Round.IsLevel (listed terms) 0 ((listedRows terms).map Cube.ofRow) := by
  rw [← to_finset_listed_rows]
  exact Round.level_of_rows _ (nodup_listed_rows terms)

theorem length_listed_rows (terms : List Nat) : (listedRows terms).length = (listed terms).card := by
  rw [← to_finset_listed_rows, List.toFinset_card_of_nodup (nodup_listed_rows terms)]

theorem minimize_empty {terms : List Nat} (none : listed terms = ∅) (polarity : Polarity) :
    minimize terms polarity = constant polarity [] polarity.unit := by
  have count : (listedRows terms).length = 0 := by
    rw [length_listed_rows, none, Finset.card_empty]
  exact if_pos count

theorem minimize_full {terms : List Nat} (every : listed terms = Finset.univ)
    (polarity : Polarity) :
    minimize terms polarity = constant polarity [Cube.whole] !polarity.unit := by
  have count : (listedRows terms).length = Row.all.length := by
    rw [length_listed_rows, every]
    rfl
  have some : (listedRows terms).length ≠ 0 := by
    rw [count]
    decide
  exact (if_neg some).trans (if_pos count)

theorem minimize_between {terms : List Nat} (some : listed terms ≠ ∅)
    (notEvery : listed terms ≠ Finset.univ) (polarity : Polarity) :
    minimize terms polarity = search (listedRows terms) polarity := by
  have notNone : (listedRows terms).length ≠ 0 := by
    rw [length_listed_rows]
    exact Finset.card_ne_zero.mpr (Finset.nonempty_iff_ne_empty.mpr some)
  have notAll : (listedRows terms).length ≠ Row.all.length := by
    rw [length_listed_rows]
    exact mt (Finset.card_eq_iff_eq_univ _).mp notEvery
  exact (if_neg notNone).trans (if_neg notAll)

/-- Each of the three ways to find a form finds all primes, the two shortcuts included. -/
theorem minimize_exact (terms : List Nat) (polarity : Polarity) :
    (minimize terms polarity).Exact (listed terms) polarity := by
  by_cases none : listed terms = ∅
  · rw [minimize_empty none, none]
    exact empty_exact polarity
  by_cases every : listed terms = Finset.univ
  · rw [minimize_full every, every]
    exact full_exact polarity
  · rw [minimize_between none every, ← to_finset_listed_rows]
    exact search_exact (nodup_listed_rows terms) polarity

/-- Minimization lists the prime cubes of the listed rows and nothing else, each once, and its form
is made of their terms in the order of their texts. -/
theorem minimize_lists_primes (terms : List Nat) (polarity : Polarity) :
    let minimized := minimize terms polarity
    minimized.primes.Nodup ∧
      (∀ cube : Cube, cube ∈ minimized.primes ↔ cube.Prime (listed terms)) ∧
      minimized.form.polarity = polarity ∧
      minimized.form.terms = minimized.primes.map (fun cube => cube.term polarity) ∧
      (minimized.form.terms.map polarity.renderTerm).Pairwise (· < ·) ∧
      ∀ row, minimized.form.eval row = true ↔
        match polarity with
        | .disjunctive => row.val ∈ terms
        | .conjunctive => row.val ∉ terms := by
  have exact := minimize_exact terms polarity
  intro minimized
  refine ⟨exact.nodup, exact.mem_primes, exact.polarity_eq, exact.terms_eq, ?_, ?_⟩
  · rw [exact.terms_eq, List.map_map, List.pairwise_map]
    exact exact.increasing
  · intro row
    rw [exact.eval row]
    cases polarity with
    | disjunctive => rw [Polarity.unit, Bool.bne_false, decide_eq_true_iff, mem_listed]
    | conjunctive =>
        rw [Polarity.unit, Bool.bne_true, Bool.not_eq_true', decide_eq_false_iff_not, mem_listed]

end Minimized

end BooleanCube
