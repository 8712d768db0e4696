import BooleanCube.Cube.Round
import BooleanCube.Proofs.FirstOccurrence
import BooleanCube.Proofs.Implicant
import Mathlib.Data.List.Nodup

/-!
# The levels of merging

The level of a round holds every implicant of one size, each once. The round merges any two of them
that have a union, so the next level holds every implicant of the next size, and a cube stays
unmerged exactly if it is prime.
-/

namespace BooleanCube

namespace Round

/-- The invariant of the rounds: the level lists the implicants with `size` free places. -/
structure IsLevel (rows : Finset Row) (size : Nat) (level : List Cube) : Prop where
  nodup : level.Nodup
  mem_iff : ∀ cube : Cube,
    cube ∈ level ↔ cube.Implicant rows ∧ Cube.weight cube.mask = size

theorem mem_merges_iff {level : List Cube} {merge : Merge} :
    merge ∈ mergesOf level ↔
      merge.lower ∈ level ∧ merge.upper ∈ level ∧ merge.lower.ones < 3 ∧
        merge.upper.ones = merge.lower.ones + 1 ∧
        merge.lower.combine merge.upper = some merge.union := by
  simp only [mergesOf, group, List.mem_flatMap, List.mem_range, List.mem_filter,
    List.mem_filterMap, Option.map_eq_some_iff, decide_eq_true_eq]
  constructor
  · intro found
    rcases found with ⟨ones, bound, lower, ⟨inLevel, rfl⟩, upper, ⟨alsoInLevel, next⟩, union, combined, rfl⟩
    exact ⟨inLevel, alsoInLevel, bound, next, combined⟩
  · intro fits
    rcases fits with ⟨inLevel, alsoInLevel, bound, next, combined⟩
    exact ⟨merge.lower.ones, bound, merge.lower, ⟨inLevel, rfl⟩, merge.upper,
      ⟨alsoInLevel, next⟩, merge.union, combined, rfl⟩

section Level

variable {rows : Finset Row} {size : Nat} {level : List Cube}

theorem level_of_rows (rows : List Row) (nodup : rows.Nodup) :
    IsLevel rows.toFinset 0 (rows.map Cube.ofRow) where
  nodup := by
    refine nodup.map fun left right same => ?_
    have bytes := congrArg (fun cube : Cube => cube.value.toNat) same
    exact Fin.ext (by simpa [Cube.ofRow, Row.byte_to_nat] using bytes)
  mem_iff cube := by
    rw [List.mem_map]
    constructor
    · intro single
      rcases single with ⟨row, member, rfl⟩
      refine ⟨⟨Cube.of_row_proper row, ?_⟩, Cube.weight_zero⟩
      intro other covered
      exact List.mem_toFinset.mpr (Cube.mem_extent_of_row.mp covered ▸ member)
    · intro given
      rcases given with ⟨implicant, noFree⟩
      rcases cube with ⟨value, mask⟩
      have fixed : mask = 0 := Cube.eq_zero_of_weight noFree
      obtain ⟨row, rfl⟩ := Row.exists_byte implicant.proper.value_lt
      subst fixed
      have covered : row ∈ (Cube.ofRow row).extent := Cube.mem_extent_of_row.mpr rfl
      exact ⟨row, List.mem_toFinset.mp (implicant.inside covered), rfl⟩

theorem merge_of_neighbours {cube union : Cube} {place : Nat}
    (invariant : IsLevel rows size level) (member : cube ∈ level)
    (neighbourMember : cube.neighbour place ∈ level) (bound : place < 8)
    (clear : cube.value.getLsbD place = false)
    (combined : cube.combine (cube.neighbour place) = some union) :
    ⟨cube, cube.neighbour place, union⟩ ∈ mergesOf level := by
  have more : (cube.neighbour place).ones = cube.ones + 1 := Cube.weight_flip bound clear
  have neighbourProper := ((invariant.mem_iff _).mp neighbourMember).1.proper
  have atMostThree : (cube.neighbour place).ones ≤ 3 := Cube.weight_le_three neighbourProper.value_lt
  have few : cube.ones < 3 := by omega
  exact mem_merges_iff.mpr ⟨member, neighbourMember, few, more, combined⟩

theorem union_of_merge {merge : Merge} (invariant : IsLevel rows size level)
    (member : merge ∈ mergesOf level) :
    merge.union.Implicant rows ∧ Cube.weight merge.union.mask = size + 1 := by
  obtain ⟨lowerMember, upperMember, -, -, combined⟩ := mem_merges_iff.mp member
  obtain ⟨lower, lowerSize⟩ := (invariant.mem_iff _).mp lowerMember
  obtain ⟨upper, -⟩ := (invariant.mem_iff _).mp upperMember
  refine ⟨⟨Cube.combine_proper lower.proper upper.proper combined, ?_⟩, ?_⟩
  · rw [Cube.extent_combine combined]
    exact Finset.union_subset lower.inside upper.inside
  · rw [Cube.weight_combine combined, lowerSize]

theorem merge_of_union {cube : Cube} {place : Nat} (invariant : IsLevel rows size level)
    (implicant : cube.Implicant rows) (next : Cube.weight cube.mask = size + 1)
    (free : cube.mask.getLsbD place = true) :
    ⟨cube.half place, (cube.half place).neighbour place, cube⟩ ∈ mergesOf level := by
  have proper := implicant.proper
  have low := Cube.free_place_lt proper free
  have combined := Cube.combine_half cube free proper.normal
  obtain ⟨lower, upper⟩ := implicant.halves free
  have halfSize : Cube.weight (cube.half place).mask = size := by
    have larger := Cube.weight_combine combined
    omega
  have lowerMember : cube.half place ∈ level := (invariant.mem_iff _).mpr ⟨lower, halfSize⟩
  have upperMember : (cube.half place).neighbour place ∈ level :=
    (invariant.mem_iff _).mpr ⟨upper, halfSize⟩
  have clear : cube.value.getLsbD place = false := Cube.normal_clear proper.normal free
  exact merge_of_neighbours invariant lowerMember upperMember (by omega) clear combined

theorem next_is_level (invariant : IsLevel rows size level) :
    IsLevel rows (size + 1) (ofLevel level).next where
  nodup := nodup_erase_dups _
  mem_iff cube := by
    rw [next, List.mem_eraseDups, List.mem_map]
    constructor
    · intro united
      rcases united with ⟨merge, member, rfl⟩
      exact union_of_merge invariant member
    · intro given
      rcases given with ⟨implicant, nextSize⟩
      obtain ⟨place, free⟩ := Cube.exists_place nextSize
      exact ⟨_, merge_of_union invariant implicant nextSize free, rfl⟩

/-- A cube of the level takes part in a merge exactly if some implicant covers more. -/
theorem merged_iff {cube : Cube} (invariant : IsLevel rows size level) (member : cube ∈ level) :
    (ofLevel level).merged cube = true ↔
      ∃ other : Cube, other.Implicant rows ∧ cube.extent ⊂ other.extent := by
  obtain ⟨implicant, cubeSize⟩ := (invariant.mem_iff cube).mp member
  simp only [merged, ofLevel, List.any_eq_true, Bool.or_eq_true, decide_eq_true_eq]
  constructor
  · intro merged
    rcases merged with ⟨merge, inMerges, isHalf⟩
    obtain ⟨union, unionSize⟩ := union_of_merge invariant inMerges
    obtain ⟨-, -, -, -, combined⟩ := mem_merges_iff.mp inMerges
    have halves := Cube.extent_combine combined
    have contained : cube.extent ⊆ merge.union.extent := by
      rw [halves]
      rcases isHalf with rfl | rfl
      · exact Finset.subset_union_left
      · exact Finset.subset_union_right
    refine ⟨merge.union, union, contained.ssubset_of_ne fun same => ?_⟩
    have equal := Cube.extent_inj implicant.proper union.proper same
    rw [← equal] at unionSize
    omega
  · intro outgrown
    rcases outgrown with ⟨other, otherImplicant, larger⟩
    rcases Cube.exists_freed_place implicant.proper otherImplicant.proper larger with
      ⟨place, low, freed, fixed⟩
    have neighbourProper := Cube.neighbour_proper implicant.proper low fixed
    have neighbourInside := Cube.neighbour_within implicant.proper otherImplicant.proper low
      larger.subset freed fixed
    have neighbourMember : cube.neighbour place ∈ level :=
      (invariant.mem_iff _).mpr
        ⟨⟨neighbourProper, neighbourInside.trans otherImplicant.inside⟩, cubeSize⟩
    cases bit : cube.value.getLsbD place with
    | false =>
        obtain ⟨union, combined⟩ := Cube.combine_neighbour cube (by omega) fixed
        exact ⟨_, merge_of_neighbours invariant member neighbourMember (by omega) bit combined,
          Or.inl rfl⟩
    | true =>
        have clear : (cube.neighbour place).value.getLsbD place = false := by
          simp [Cube.neighbour, bit, Cube.get_lsb_single place place (by omega)]
        rcases Cube.combine_neighbour (cube.neighbour place) (by omega) fixed with
          ⟨union, combined⟩
        have back := cube.neighbour_neighbour place
        have backMember : (cube.neighbour place).neighbour place ∈ level := by
          rw [back]
          exact member
        exact ⟨_, merge_of_neighbours invariant neighbourMember backMember (by omega) clear combined,
          Or.inr back⟩

theorem mem_unmerged_iff {cube : Cube} (invariant : IsLevel rows size level) :
    cube ∈ (ofLevel level).unmerged ↔ cube.Prime rows ∧ Cube.weight cube.mask = size := by
  rw [unmerged, List.mem_filter, Bool.not_eq_true', ← Bool.not_eq_true]
  constructor
  · intro leftOver
    rcases leftOver with ⟨member, unmerged⟩
    rw [merged_iff invariant member] at unmerged
    obtain ⟨implicant, cubeSize⟩ := (invariant.mem_iff cube).mp member
    exact ⟨⟨implicant, fun other inside larger => unmerged ⟨other, inside, larger⟩⟩, cubeSize⟩
  · intro given
    rcases given with ⟨prime, cubeSize⟩
    have member : cube ∈ level := (invariant.mem_iff cube).mpr ⟨prime.implicant, cubeSize⟩
    constructor
    · exact member
    intro merged
    obtain ⟨other, inside, larger⟩ := (merged_iff invariant member).mp merged
    exact prime.maximal other inside larger

end Level

theorem run_stop (bound : Nat) {level : List Cube} (none : mergesOf level = []) :
    run (bound + 1) level = [ofLevel level] := by
  simp [run, ofLevel, none]

theorem run_next (bound : Nat) {level : List Cube} (some : mergesOf level ≠ []) :
    run (bound + 1) level = ofLevel level :: run bound (ofLevel level).next := by
  simp [run, ofLevel, some]

theorem unmerged_run_nil (bound : Nat) : (run bound []).flatMap unmerged = [] := by
  cases bound <;> rfl

/-- Whether the rounds stop at the first one without merges does not show: nothing is left. -/
theorem unmerged_run_succ (bound : Nat) (level : List Cube) :
    (run (bound + 1) level).flatMap unmerged =
      (ofLevel level).unmerged ++ (run bound (ofLevel level).next).flatMap unmerged := by
  by_cases none : mergesOf level = []
  · have nothing : (ofLevel level).next = [] := by
      rw [next, ofLevel, none]
      rfl
    rw [run_stop bound none, nothing, unmerged_run_nil]
    rfl
  · rw [run_next bound none, List.flatMap_cons]

/-- The rounds from a level on leave exactly the prime cubes of its size and more. Masks have three
bits, so there are at most four sizes. -/
theorem mem_run_iff {rows : Finset Row} {size : Nat} {level : List Cube} (bound : Nat)
    (enough : 4 ≤ bound + size) (invariant : IsLevel rows size level) (cube : Cube) :
    cube ∈ (run bound level).flatMap unmerged ↔
      cube.Prime rows ∧ size ≤ Cube.weight cube.mask := by
  induction bound generalizing size level with
  | zero =>
      constructor
      · intro member
        cases member
      · intro given
        rcases given with ⟨prime, large⟩
        have small := Cube.weight_le_three prime.implicant.proper.mask_lt
        omega
  | succ bound ih =>
      rw [unmerged_run_succ, List.mem_append, mem_unmerged_iff invariant,
        ih (by omega) (next_is_level invariant), ← and_or_left]
      refine and_congr_right fun _ => ?_
      omega

end Round

end BooleanCube
