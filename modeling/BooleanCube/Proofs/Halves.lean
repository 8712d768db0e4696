import BooleanCube.Proofs.CubeTerm
import BooleanCube.Proofs.MergeLevels
import Mathlib.Data.Nat.Bitwise

/-!
# Halves of cubes

A cube falls into two halves at each of its free variables. The merges of a level are exactly the
ways to put an implicant of the next size together from its halves, each of them found once, so an
implicant has as many merges as free variables.
-/

namespace BooleanCube

/-- The two cubes are the halves of their union at a variable that it leaves free: the lower one has
the rows in which the variable is false, the upper one those in which it is true. -/
structure Merge.HalvesAt (merge : Merge) (var : Variable) : Prop where
  free : merge.union.bit? var = none
  lower : ∀ row, row ∈ merge.lower.extent ↔ row ∈ merge.union.extent ∧ var.bit row = false
  upper : ∀ row, row ∈ merge.upper.extent ↔ row ∈ merge.union.extent ∧ var.bit row = true

/-- An implicant with a number of dimensions: every dimension doubles the rows. -/
structure Cube.OfSize (rows : Finset Row) (size : Nat) (cube : Cube) : Prop where
  implicant : cube.Implicant rows
  card_eq : cube.extent.card = 2 ^ size

/-- An implicant of this size together with its halves at one of its free variables. -/
structure Merge.Splits (rows : Finset Row) (size : Nat) (merge : Merge) : Prop where
  union : merge.union.OfSize rows size
  lower : merge.lower.Proper
  upper : merge.upper.Proper
  halves : ∃ var, merge.HalvesAt var

namespace Cube

theorem free_iff {cube : Cube} {var : Variable} :
    cube.bit? var = none ↔ cube.mask.getLsbD var.shift = true := by
  rw [bit?]
  cases cube.mask.getLsbD var.shift <;> simp

def halves (cube : Cube) (var : Variable) : Merge :=
  ⟨cube.half var.shift, (cube.half var.shift).neighbour var.shift, cube⟩

end Cube

theorem mem_part_iff {whole part rest : Finset Row} {holds : Row → Prop}
    (joined : whole = part ∪ rest) (inside : ∀ row ∈ part, holds row)
    (outside : ∀ row ∈ rest, ¬holds row) (row : Row) :
    row ∈ part ↔ row ∈ whole ∧ holds row := by
  rw [joined, Finset.mem_union]
  constructor
  · intro member
    exact ⟨.inl member, inside row member⟩
  · intro given
    exact given.1.resolve_right fun member => outside row member given.2

theorem Merge.HalvesAt.of_bits {merge : Merge} {var : Variable} (free : merge.union.bit? var = none)
    (whole : merge.union.extent = merge.lower.extent ∪ merge.upper.extent)
    (below : ∀ row ∈ merge.lower.extent, var.bit row = false)
    (above : ∀ row ∈ merge.upper.extent, var.bit row = true) : merge.HalvesAt var where
  free := free
  lower := by
    apply mem_part_iff whole below
    intro row member
    rw [above row member]
    decide
  upper := by
    apply mem_part_iff (whole.trans (Finset.union_comm _ _)) above
    intro row member
    rw [below row member]
    decide

namespace Cube

section Halves

variable {cube : Cube} {var : Variable} (proper : cube.Proper) (free : cube.bit? var = none)

include proper free

theorem halves_at : (cube.halves var).HalvesAt var := by
  have place := free_iff.mp free
  have bit := get_lsb_single var.shift var.shift (BitVec.lt_of_getLsbD place)
  have clear := normal_clear proper.normal place
  apply Merge.HalvesAt.of_bits free
  · exact extent_combine (combine_half cube place proper.normal)
  · intro row inLower
    have here := covers_iff.mp (mem_extent.mp inLower) var.shift
    simpa [halves, half, place, clear, bit, Row.byte_bit] using here
  · intro row inUpper
    have here := covers_iff.mp (mem_extent.mp inUpper) var.shift
    simpa [halves, half, neighbour, place, clear, bit, Row.byte_bit] using here

theorem halves_ascend :
    (cube.halves var).lower.value.toNat < (cube.halves var).upper.value.toNat := by
  have place := free_iff.mp free
  have bit (other : Nat) := get_lsb_single var.shift other (BitVec.lt_of_getLsbD place)
  have clear : cube.value.getLsbD var.shift = false := normal_clear proper.normal place
  apply Nat.lt_of_testBit var.shift
  · exact clear
  · rw [BitVec.testBit_toNat]
    simp [halves, half, neighbour, bit, clear]
  · intro other above
    have different : var.shift ≠ other := Nat.ne_of_lt above
    rw [BitVec.testBit_toNat, BitVec.testBit_toNat]
    simp [halves, half, neighbour, bit, different]

theorem weight_halves : weight cube.mask = weight (cube.halves var).lower.mask + 1 :=
  weight_combine (combine_half cube (free_iff.mp free) proper.normal)

end Halves

theorem exists_free {cube : Cube} {size : Nat} (proper : cube.Proper)
    (some : weight cube.mask = size + 1) : ∃ var, cube.bit? var = none := by
  obtain ⟨place, freed⟩ := exists_place some
  obtain ⟨var, rfl⟩ := Variable.exists_shift (free_place_lt proper freed)
  exact ⟨var, free_iff.mpr freed⟩

theorem card_extent {cube : Cube} (proper : cube.Proper) :
    cube.extent.card = 2 ^ weight cube.mask := by
  induction isSize : weight cube.mask generalizing cube with
  | zero =>
      obtain ⟨row, isValue⟩ := Row.exists_byte proper.value_lt
      have single : cube = ofRow row := by
        rw [ofRow, isValue, ← eq_zero_of_weight isSize]
      have extent : cube.extent = {row} := by
        ext other
        rw [single, mem_extent_of_row, Finset.mem_singleton]
      rw [extent, Finset.card_singleton, Nat.pow_zero]
  | succ size ih =>
      obtain ⟨var, free⟩ := exists_free proper isSize
      have place := free_iff.mp free
      have isHalf := halves_at proper free
      have halfSize : weight (cube.half var.shift).mask = size := by
        have larger := weight_halves proper free
        simp only [halves] at larger
        omega
      have apart : Disjoint (cube.half var.shift).extent
          ((cube.half var.shift).neighbour var.shift).extent := by
        rw [Finset.disjoint_left]
        intro row inLower inUpper
        have isClear := ((isHalf.lower row).mp inLower).2
        rw [((isHalf.upper row).mp inUpper).2] at isClear
        cases isClear
      rw [extent_combine (combine_half cube place proper.normal), Finset.card_union_of_disjoint apart,
        ih (half_proper proper place) halfSize, ih (upper_half_proper proper place) halfSize,
        Nat.pow_succ, Nat.mul_two]

theorem of_size_iff {rows : Finset Row} {size : Nat} {cube : Cube} :
    cube.OfSize rows size ↔ cube.Implicant rows ∧ weight cube.mask = size := by
  constructor
  · intro ofSize
    refine ⟨ofSize.implicant, Nat.pow_right_injective (Nat.le_refl 2) ?_⟩
    exact (card_extent ofSize.implicant.proper).symm.trans ofSize.card_eq
  · intro given
    exact ⟨given.1, given.2 ▸ card_extent given.1.proper⟩

theorem OfSize.weight_eq {rows : Finset Row} {size : Nat} {cube : Cube}
    (ofSize : cube.OfSize rows size) : weight cube.mask = size := (of_size_iff.mp ofSize).2

theorem eq_halves {merge : Merge} {var : Variable} (proper : merge.union.Proper)
    (lower : merge.lower.Proper) (upper : merge.upper.Proper) (isHalf : merge.HalvesAt var) :
    merge = merge.union.halves var := by
  have same := halves_at proper isHalf.free
  have place := free_iff.mp isHalf.free
  have sameLower : merge.lower = (merge.union.halves var).lower := by
    apply extent_inj lower (half_proper proper place)
    ext row
    exact (isHalf.lower row).trans (same.lower row).symm
  have sameUpper : merge.upper = (merge.union.halves var).upper := by
    apply extent_inj upper (upper_half_proper proper place)
    ext row
    exact (isHalf.upper row).trans (same.upper row).symm
  calc
    merge = ⟨merge.lower, merge.upper, merge.union⟩ := rfl
    _ = merge.union.halves var := by
      rw [sameLower, sameUpper]
      rfl

end Cube

theorem Merge.Splits.exists_halves {merge : Merge} {rows : Finset Row} {size : Nat}
    (splits : merge.Splits rows size) :
    ∃ var, merge.union.bit? var = none ∧ merge = merge.union.halves var := by
  obtain ⟨var, isHalf⟩ := splits.halves
  exact ⟨var, isHalf.free,
    Cube.eq_halves splits.union.implicant.proper splits.lower splits.upper isHalf⟩

namespace Cube

/-- A pattern that gains a one by the change of a bit had none there: clearing it would take one. -/
theorem clear_of_more {cube other : Cube} {place : Nat} (bound : place < 8)
    (flipped : other.value = cube.value ^^^ BitVec.twoPow 8 place)
    (more : other.ones = cube.ones + 1) : cube.value.getLsbD place = false := by
  by_contra notClear
  have fewer := weight_unflip bound (Bool.eq_true_of_not_eq_false notClear)
  rw [← flipped] at fewer
  simp only [ones] at more
  omega

theorem halves_of_combine {cube other union : Cube} (proper : cube.Proper)
    (otherProper : other.Proper) (combined : cube.combine other = some union)
    (more : other.ones = cube.ones + 1) :
    ∃ var, Merge.HalvesAt ⟨cube, other, union⟩ var := by
  have unionProper := combine_proper proper otherProper combined
  have whole := extent_combine combined
  obtain ⟨place, bound, sameMask, fixed, flipped, isUnion⟩ := combine_eq_some_iff.mp combined
  have bit := get_lsb_single place place bound
  have freed : union.mask.getLsbD place = true := by simp [isUnion, bit]
  obtain ⟨var, rfl⟩ := Variable.exists_shift (free_place_lt unionProper freed)
  have clear := clear_of_more bound flipped more
  have set : other.value.getLsbD var.shift = true := by simp [flipped, clear, bit]
  refine ⟨var, .of_bits (free_iff.mpr freed) whole ?_ ?_⟩
  · intro row inCube
    rw [← Row.byte_bit, (covers_proper_iff proper).mp (mem_extent.mp inCube) _ fixed, clear]
  · intro row inOther
    rw [sameMask] at fixed
    rw [← Row.byte_bit, (covers_proper_iff otherProper).mp (mem_extent.mp inOther) _ fixed, set]

theorem weight_eq_free {cube : Cube} (proper : cube.Proper) :
    weight cube.mask = (Variable.all.filter fun var => cube.bit? var = none).length := by
  have masks : ∀ row : Row,
      weight row.byte = (Variable.all.filter fun var => row.byte.getLsbD var.shift).length := by
    decide
  obtain ⟨row, isMask⟩ := Row.exists_byte proper.mask_lt
  rw [← isMask, masks, isMask]
  congr 2
  funext var
  rw [Bool.eq_iff_iff, decide_eq_true_iff, free_iff]

end Cube

theorem nodup_of_sources {Source Item : Type} {items : Source → List Item} (source : Item → Source)
    {sources : List Source} (nodup : sources.Nodup) (each : ∀ origin ∈ sources, (items origin).Nodup)
    (told : ∀ origin ∈ sources, ∀ item ∈ items origin, source item = origin) :
    (sources.flatMap items).Nodup := by
  rw [List.nodup_flatMap]
  refine ⟨each, nodup.imp_of_mem ?_⟩
  intro left right leftMember rightMember different item inLeft inRight
  exact different ((told left leftMember item inLeft).symm.trans (told right rightMember item inRight))

namespace Round

variable {rows : Finset Row} {size : Nat} {level : List Cube}

theorem merges_nodup (nodup : level.Nodup) : (mergesOf level).Nodup := by
  apply nodup_of_sources (fun merge => merge.lower.ones) List.nodup_range
  · intro ones _
    apply nodup_of_sources Merge.lower (nodup.filter _)
    · intro lower _
      apply List.Nodup.filterMap _ (nodup.filter _)
      intro upper other merge fromUpper fromOther
      obtain ⟨_, _, rfl⟩ := Option.map_eq_some_iff.mp fromUpper
      obtain ⟨_, _, same⟩ := Option.map_eq_some_iff.mp fromOther
      exact (congrArg Merge.upper same).symm
    · intro lower _ merge member
      obtain ⟨_, _, merged⟩ := List.mem_filterMap.mp member
      obtain ⟨_, _, rfl⟩ := Option.map_eq_some_iff.mp merged
      rfl
  · intro ones _ merge member
    obtain ⟨lower, inGroup, inMerges⟩ := List.mem_flatMap.mp member
    obtain ⟨_, _, merged⟩ := List.mem_filterMap.mp inMerges
    obtain ⟨_, _, rfl⟩ := Option.map_eq_some_iff.mp merged
    exact of_decide_eq_true (List.mem_filter.mp inGroup).2

theorem mem_merges_iff_splits (invariant : IsLevel rows size level) {merge : Merge} :
    merge ∈ mergesOf level ↔ merge.Splits rows (size + 1) := by
  constructor
  · intro member
    obtain ⟨inLevel, alsoInLevel, -, more, combined⟩ := mem_merges_iff.mp member
    have lower := ((invariant.mem_iff _).mp inLevel).1.proper
    have upper := ((invariant.mem_iff _).mp alsoInLevel).1.proper
    exact ⟨Cube.of_size_iff.mpr (union_of_merge invariant member), lower, upper,
      Cube.halves_of_combine lower upper combined more⟩
  · intro splits
    obtain ⟨implicant, next⟩ := Cube.of_size_iff.mp splits.union
    obtain ⟨var, free, isHalves⟩ := splits.exists_halves
    rw [isHalves]
    exact merge_of_union invariant implicant next (Cube.free_iff.mp free)

end Round

section Count

variable {rows : Finset Row} {size : Nat} {cube : Cube}

theorem Cube.splits_iff (ofSize : cube.OfSize rows size) {merge : Merge} :
    merge.Splits rows size ∧ merge.union = cube ↔
      ∃ var, cube.bit? var = none ∧ cube.halves var = merge := by
  have proper := ofSize.implicant.proper
  constructor
  · rintro ⟨splits, rfl⟩
    obtain ⟨var, free, isHalves⟩ := splits.exists_halves
    exact ⟨var, free, isHalves.symm⟩
  · rintro ⟨var, free, rfl⟩
    have place := free_iff.mp free
    exact ⟨⟨ofSize, half_proper proper place, upper_half_proper proper place, var,
      halves_at proper free⟩, rfl⟩

theorem Cube.exists_split (ofSize : cube.OfSize rows (size + 1)) :
    ∃ merge : Merge, merge.Splits rows (size + 1) := by
  have proper := ofSize.implicant.proper
  obtain ⟨var, free⟩ := exists_free proper ofSize.weight_eq
  exact ⟨cube.halves var, (splits_iff ofSize).mpr ⟨var, free, rfl⟩ |>.1⟩

theorem Round.merges_nonempty_iff {level : List Cube} (invariant : IsLevel rows size level) :
    mergesOf level ≠ [] ↔ ∃ cube : Cube, cube.OfSize rows (size + 1) := by
  constructor
  · intro some
    obtain ⟨merge, member⟩ := List.exists_mem_of_ne_nil _ some
    exact ⟨merge.union, Cube.of_size_iff.mpr (union_of_merge invariant member)⟩
  · rintro ⟨cube, ofSize⟩
    obtain ⟨merge, splits⟩ := Cube.exists_split ofSize
    exact List.ne_nil_of_mem ((mem_merges_iff_splits invariant).mpr splits)

theorem Cube.exists_smaller (ofSize : cube.OfSize rows size) {smaller : Nat}
    (bound : smaller ≤ size) : ∃ other : Cube, other.OfSize rows smaller := by
  induction size generalizing cube with
  | zero => exact ⟨cube, Nat.le_zero.mp bound ▸ ofSize⟩
  | succ size ih =>
      rcases Nat.lt_or_eq_of_le bound with less | rfl
      · have proper := ofSize.implicant.proper
        obtain ⟨var, free⟩ := exists_free proper ofSize.weight_eq
        have larger := weight_halves proper free
        have halfSize : weight (cube.halves var).lower.mask = size := by
          have whole := ofSize.weight_eq
          omega
        have lower : (cube.halves var).lower.OfSize rows size :=
          of_size_iff.mpr ⟨(ofSize.implicant.halves (free_iff.mp free)).1, halfSize⟩
        exact ih lower (Nat.le_of_lt_succ less)
      · exact ⟨cube, ofSize⟩

theorem Cube.halves_inj {var other : Variable}
    (same : (cube.halves var).upper.value = (cube.halves other).upper.value) : var = other := by
  have single : BitVec.twoPow 8 var.shift = BitVec.twoPow 8 other.shift :=
    (BitVec.xor_right_inj _).mp same
  have bit (place : Variable) := get_lsb_single place.shift var.shift (by have := place.shift_lt; omega)
  have bits := congrArg (fun byte => byte.getLsbD var.shift) single
  simp only [bit] at bits
  exact (Variable.shift_inj (by simpa using bits)).symm

/-- An implicant is split in as many ways as it has free bits. -/
theorem Cube.count_splits (ofSize : cube.OfSize rows size) {merges : List Merge}
    (nodup : merges.Nodup) (listed : ∀ merge, merge ∈ merges ↔ merge.Splits rows size) :
    merges.countP (fun merge => merge.union = cube) = size := by
  have found : (merges.filter fun merge => merge.union = cube).Perm
      ((Variable.all.filter fun var => cube.bit? var = none).map cube.halves) := by
    rw [List.perm_ext_iff_of_nodup (nodup.filter _)]
    · intro merge
      rw [List.mem_filter, listed, decide_eq_true_iff, splits_iff ofSize, List.mem_map]
      simp only [List.mem_filter, Variable.mem_all, true_and, decide_eq_true_iff]
    · apply List.Nodup.map_on
      · intro var _ other _ same
        exact halves_inj (congrArg (fun merge => merge.upper.value) same)
      · exact List.Nodup.filter _ (by decide)
  rw [List.countP_eq_length_filter, found.length_eq, List.length_map,
    ← weight_eq_free ofSize.implicant.proper, ofSize.weight_eq]

end Count

end BooleanCube
