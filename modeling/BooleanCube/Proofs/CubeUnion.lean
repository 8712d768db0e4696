import BooleanCube.Proofs.Implicant

/-!
# Unions of cubes

Combining works on whole bytes, for any bits, and asks only for the patterns and masks. It is exact
all the same: what it gives is a union, and of two cubes that are disjoint and together make up a
cube it refuses none.
-/

namespace BooleanCube.Cube

def IsUnion (cube other union : Cube) : Prop :=
  ∀ index, union.covers index = true ↔ cube.covers index = true ∨ other.covers index = true

def Apart (cube other : Cube) : Prop :=
  ∀ index, ¬(cube.covers index = true ∧ other.covers index = true)

theorem IsUnion.contains {cube other union : Cube} (joined : cube.IsUnion other union)
    (index : BitVec 8) (inside : cube.covers index = true) : union.covers index = true :=
  (joined index).mpr (.inl inside)

theorem IsUnion.swap {cube other union : Cube} (joined : cube.IsUnion other union) :
    other.IsUnion cube union :=
  fun index => (joined index).trans or_comm

theorem combine_comm (cube other : Cube) : cube.combine other = other.combine cube := by
  by_cases same : cube.mask = other.mask
  · rw [combine, combine, same, BitVec.xor_comm cube.value, BitVec.and_comm cube.value]
  · have refused : cube.combine other = none := if_neg fun merges => same merges.1
    have alsoRefused : other.combine cube = none := if_neg fun merges => same merges.1.symm
    rw [refused, alsoRefused]

theorem apart_of_combine {cube other union : Cube} (combined : cube.combine other = some union) :
    cube.Apart other := by
  obtain ⟨place, bound, sameMask, fixed, flipped, -⟩ := combine_eq_some_iff.mp combined
  intro index covered
  have here := covers_iff.mp covered.1 place
  have there := covers_iff.mp covered.2 place
  rw [← sameMask, here, flipped, BitVec.getLsbD_xor, get_lsb_single place place bound] at there
  simp at there

section Normal

variable {cube other union : Cube} (normal : cube.Normal) (otherNormal : other.Normal)
  (unionNormal : union.Normal)

include normal otherNormal

theorem covers_patterns
    (agree : ∀ place, cube.mask.getLsbD place = false → other.mask.getLsbD place = false →
      cube.value.getLsbD place = other.value.getLsbD place) :
    cube.covers (cube.value ||| other.value) = true := by
  rw [covers_normal_iff normal]
  intro place fixed
  cases otherFree : other.mask.getLsbD place with
  | true => simp [normal_clear otherNormal otherFree]
  | false => simp [agree place fixed otherFree]

theorem exists_conflict (apart : cube.Apart other) :
    ∃ place, cube.mask.getLsbD place = false ∧ other.mask.getLsbD place = false ∧
      cube.value.getLsbD place ≠ other.value.getLsbD place := by
  by_contra none
  have agree (place : Nat) (fixed : cube.mask.getLsbD place = false)
      (otherFixed : other.mask.getLsbD place = false) :
      cube.value.getLsbD place = other.value.getLsbD place :=
    not_not.mp fun differ => none ⟨place, fixed, otherFixed, differ⟩
  have inCube := covers_patterns normal otherNormal agree
  have inOther := covers_patterns otherNormal normal fun place otherFixed fixed =>
    (agree place fixed otherFixed).symm
  rw [BitVec.or_comm] at inOther
  exact apart _ ⟨inCube, inOther⟩

include unionNormal

/-- A cube differs from its union with a conflicting one at the place of the conflict only: changed
at any other place that the union frees, its pattern stays in the union, yet outside the other
cube. -/
theorem agree_elsewhere (joined : cube.IsUnion other union) {place current : Nat}
    (otherFixed : other.mask.getLsbD place = false)
    (differ : cube.value.getLsbD place ≠ other.value.getLsbD place) (elsewhere : place ≠ current) :
    cube.mask.getLsbD current = union.mask.getLsbD current ∧
      cube.value.getLsbD current = union.value.getLsbD current := by
  have agree := (within_iff normal unionNormal).mp joined.contains
  cases unionFree : union.mask.getLsbD current with
  | false => exact agree current unionFree
  | true =>
      have bit (other : Nat) := get_lsb_single current other (BitVec.lt_of_getLsbD unionFree)
      -- The pattern with this bit changed lies in the union, so in one of the two cubes.
      have inUnion : union.covers (cube.neighbour current).value = true := by
        rw [covers_normal_iff unionNormal]
        intro fixed unionFixed
        have different : current ≠ fixed := by
          intro same
          subst same
          exact Bool.false_ne_true (unionFixed.symm.trans unionFree)
        simp [neighbour, bit, different, (agree fixed unionFixed).2]
      have free : cube.mask.getLsbD current = true := by
        rcases (joined _).mp inUnion with inCube | inOther
        · by_contra notFree
          have same := (covers_normal_iff normal).mp inCube current (by simpa using notFree)
          simp [neighbour, bit] at same
        · have same := (covers_normal_iff otherNormal).mp inOther place otherFixed
          exact absurd (by simpa [neighbour, bit, elsewhere.symm] using same) differ
      exact ⟨free, (normal_clear normal free).trans (normal_clear unionNormal unionFree).symm⟩

theorem combine_of_union (apart : cube.Apart other) (joined : cube.IsUnion other union) :
    cube.combine other = some union := by
  obtain ⟨place, fixed, otherFixed, differ⟩ := exists_conflict normal otherNormal apart
  have agree (current : Nat) (elsewhere : place ≠ current) :=
    agree_elsewhere normal otherNormal unionNormal joined otherFixed differ elsewhere
  have otherAgree (current : Nat) (elsewhere : place ≠ current) :=
    agree_elsewhere otherNormal normal unionNormal joined.swap fixed differ.symm elsewhere
  have unionFree : union.mask.getLsbD place = true := by
    by_contra notFree
    have unionFixed : union.mask.getLsbD place = false := by simpa using notFree
    have here := (within_iff normal unionNormal).mp joined.contains place unionFixed
    have there := (within_iff otherNormal unionNormal).mp joined.swap.contains place unionFixed
    exact differ (here.2.trans there.2.symm)
  have bound := BitVec.lt_of_getLsbD unionFree
  have bit (current : Nat) := get_lsb_single place current bound
  have sameMask : cube.mask = other.mask := by
    apply byte_ext_at place
    · rw [fixed, otherFixed]
    · intro current elsewhere
      exact (agree current elsewhere).1.trans (otherAgree current elsewhere).1.symm
  have flipped : other.value = cube.value ^^^ BitVec.twoPow 8 place := by
    apply byte_ext_at place
    · simpa [bit] using Bool.eq_not_of_ne differ.symm
    · intro current elsewhere
      have same := (otherAgree current elsewhere).2.trans (agree current elsewhere).2.symm
      simpa [bit, elsewhere] using same
  have value : union.value = cube.value &&& other.value := by
    apply byte_ext_at place
    · simp [flipped, bit, normal_clear unionNormal unionFree]
    · intro current elsewhere
      simp [flipped, bit, elsewhere, (agree current elsewhere).2]
  have mask : union.mask = cube.mask ||| BitVec.twoPow 8 place := by
    apply byte_ext_at place
    · simp [bit, unionFree]
    · intro current elsewhere
      simp [bit, elsewhere, (agree current elsewhere).1]
  exact combine_eq_some_iff.mpr
    ⟨place, bound, sameMask, fixed, flipped, congrArg₂ mk value mask⟩

end Normal

/-- Combining is the union of cubes, for patterns and masks of any bits. The order does not matter,
and what comes out covers what either cube covers, leaves one more bit free and keeps a clear
pattern clear. Cubes with clear patterns are combined exactly if they are disjoint and their union
is such a cube. -/
theorem combine_is_union (cube other : Cube) :
    cube.combine other = other.combine cube ∧
      (∀ union, cube.combine other = some union →
        cube.IsUnion other union ∧ weight union.mask = weight cube.mask + 1 ∧
          (cube.Normal → union.Normal)) ∧
      (cube.Normal → other.Normal → ∀ union,
        cube.combine other = some union ∧ union.Normal ↔
          cube.Apart other ∧ union.Normal ∧ cube.IsUnion other union) := by
  refine ⟨combine_comm cube other, ?_, ?_⟩
  · intro union combined
    exact ⟨covers_combine combined, weight_combine combined,
      fun normal => normal_combine normal combined⟩
  · intro normal otherNormal union
    constructor
    · intro merged
      rcases merged with ⟨combined, unionNormal⟩
      exact ⟨apart_of_combine combined, unionNormal, covers_combine combined⟩
    · intro given
      rcases given with ⟨apart, unionNormal, joined⟩
      exact ⟨combine_of_union normal otherNormal unionNormal apart joined, unionNormal⟩

theorem combine_is_union_high :
    let cube : Cube := ⟨0b10010000, 0b00101001⟩
    let other : Cube := ⟨0b11010000, 0b00101001⟩
    let union : Cube := ⟨0b10010000, 0b01101001⟩
    cube.Normal ∧ other.Normal ∧ cube.combine other = some union ∧ weight union.mask = 4 ∧
      cube.Apart other ∧ cube.IsUnion other union := by
  intro cube other union
  have normal : cube.Normal := by decide
  have otherNormal : other.Normal := by decide
  have unionNormal : union.Normal := by decide
  have combined : cube.combine other = some union := by decide
  obtain ⟨-, sound, exact⟩ := combine_is_union cube other
  obtain ⟨joined, oneMore, -⟩ := sound union combined
  obtain ⟨apart, -, -⟩ := (exact normal otherNormal union).mp ⟨combined, unionNormal⟩
  exact ⟨normal, otherNormal, combined, oneMore.trans (by decide), apart, joined⟩

end BooleanCube.Cube
