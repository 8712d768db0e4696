import BooleanCube.Proofs.CubeGeometry
import BooleanCube.Proofs.Rows
import Mathlib.Data.Fintype.Basic
import Mathlib.Data.Finset.Filter

/-!
# Implicants and prime cubes

A proper cube speaks of the three variables only and keeps its pattern clear under its mask. Such a
cube is known by the rows that it covers. It is an implicant of a set of rows if it covers no other
rows, and prime if no implicant covers more.
-/

namespace BooleanCube

theorem Row.byte_to_nat (row : Row) : row.byte.toNat = row.val := by
  rw [Row.byte, BitVec.toNat_ofNat]
  exact Nat.mod_eq_of_lt (by omega)

theorem Row.byte_inj {left right : Row} (same : left.byte = right.byte) : left = right := by
  have values := congrArg BitVec.toNat same
  rw [Row.byte_to_nat, Row.byte_to_nat] at values
  exact Fin.ext values

theorem Row.exists_byte {byte : BitVec 8} (bound : byte.toNat < 8) : ∃ row : Row, row.byte = byte :=
  ⟨⟨byte.toNat, bound⟩, BitVec.eq_of_toNat_eq (Row.byte_to_nat _)⟩

namespace Cube

structure Proper (cube : Cube) : Prop where
  value_lt : cube.value.toNat < 8
  mask_lt : cube.mask.toNat < 8
  normal : cube.value &&& cube.mask = 0

def extent (cube : Cube) : Finset Row := Finset.univ.filter fun row => cube.covers row.byte

structure Implicant (rows : Finset Row) (cube : Cube) : Prop where
  proper : cube.Proper
  inside : cube.extent ⊆ rows

/-- An implicant that is not strictly contained in another one. -/
structure Prime (rows : Finset Row) (cube : Cube) : Prop where
  implicant : cube.Implicant rows
  maximal : ∀ other : Cube, other.Implicant rows → ¬ cube.extent ⊂ other.extent

theorem mem_extent {cube : Cube} {row : Row} :
    row ∈ cube.extent ↔ cube.covers row.byte = true := by
  rw [extent, Finset.mem_filter]
  exact and_iff_right (Finset.mem_univ row)

theorem mem_extent_of_row {row other : Row} : other ∈ (ofRow row).extent ↔ other = row := by
  have whole : other.byte &&& ~~~(0 : BitVec 8) = other.byte := by
    change other.byte &&& BitVec.allOnes 8 = other.byte
    exact BitVec.and_allOnes
  rw [mem_extent, covers, ofRow, whole, decide_eq_true_iff]
  exact ⟨Row.byte_inj, congrArg Row.byte⟩

theorem of_row_proper (row : Row) : (ofRow row).Proper where
  value_lt := by
    rw [ofRow, Row.byte_to_nat]
    exact row.isLt
  mask_lt := Nat.zero_lt_succ 7
  normal := BitVec.and_zero

section Bits

variable {cube other : Cube} {place : Nat}

theorem proper_of_bits
    (low : ∀ place, 3 ≤ place → cube.value.getLsbD place = false ∧ cube.mask.getLsbD place = false)
    (clear : ∀ place, cube.mask.getLsbD place = true → cube.value.getLsbD place = false) :
    cube.Proper where
  value_lt := lt_eight_iff.mpr fun place high => (low place high).1
  mask_lt := lt_eight_iff.mpr fun place high => (low place high).2
  normal := by
    apply byte_ext
    intro place
    rw [BitVec.getLsbD_and]
    cases free : cube.mask.getLsbD place with
    | true => simp [clear place free]
    | false => simp

theorem free_place_lt (proper : cube.Proper) (free : cube.mask.getLsbD place = true) :
    place < 3 := by
  by_contra high
  rw [lt_eight_iff.mp proper.mask_lt place (by omega)] at free
  cases free

theorem covers_proper_iff (proper : cube.Proper) {index : BitVec 8} :
    cube.covers index = true ↔
      ∀ place, cube.mask.getLsbD place = false →
        index.getLsbD place = cube.value.getLsbD place :=
  covers_normal_iff proper.normal

theorem covers_lt (proper : cube.Proper) {index : BitVec 8} (inside : cube.covers index = true) :
    index.toNat < 8 := by
  rw [lt_eight_iff]
  intro place high
  have fixed := lt_eight_iff.mp proper.mask_lt place high
  rw [(covers_proper_iff proper).mp inside place fixed]
  exact lt_eight_iff.mp proper.value_lt place high

theorem extent_nonempty (proper : cube.Proper) : cube.extent.Nonempty := by
  obtain ⟨row, pattern⟩ := Row.exists_byte proper.value_lt
  exact ⟨row, mem_extent.mpr ((covers_proper_iff proper).mpr fun _ _ => by rw [pattern])⟩

/-- A proper cube covers rows only, so its rows tell all about containment. -/
theorem extent_subset_iff (proper : cube.Proper) (otherProper : other.Proper) :
    cube.extent ⊆ other.extent ↔
      ∀ place, other.mask.getLsbD place = false →
        cube.mask.getLsbD place = false ∧
          cube.value.getLsbD place = other.value.getLsbD place := by
  rw [← within_iff proper.normal otherProper.normal]
  constructor
  · intro contained index inside
    obtain ⟨row, rfl⟩ := Row.exists_byte (covers_lt proper inside)
    exact mem_extent.mp (contained (mem_extent.mpr inside))
  · intro within row member
    exact mem_extent.mpr (within row.byte (mem_extent.mp member))

theorem extent_inj (proper : cube.Proper) (otherProper : other.Proper)
    (same : cube.extent = other.extent) : cube = other := by
  have agree := (extent_subset_iff proper otherProper).mp same.subset
  have agreeBack := (extent_subset_iff otherProper proper).mp same.symm.subset
  have sameMask : cube.mask = other.mask := by
    apply byte_ext
    intro place
    cases otherFree : other.mask.getLsbD place with
    | false => exact (agree place otherFree).1
    | true =>
        by_contra fixed
        have back := agreeBack place (by simpa using fixed)
        rw [otherFree] at back
        cases back.1
  have sameValue : cube.value = other.value := by
    apply byte_ext
    intro place
    cases otherFree : other.mask.getLsbD place with
    | false => exact (agree place otherFree).2
    | true =>
        rw [normal_clear otherProper.normal otherFree,
          normal_clear proper.normal (sameMask ▸ otherFree)]
  cases cube
  cases other
  exact congrArg₂ mk sameValue sameMask

theorem exists_freed_place (proper : cube.Proper) (otherProper : other.Proper)
    (larger : cube.extent ⊂ other.extent) :
    ∃ place < 3, other.mask.getLsbD place = true ∧ cube.mask.getLsbD place = false := by
  have agree := (extent_subset_iff proper otherProper).mp larger.subset
  by_contra none
  apply larger.ne
  apply Finset.Subset.antisymm larger.subset
  rw [extent_subset_iff otherProper proper]
  intro place fixed
  have otherFixed : other.mask.getLsbD place = false := by
    cases free : other.mask.getLsbD place with
    | false => rfl
    | true =>
        exact (none ⟨place, free_place_lt otherProper free, free, fixed⟩).elim
  exact ⟨otherFixed, (agree place otherFixed).2.symm⟩

theorem neighbour_proper (proper : cube.Proper) (low : place < 3)
    (fixed : cube.mask.getLsbD place = false) : (cube.neighbour place).Proper := by
  have bit (other : Nat) := get_lsb_single place other (by omega)
  refine proper_of_bits (fun other high => ⟨?_, ?_⟩) (fun other free => ?_)
  · have different : place ≠ other := by omega
    simp [neighbour, bit, different, lt_eight_iff.mp proper.value_lt other high]
  · exact lt_eight_iff.mp proper.mask_lt other high
  · have different : place ≠ other := by
      intro same
      subst same
      exact Bool.false_ne_true (fixed.symm.trans free)
    simpa [neighbour, bit, different] using normal_clear proper.normal free

theorem neighbour_within (proper : cube.Proper) (otherProper : other.Proper) (low : place < 3)
    (contained : cube.extent ⊆ other.extent) (freed : other.mask.getLsbD place = true)
    (fixed : cube.mask.getLsbD place = false) :
    (cube.neighbour place).extent ⊆ other.extent := by
  rw [extent_subset_iff (neighbour_proper proper low fixed) otherProper]
  intro current otherFixed
  have agree := (extent_subset_iff proper otherProper).mp contained
  obtain ⟨currentFixed, same⟩ := agree current otherFixed
  have different : place ≠ current := by
    intro same
    subst same
    exact Bool.false_ne_true (otherFixed.symm.trans freed)
  refine ⟨currentFixed, ?_⟩
  simp [neighbour, get_lsb_single place current (by omega), different, same]

theorem half_proper (proper : cube.Proper) (free : cube.mask.getLsbD place = true) :
    (cube.half place).Proper := by
  have bit (other : Nat) := get_lsb_single place other (BitVec.lt_of_getLsbD free)
  refine proper_of_bits (fun other high => ⟨?_, ?_⟩) (fun other stillFree => ?_)
  · exact lt_eight_iff.mp proper.value_lt other high
  · have clear := lt_eight_iff.mp proper.mask_lt other high
    have different : place ≠ other := by
      intro same
      subst same
      exact Bool.false_ne_true (clear.symm.trans free)
    simp [half, bit, different, clear]
  · apply normal_clear proper.normal
    by_cases same : place = other
    · exact same ▸ free
    · simpa [half, bit, same] using stillFree

theorem extent_combine {union : Cube} (combined : cube.combine other = some union) :
    union.extent = cube.extent ∪ other.extent := by
  ext row
  rw [Finset.mem_union, mem_extent, mem_extent, mem_extent, covers_combine combined]

theorem weight_combine {union : Cube} (combined : cube.combine other = some union) :
    weight union.mask = weight cube.mask + 1 := by
  obtain ⟨place, bound, -, clear, -, rfl⟩ := combine_eq_some_iff.mp combined
  have bit (current : Nat) := get_lsb_single place current bound
  have joined : cube.mask ||| BitVec.twoPow 8 place = cube.mask ^^^ BitVec.twoPow 8 place := by
    apply byte_ext_at place
    · simp [clear]
    · intro current different
      simp [bit, different]
  rw [joined]
  exact weight_flip bound clear

theorem combine_proper {union : Cube} (proper : cube.Proper) (otherProper : other.Proper)
    (combined : cube.combine other = some union) : union.Proper := by
  obtain ⟨place, bound, sameMask, clear, flipped, rfl⟩ := combine_eq_some_iff.mp combined
  have bit (current : Nat) := get_lsb_single place current bound
  have low : place < 3 := by
    by_contra high
    have valueClear := lt_eight_iff.mp proper.value_lt place (by omega)
    have otherClear := lt_eight_iff.mp otherProper.value_lt place (by omega)
    rw [flipped, BitVec.getLsbD_xor, bit, valueClear] at otherClear
    simp at otherClear
  refine proper_of_bits (fun current high => ⟨?_, ?_⟩) (fun current free => ?_)
  · simp [lt_eight_iff.mp proper.value_lt current high]
  · have different : place ≠ current := by omega
    simp [bit, different, lt_eight_iff.mp proper.mask_lt current high]
  · exact normal_clear (normal_combine proper.normal combined) free

theorem upper_half_proper (proper : cube.Proper) (free : cube.mask.getLsbD place = true) :
    ((cube.half place).neighbour place).Proper := by
  apply neighbour_proper (half_proper proper free) (free_place_lt proper free)
  simp [half, free, get_lsb_single place place (BitVec.lt_of_getLsbD free)]

theorem Implicant.halves {rows : Finset Row} (implicant : cube.Implicant rows)
    (free : cube.mask.getLsbD place = true) :
    (cube.half place).Implicant rows ∧ ((cube.half place).neighbour place).Implicant rows := by
  have proper := implicant.proper
  have inside := implicant.inside
  rw [extent_combine (combine_half cube free proper.normal)] at inside
  exact ⟨⟨half_proper proper free, Finset.union_subset_left inside⟩,
    ⟨upper_half_proper proper free, Finset.union_subset_right inside⟩⟩

end Bits

theorem exists_prime {rows : Finset Row} {cube : Cube} (implicant : cube.Implicant rows) :
    ∃ prime : Cube, prime.Prime rows ∧ cube.extent ⊆ prime.extent := by
  induction room : rows.card - cube.extent.card using Nat.strong_induction_on generalizing cube with
  | _ size ih =>
      by_cases larger : ∃ other : Cube, other.Implicant rows ∧ cube.extent ⊂ other.extent
      · rcases larger with ⟨other, otherImplicant, larger⟩
        have more := Finset.card_lt_card larger
        have fits := Finset.card_le_card otherImplicant.inside
        have less : rows.card - other.extent.card < size := by omega
        obtain ⟨prime, isPrime, contained⟩ := ih _ less otherImplicant rfl
        exact ⟨prime, isPrime, larger.subset.trans contained⟩
      · exact ⟨cube, ⟨implicant, fun other inside more => larger ⟨other, inside, more⟩⟩,
          Finset.Subset.refl _⟩

theorem exists_prime_of_mem {rows : Finset Row} {row : Row} (member : row ∈ rows) :
    ∃ prime : Cube, prime.Prime rows ∧ row ∈ prime.extent := by
  have implicant : (ofRow row).Implicant rows := by
    refine ⟨of_row_proper row, fun other covered => ?_⟩
    exact mem_extent_of_row.mp covered ▸ member
  obtain ⟨prime, isPrime, contained⟩ := exists_prime implicant
  exact ⟨prime, isPrime, contained (mem_extent_of_row.mpr rfl)⟩

end Cube

end BooleanCube
