import BooleanCube.Cube
import Mathlib.Data.Finset.Card
import Mathlib.Data.Finset.Range

/-!
# The geometry of cubes

Two cubes merge when their patterns differ at a single place, and their union is then exactly what
both cover. Everything here is read off bit by bit and holds for whole bytes.
-/

namespace BooleanCube.Cube

def places (byte : BitVec 8) : Finset Nat :=
  ((List.range 8).filter fun place => byte.getLsbD place).toFinset

theorem mem_places {byte : BitVec 8} {place : Nat} :
    place ∈ places byte ↔ byte.getLsbD place = true := by
  rw [places, List.mem_toFinset, List.mem_filter, List.mem_range]
  exact ⟨fun member => member.2, fun set => ⟨BitVec.lt_of_getLsbD set, set⟩⟩

theorem weight_eq_card (byte : BitVec 8) : weight byte = (places byte).card := by
  rw [places, List.toFinset_card_of_nodup (List.nodup_range.filter _), weight,
    List.countP_eq_length_filter]

theorem byte_ext {left right : BitVec 8}
    (same : ∀ place, left.getLsbD place = right.getLsbD place) : left = right :=
  BitVec.eq_of_getLsbD_eq fun place _ => same place

theorem byte_ext_at {left right : BitVec 8} (place : Nat)
    (here : left.getLsbD place = right.getLsbD place)
    (elsewhere : ∀ other, place ≠ other → left.getLsbD other = right.getLsbD other) :
    left = right := by
  apply byte_ext
  intro other
  by_cases same : place = other
  · exact same ▸ here
  · exact elsewhere other same

theorem get_lsb_single (place other : Nat) (bound : place < 8) :
    (BitVec.twoPow 8 place).getLsbD other = decide (place = other) := by
  simp [BitVec.getLsbD_twoPow, bound]

theorem weight_single_iff {byte : BitVec 8} :
    weight byte = 1 ↔ ∃ place < 8, byte = BitVec.twoPow 8 place := by
  rw [weight_eq_card, Finset.card_eq_one]
  constructor
  · intro single
    rcases single with ⟨place, only⟩
    have set : place ∈ places byte := only ▸ Finset.mem_singleton_self place
    have bound := BitVec.lt_of_getLsbD (mem_places.mp set)
    refine ⟨place, bound, byte_ext fun other => ?_⟩
    rw [get_lsb_single place other bound, Bool.eq_iff_iff, ← mem_places, only,
      Finset.mem_singleton, decide_eq_true_iff, eq_comm]
  · intro power
    rcases power with ⟨place, bound, rfl⟩
    refine ⟨place, Finset.ext fun other => ?_⟩
    rw [mem_places, get_lsb_single place other bound, decide_eq_true_iff, Finset.mem_singleton,
      eq_comm]

theorem weight_zero : weight 0 = 0 := by decide

theorem eq_zero_of_weight {byte : BitVec 8} (empty : weight byte = 0) : byte = 0 := by
  rw [weight_eq_card, Finset.card_eq_zero] at empty
  apply byte_ext
  intro place
  have absent : place ∉ places byte := empty ▸ Finset.notMem_empty place
  rw [mem_places] at absent
  simpa using absent

theorem exists_place {byte : BitVec 8} {count : Nat} (some : weight byte = count + 1) :
    ∃ place, byte.getLsbD place = true := by
  rw [weight_eq_card] at some
  obtain ⟨place, member⟩ := Finset.card_pos.mp (by omega : 0 < (places byte).card)
  exact ⟨place, mem_places.mp member⟩

theorem weight_flip {byte : BitVec 8} {place : Nat} (bound : place < 8)
    (clear : byte.getLsbD place = false) :
    weight (byte ^^^ BitVec.twoPow 8 place) = weight byte + 1 := by
  have absent : place ∉ places byte := by
    rw [mem_places, clear]
    exact Bool.false_ne_true
  have inserted : places (byte ^^^ BitVec.twoPow 8 place) = insert place (places byte) := by
    ext other
    rw [Finset.mem_insert, mem_places, mem_places, BitVec.getLsbD_xor,
      get_lsb_single place other bound]
    by_cases same : place = other
    · subst same
      simp [clear]
    · simp [same, Ne.symm same]
  rw [weight_eq_card, inserted, Finset.card_insert_of_notMem absent, weight_eq_card]

theorem weight_unflip {byte : BitVec 8} {place : Nat} (bound : place < 8)
    (set : byte.getLsbD place = true) :
    weight (byte ^^^ BitVec.twoPow 8 place) + 1 = weight byte := by
  have clear : (byte ^^^ BitVec.twoPow 8 place).getLsbD place = false := by
    simp [set, get_lsb_single place place bound]
  have back := weight_flip bound clear
  rw [BitVec.xor_assoc, BitVec.xor_self, BitVec.xor_zero] at back
  exact back.symm

theorem lt_eight_iff {byte : BitVec 8} :
    byte.toNat < 8 ↔ ∀ place, 3 ≤ place → byte.getLsbD place = false := by
  constructor
  · intro bound place high
    have power : 2 ^ 3 ≤ 2 ^ place := Nat.pow_le_pow_right (by decide) high
    exact Nat.testBit_lt_two_pow (by omega)
  · intro clear
    exact Nat.lt_pow_two_of_testBit (n := 3) byte.toNat clear

theorem weight_le_three {byte : BitVec 8} (bound : byte.toNat < 8) : weight byte ≤ 3 := by
  have within : places byte ⊆ Finset.range 3 := by
    intro place member
    rw [Finset.mem_range]
    by_contra high
    have clear := lt_eight_iff.mp bound place (by omega)
    rw [mem_places, clear] at member
    exact Bool.false_ne_true member
  rw [weight_eq_card]
  exact Finset.card_le_card within

theorem covers_iff {cube : Cube} {index : BitVec 8} :
    cube.covers index = true ↔
      ∀ place, (index.getLsbD place && !cube.mask.getLsbD place) = cube.value.getLsbD place := by
  have bits (place : Nat) : (index &&& ~~~cube.mask).getLsbD place =
      (index.getLsbD place && !cube.mask.getLsbD place) := by
    rw [BitVec.getLsbD_and, BitVec.getLsbD_not]
    by_cases bound : place < 8
    · simp [bound]
    · simp [BitVec.getLsbD_of_ge index place (by omega)]
  rw [covers, decide_eq_true_iff]
  constructor
  · intro same place
    rw [← bits, same]
  · intro same
    exact byte_ext fun place => (bits place).trans (same place)

/-- The pattern is clear at all places that are free. -/
abbrev Normal (cube : Cube) : Prop := cube.value &&& cube.mask = 0

section Normal

variable {cube other : Cube} {place : Nat} (normal : cube.Normal)

include normal

theorem normal_clear (free : cube.mask.getLsbD place = true) :
    cube.value.getLsbD place = false := by
  have bit := congrArg (fun byte => byte.getLsbD place) normal
  simpa [free] using bit

theorem covers_normal_iff {index : BitVec 8} :
    cube.covers index = true ↔
      ∀ place, cube.mask.getLsbD place = false →
        index.getLsbD place = cube.value.getLsbD place := by
  rw [covers_iff]
  constructor
  · intro covered place fixed
    simpa [fixed] using covered place
  · intro agree place
    cases free : cube.mask.getLsbD place with
    | true => simp [normal_clear normal free]
    | false => simpa using agree place free

/-- Containment, place by place: the smaller cube is fixed wherever the larger one is, and to the
same bit. Its two corners are enough to see this. -/
theorem within_iff (otherNormal : other.Normal) :
    (∀ index, cube.covers index = true → other.covers index = true) ↔
      ∀ place, other.mask.getLsbD place = false →
        cube.mask.getLsbD place = false ∧
          cube.value.getLsbD place = other.value.getLsbD place := by
  constructor
  · intro within place otherFixed
    have corner (index : BitVec 8) (inside : cube.covers index = true) :
        index.getLsbD place = other.value.getLsbD place :=
      (covers_normal_iff otherNormal).mp (within index inside) place otherFixed
    have low := corner cube.value ((covers_normal_iff normal).mpr fun _ _ => rfl)
    have high := corner (cube.value ||| cube.mask)
      ((covers_normal_iff normal).mpr fun current fixed => by simp [fixed])
    refine ⟨?_, low⟩
    cases free : cube.mask.getLsbD place with
    | false => rfl
    | true =>
        rw [BitVec.getLsbD_or, ← low, normal_clear normal free, free] at high
        cases high
  · intro agree index inside
    rw [covers_normal_iff otherNormal]
    intro place otherFixed
    obtain ⟨fixed, same⟩ := agree place otherFixed
    rw [← same]
    exact (covers_normal_iff normal).mp inside place fixed

end Normal

/-- Two cubes merge exactly if their patterns differ at one place, which both leave fixed. -/
theorem combine_eq_some_iff {cube other union : Cube} :
    cube.combine other = some union ↔
      ∃ place < 8, cube.mask = other.mask ∧ cube.mask.getLsbD place = false ∧
        other.value = cube.value ^^^ BitVec.twoPow 8 place ∧
        union = ⟨cube.value &&& other.value, cube.mask ||| BitVec.twoPow 8 place⟩ := by
  have outside (place : Nat) (bound : place < 8) :
      BitVec.twoPow 8 place &&& cube.mask = 0 ↔ cube.mask.getLsbD place = false := by
    constructor
    · intro disjoint
      have bit := congrArg (fun byte => byte.getLsbD place) disjoint
      simpa [get_lsb_single place place bound] using bit
    · intro clear
      apply byte_ext_at place
      · simp [clear]
      · intro other different
        simp [get_lsb_single place other bound, different]
  simp only [combine, Option.ite_none_right_eq_some, Option.some.injEq, weight_single_iff]
  constructor
  · intro merged
    rcases merged with ⟨⟨sameMask, ⟨place, bound, difference⟩, disjoint⟩, rfl⟩
    rw [difference] at disjoint ⊢
    refine ⟨place, bound, sameMask, (outside place bound).mp disjoint, ?_, rfl⟩
    rw [← difference, ← BitVec.xor_assoc, BitVec.xor_self, BitVec.zero_xor]
  · intro apart
    rcases apart with ⟨place, bound, sameMask, clear, flipped, rfl⟩
    have difference : cube.value ^^^ other.value = BitVec.twoPow 8 place := by
      rw [flipped, ← BitVec.xor_assoc, BitVec.xor_self, BitVec.zero_xor]
    rw [difference]
    exact ⟨⟨sameMask, ⟨place, bound, rfl⟩, (outside place bound).mpr clear⟩, rfl⟩

/-- The union covers what one of its halves covers, and nothing else. -/
theorem covers_combine {cube other union : Cube} (combined : cube.combine other = some union)
    (index : BitVec 8) :
    union.covers index = true ↔ cube.covers index = true ∨ other.covers index = true := by
  obtain ⟨place, bound, sameMask, clear, flipped, rfl⟩ := combine_eq_some_iff.mp combined
  simp only [covers_iff, ← sameMask, flipped, BitVec.getLsbD_and, BitVec.getLsbD_or,
    BitVec.getLsbD_xor, get_lsb_single place _ bound]
  constructor
  · intro covered
    by_cases agrees : index.getLsbD place = cube.value.getLsbD place
    · left
      intro other
      by_cases same : place = other
      · subst same
        simp [clear, agrees]
      · simpa [same] using covered other
    · right
      intro other
      by_cases same : place = other
      · subst same
        simpa [clear] using Bool.eq_not_of_ne agrees
      · simpa [same] using covered other
  · intro covered other
    rcases covered with inCube | inOther
    · by_cases same : place = other
      · simp [same]
      · simpa [same] using inCube other
    · by_cases same : place = other
      · simp [same]
      · simpa [same] using inOther other

theorem normal_combine {cube other union : Cube} (normal : cube.Normal)
    (combined : cube.combine other = some union) : union.Normal := by
  obtain ⟨place, bound, -, -, flipped, rfl⟩ := combine_eq_some_iff.mp combined
  have bit (current : Nat) := get_lsb_single place current bound
  apply byte_ext_at place
  · simp [flipped, bit]
  · intro current different
    cases free : cube.mask.getLsbD current with
    | true => simp [normal_clear normal free]
    | false => simp [bit, different, free]

/-- The cube next to this one across a fixed place. -/
def neighbour (cube : Cube) (place : Nat) : Cube :=
  ⟨cube.value ^^^ BitVec.twoPow 8 place, cube.mask⟩

/-- The half of a cube in which the bit at a free place is clear. -/
def half (cube : Cube) (place : Nat) : Cube :=
  ⟨cube.value, cube.mask ^^^ BitVec.twoPow 8 place⟩

theorem neighbour_neighbour (cube : Cube) (place : Nat) :
    (cube.neighbour place).neighbour place = cube := by
  rw [neighbour, neighbour, BitVec.xor_assoc, BitVec.xor_self, BitVec.xor_zero]

theorem combine_neighbour (cube : Cube) {place : Nat} (bound : place < 8)
    (fixed : cube.mask.getLsbD place = false) :
    ∃ union, cube.combine (cube.neighbour place) = some union :=
  ⟨_, combine_eq_some_iff.mpr ⟨place, bound, rfl, fixed, rfl, rfl⟩⟩

theorem combine_half (cube : Cube) {place : Nat} (free : cube.mask.getLsbD place = true)
    (normal : cube.value &&& cube.mask = 0) :
    (cube.half place).combine ((cube.half place).neighbour place) = some cube := by
  have bound := BitVec.lt_of_getLsbD free
  have clear := normal_clear normal free
  have bit (other : Nat) := get_lsb_single place other bound
  have value : cube.value =
      (cube.half place).value &&& ((cube.half place).neighbour place).value := by
    apply byte_ext_at place
    · simp [half, clear]
    · intro other different
      simp [half, neighbour, bit, different]
  have mask : cube.mask = (cube.half place).mask ||| BitVec.twoPow 8 place := by
    apply byte_ext_at place
    · simp [bit, free]
    · intro other different
      simp [half, bit, different]
  refine combine_eq_some_iff.mpr ⟨place, bound, rfl, ?_, rfl, ?_⟩
  · simp [half, free, bit]
  · exact congrArg₂ mk value mask

end BooleanCube.Cube
