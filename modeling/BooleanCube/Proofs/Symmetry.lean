import BooleanCube.Session
import BooleanCube.Proofs.Derived
import BooleanCube.Proofs.Renaming
import Mathlib.Data.Finset.Image

/-!
# No variable is special

A renaming permutes the rows of the cube, and with them its subcubes: extents are moved, so
implicants go to implicants and prime cubes to prime cubes. With the table of a renamed expression
this says that everything found for an expression is found for the renamed one under the new names.
-/

namespace BooleanCube

variable (perm : Renaming)

namespace Row

def permutation : Equiv.Perm Row where
  toFun := rename perm
  invFun := rename perm.symm
  left_inv := rename_symm_rename perm.symm
  right_inv := rename_symm_rename perm

theorem of_index_bit (index : Nat) (var : Variable) :
    var.bit (ofIndex index) = index.testBit var.shift := by
  change (index % 2 ^ 3).testBit var.shift = index.testBit var.shift
  rw [Nat.testBit_mod_two_pow, decide_eq_true var.shift_lt, Bool.true_and]

end Row

namespace Cube

/-- The byte with the bits of the variables moved to the places of their new names. -/
def renameByte (byte : BitVec 8) : BitVec 8 := ((Row.ofIndex byte.toNat).rename perm).byte

def rename (cube : Cube) : Cube := ⟨renameByte perm cube.value, renameByte perm cube.mask⟩

theorem rename_byte_bit (byte : BitVec 8) (var : Variable) :
    (renameByte perm byte).getLsbD (perm var).shift = byte.getLsbD var.shift := by
  rw [renameByte, Row.byte_bit, Row.bit_rename, Row.of_index_bit, BitVec.testBit_toNat]

theorem rename_byte_lt (byte : BitVec 8) : (renameByte perm byte).toNat < 8 := by
  rw [renameByte, Row.byte_to_nat]
  exact Fin.isLt _

theorem bit_of_rename (cube : Cube) (var : Variable) :
    (cube.rename perm).bit? (perm var) = cube.bit? var := by
  rw [bit?, bit?, rename, rename_byte_bit, rename_byte_bit]

variable {cube : Cube}

theorem rename_proper (proper : cube.Proper) : (cube.rename perm).Proper := by
  have low (byte : BitVec 8) (place : Nat) (high : 3 ≤ place) :
      (renameByte perm byte).getLsbD place = false :=
    lt_eight_iff.mp (rename_byte_lt perm byte) place high
  apply proper_of_bits
  · intro place high
    exact ⟨low cube.value place high, low cube.mask place high⟩
  · intro place free
    by_cases inside : place < 3
    · rcases Variable.exists_shift inside with ⟨var, rfl⟩
      rcases perm.surjective var with ⟨original, rfl⟩
      rw [rename, rename_byte_bit] at free ⊢
      exact normal_clear proper.normal free
    · exact low cube.value place (by omega)

theorem mem_extent_rename (proper : cube.Proper) (row : Row) :
    row.rename perm ∈ (cube.rename perm).extent ↔ row ∈ cube.extent := by
  rw [mem_extent, mem_extent, covers_row_iff proper, covers_row_iff (rename_proper perm proper),
    ← perm.forall_congr_right]
  simp only [bit_of_rename, Row.bit_rename]

theorem extent_rename (proper : cube.Proper) :
    (cube.rename perm).extent = cube.extent.map (Row.permutation perm).toEmbedding := by
  ext row
  have moved := mem_extent_rename perm proper (row.rename perm.symm)
  rw [Row.rename_symm_rename] at moved
  rw [Finset.mem_map_equiv]
  exact moved

theorem rename_symm_rename (proper : cube.Proper) :
    (cube.rename perm.symm).rename perm = cube := by
  have symmProper := rename_proper perm.symm proper
  apply extent_inj (rename_proper perm symmProper) proper
  ext row
  have there := mem_extent_rename perm symmProper (row.rename perm.symm)
  rw [Row.rename_symm_rename] at there
  exact there.trans (mem_extent_rename perm.symm proper row)

section Prime

variable {rows : Finset Row}

theorem Implicant.rename (implicant : cube.Implicant rows) :
    (cube.rename perm).Implicant (rows.map (Row.permutation perm).toEmbedding) where
  proper := rename_proper perm implicant.proper
  inside := by
    rw [extent_rename perm implicant.proper]
    exact Finset.map_subset_map.mpr implicant.inside

theorem rows_back (rows : Finset Row) :
    (rows.map (Row.permutation perm).toEmbedding).map (Row.permutation perm.symm).toEmbedding =
      rows := by
  ext row
  have back := row.rename_symm_rename perm.symm
  rw [Finset.mem_map_equiv, Finset.mem_map_equiv]
  exact iff_of_eq (congrArg (fun other => other ∈ rows) back)

/-- A renamed prime cube is prime: a larger implicant could be renamed back. -/
theorem Prime.rename (prime : cube.Prime rows) :
    (cube.rename perm).Prime (rows.map (Row.permutation perm).toEmbedding) where
  implicant := prime.implicant.rename perm
  maximal := by
    intro other otherImplicant larger
    have back := otherImplicant.rename perm.symm
    rw [rows_back] at back
    apply prime.maximal _ back
    rw [← rename_symm_rename perm otherImplicant.proper, extent_rename perm prime.implicant.proper,
      extent_rename perm back.proper] at larger
    exact Finset.map_ssubset_map.mp larger

end Prime

end Cube

namespace TruthVector

theorem rows_rename (vector : TruthVector) (polarity : Polarity) :
    (polarity.rows (vector.rename perm)).toFinset =
      (polarity.rows vector).toFinset.map (Row.permutation perm).toEmbedding := by
  ext row
  rw [Finset.mem_map_equiv, Polarity.mem_row_set, Polarity.mem_row_set, rename, get_of_fn]
  rfl

theorem mem_primes_rename (vector : TruthVector) (polarity : Polarity) (cube : Cube) :
    cube ∈ ((vector.rename perm).minimal polarity).primes ↔
      cube ∈ (vector.minimal polarity).primes.map (Cube.rename perm) := by
  rw [mem_primes_iff, rows_rename, List.mem_map]
  constructor
  · intro prime
    have original := prime.rename perm.symm
    rw [Cube.rows_back] at original
    exact ⟨cube.rename perm.symm, mem_primes_iff.mpr original,
      Cube.rename_symm_rename perm prime.implicant.proper⟩
  · intro found
    rcases found with ⟨original, member, rfl⟩
    exact (mem_primes_iff.mp member).rename perm

end TruthVector

namespace Session

/-- No variable is special: the function of a renamed expression has in a moved row the value of the
row itself, its columns are the renamed columns in the same order, and the prime cubes of either
minimal form are the renamed prime cubes. -/
theorem variables_interchangeable (expression : Expression) :
    let session := ofExpression expression
    let renamed := ofExpression (expression.rename perm)
    (∀ row : Row, renamed.vector.get (row.rename perm) = session.vector.get row) ∧
      renamed.table.columns = session.table.columns.map (Column.rename perm) ∧
      ∀ polarity, ∀ cube, cube ∈ (renamed.minimal polarity).primes ↔
        cube ∈ (session.minimal polarity).primes.map (Cube.rename perm) := by
  intro session renamed
  have vectors : renamed.vector = session.vector.rename perm := TruthTable.vector_rename perm _
  refine ⟨?_, TruthTable.columns_rename perm expression, ?_⟩
  · intro row
    rw [vectors, TruthVector.get_rename]
  · intro polarity cube
    rw [minimal, vectors]
    exact TruthVector.mem_primes_rename perm session.vector polarity cube

end Session

end BooleanCube
