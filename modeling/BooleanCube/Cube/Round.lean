import BooleanCube.Cube

/-!
Rounds of merging cubes. A round groups the cubes of one size by the ones in their patterns and
merges neighbouring groups; the merged cubes are the level of the next round. What a round leaves
unmerged is prime.
-/

namespace BooleanCube

structure Merge where
  lower : Cube
  upper : Cube
  union : Cube
  deriving DecidableEq, Repr

def Merge.render (merge : Merge) : String :=
  let lower := merge.lower.value.toNat
  let upper := merge.upper.value.toNat
  let union := merge.union.value.toNat
  let mask := merge.union.mask.toNat
  s!"{lower} + {upper} → {union} (mask: {mask})"

structure Round where
  level : List Cube
  merges : List Merge
  deriving DecidableEq, Repr

namespace Round

def group (level : List Cube) (ones : Nat) : List Cube := level.filter fun cube => cube.ones = ones

/-- All merges between a group and the group with one more one, for three bits. -/
def mergesOf (level : List Cube) : List Merge :=
  (List.range 3).flatMap fun ones =>
    (group level ones).flatMap fun lower =>
      (group level (ones + 1)).filterMap fun upper =>
        (lower.combine upper).map fun union => ⟨lower, upper, union⟩

def ofLevel (level : List Cube) : Round := ⟨level, mergesOf level⟩

def merged (round : Round) (cube : Cube) : Bool :=
  round.merges.any fun merge => merge.lower = cube || merge.upper = cube

def unmerged (round : Round) : List Cube := round.level.filter fun cube => !round.merged cube

/-- The next level: every union once, in the order in which it first appears. -/
def next (round : Round) : List Cube := (round.merges.map Merge.union).eraseDups

def lines (round : Round) : List String :=
  ((round.merges.map Merge.render).zipIdx 1).map fun (line, number) => s!"  {number}. {line}"

/-- At most `bound` rounds from a level on, up to and including the first without a merge. -/
def run : Nat → List Cube → List Round
  | 0, _ => []
  | bound + 1, level =>
      let round := ofLevel level
      round :: if round.merges.isEmpty then [] else run bound round.next

/-- All rounds from a level on. Every merge frees one more of the eight bits of a mask, so the
ninth round has nothing left to merge. -/
def all (level : List Cube) : List Round := run 9 level

end Round

end BooleanCube
