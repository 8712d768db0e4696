import BooleanCube.Proofs.Halves
import BooleanCube.Proofs.MinimalForm

/-!
# The loop of merging

Nothing counts the rounds of a search: they go on for as long as a round merges anything. Each round
frees one more bit, and a set that lacks a row has no implicant with three free bits, so the third
round at the latest is the last. Until then each level is what the next round relies on.
-/

namespace BooleanCube

theorem Cube.ones_of_combine {cube other union : Cube}
    (combined : cube.combine other = some union) :
    other.ones = cube.ones + 1 ∨ cube.ones = other.ones + 1 := by
  obtain ⟨place, bound, -, -, flipped, -⟩ := combine_eq_some_iff.mp combined
  rw [ones, ones, flipped]
  cases bit : cube.value.getLsbD place with
  | false => exact .inl (weight_flip bound bit)
  | true => exact .inr (weight_unflip bound bit).symm

theorem Cube.Implicant.few_free {rows : Finset Row} {cube : Cube}
    (implicant : cube.Implicant rows) (notEvery : rows ≠ Finset.univ) : weight cube.mask < 3 := by
  have fewer : cube.extent.card < 8 := by
    calc
      cube.extent.card ≤ rows.card := Finset.card_le_card implicant.inside
      _ < Fintype.card Row := (Finset.card_lt_iff_ne_univ rows).mpr notEvery
      _ = 8 := Fintype.card_fin 8
  rw [card_extent implicant.proper] at fewer
  exact (Nat.pow_lt_pow_iff_right (by decide : 1 < 2)).mp fewer

namespace Round

/-- The rounds from a level on, with no bound on their number: each round that merges anything is
followed by another one. -/
inductive Loop : List Cube → List Round → Prop
  | last {level : List Cube} (none : mergesOf level = []) : Loop level [ofLevel level]
  | more {level : List Cube} {rounds : List Round} (some : mergesOf level ≠ [])
      (rest : Loop (ofLevel level).next rounds) : Loop level (ofLevel level :: rounds)

abbrev Groups := Vector (List Cube) 4

/-- Puts a cube behind the others of its group. There is none for more than three ones: the index
would be out of bounds. -/
def place? (groups : Groups) (cube : Cube) : Option Groups :=
  if bound : cube.ones < 4 then
    some (groups.set cube.ones (groups[cube.ones] ++ [cube]))
  else none

def groups? (level : List Cube) : Option Groups := level.foldlM place? (Vector.replicate 4 [])

theorem place_group (level : List Cube) {cube : Cube} (bound : cube.ones < 4) :
    place? (Vector.ofFn fun ones => group level ones) cube =
      some (Vector.ofFn fun ones => group (level ++ [cube]) ones) := by
  rw [place?, dif_pos bound]
  congr 1
  apply Vector.ext
  intro ones inside
  rw [Vector.getElem_set]
  by_cases same : cube.ones = ones
  · subst same
    simp [group]
  · simp [group, same]

theorem groups_of_few {level : List Cube} (few : ∀ cube ∈ level, cube.ones < 4) :
    groups? level = some (Vector.ofFn fun ones => group level ones) := by
  induction level using List.reverseRecOn with
  | nil => rfl
  | append_singleton rest cube ih =>
      have before := ih fun other member => few other (List.mem_append_left [cube] member)
      have bound := few cube List.mem_concat_self
      calc
        groups? (rest ++ [cube]) = (groups? rest).bind fun groups => place? groups cube := by
          simp [groups?]
        _ = place? (Vector.ofFn fun ones => group rest ones) cube := by
          rw [before, Option.bind_some]
        _ = some (Vector.ofFn fun ones => group (rest ++ [cube]) ones) := place_group rest bound

section Loop

variable {rows : Finset Row} {size limit : Nat} {level : List Cube} {rounds : List Round}

/-- Each pass starts with the implicants of the size that the passes before it have led to. -/
theorem Loop.level_of_pass (loop : Loop level rounds) (invariant : IsLevel rows size level)
    {pass : Nat} {round : Round} (here : rounds[pass]? = some round) :
    round = ofLevel round.level ∧ IsLevel rows (size + pass) round.level := by
  induction loop generalizing size pass with
  | last none =>
      cases pass with
      | zero =>
          cases here
          exact ⟨rfl, invariant⟩
      | succ pass => cases here
  | more some rest ih =>
      cases pass with
      | zero =>
          cases here
          exact ⟨rfl, invariant⟩
      | succ pass =>
          have behind := ih (next_is_level invariant) here
          rwa [Nat.add_assoc, Nat.add_comm 1 pass] at behind

theorem size_lt_of_merges (few : ∀ cube : Cube, cube.Implicant rows → Cube.weight cube.mask < limit)
    (invariant : IsLevel rows size level) (some : mergesOf level ≠ []) : size + 1 < limit := by
  obtain ⟨cube, ofSize⟩ := (merges_nonempty_iff invariant).mp some
  rw [← ofSize.weight_eq]
  exact few cube ofSize.implicant

/-- The loop comes to an end, within as many rounds as there are sizes of implicants. -/
theorem loop_run (few : ∀ cube : Cube, cube.Implicant rows → Cube.weight cube.mask < limit)
    (bound : Nat) (enough : limit ≤ size + bound) (smaller : size < limit)
    (invariant : IsLevel rows size level) : Loop level (run bound level) := by
  induction bound generalizing size level with
  | zero => omega
  | succ bound ih =>
      by_cases none : mergesOf level = []
      · rw [run_stop bound none]
        exact .last none
      · rw [run_next bound none]
        have next := size_lt_of_merges few invariant none
        exact .more none (ih (by omega) next (next_is_level invariant))

theorem Loop.length_le (few : ∀ cube : Cube, cube.Implicant rows → Cube.weight cube.mask < limit)
    (smaller : size < limit) (loop : Loop level rounds) (invariant : IsLevel rows size level) :
    size + rounds.length ≤ limit := by
  induction loop generalizing size with
  | last none => exact smaller
  | more some rest ih =>
      have next := size_lt_of_merges few invariant some
      have behind := ih next (next_is_level invariant)
      rw [List.length_cons]
      omega

theorem not_merged_iff {cube : Cube} (invariant : IsLevel rows size level)
    (member : cube ∈ level) : (ofLevel level).merged cube = false ↔ cube.Prime rows := by
  have ofSize := ((invariant.mem_iff cube).mp member).2
  calc
    (ofLevel level).merged cube = false ↔ cube ∈ (ofLevel level).unmerged := by
      rw [unmerged, List.mem_filter, Bool.not_eq_true']
      exact (and_iff_right member).symm
    _ ↔ cube.Prime rows := by
      rw [mem_unmerged_iff invariant]
      exact and_iff_left ofSize

end Loop

end Round

namespace Minimized

/-- The search for a set of rows that is neither empty nor full runs the loop to its end, in at most
three rounds. Each of them starts with the implicants of one size, each once, and for each of these
there is a group. Cubes can only be combined if their groups are neighbours, and those that a round
leaves unmerged are the prime ones. -/
theorem merge_loop_levels (terms : List Nat) (notNone : listed terms ≠ ∅)
    (notEvery : listed terms ≠ Finset.univ) :
    let first := (listedRows terms).map Cube.ofRow
    let rounds := Round.all first
    (∀ polarity, (minimize terms polarity).primes = primesOf rounds polarity) ∧
      Round.Loop first rounds ∧
      rounds.length ≤ 3 ∧
      ∀ pass round, rounds[pass]? = some round →
        round.level.Nodup ∧
        (∀ cube : Cube, cube ∈ round.level ↔
          cube.Implicant (listed terms) ∧ Cube.weight cube.mask = pass) ∧
        Round.groups? round.level = some (Vector.ofFn fun ones => Round.group round.level ones) ∧
        (∀ cube ∈ round.level, ∀ other ∈ round.level, ∀ union,
          cube.combine other = some union →
            other.ones = cube.ones + 1 ∨ cube.ones = other.ones + 1) ∧
        ∀ cube ∈ round.level, round.merged cube = false ↔ cube.Prime (listed terms) := by
  intro first rounds
  have few (cube : Cube) (implicant : cube.Implicant (listed terms)) :
      Cube.weight cube.mask < 3 := implicant.few_free notEvery
  have invariant : Round.IsLevel (listed terms) 0 first := first_level terms
  have loop : Round.Loop first rounds :=
    Round.loop_run few 9 (by decide) (by decide) invariant
  have short : rounds.length ≤ 3 := by
    have bounded := loop.length_le few (by decide) invariant
    rwa [Nat.zero_add] at bounded
  refine ⟨?_, loop, short, ?_⟩
  · intro polarity
    rw [minimize_between notNone notEvery]
    rfl
  · intro pass round here
    obtain ⟨isRound, level⟩ := loop.level_of_pass invariant here
    rw [Nat.zero_add] at level
    refine ⟨level.nodup, level.mem_iff, ?_, ?_, ?_⟩
    · apply Round.groups_of_few
      intro cube member
      have proper := ((level.mem_iff cube).mp member).1.proper
      exact Nat.lt_succ_of_le (Cube.weight_le_three proper.value_lt)
    · intro cube _ other _ union combined
      exact Cube.ones_of_combine combined
    · intro cube member
      rw [isRound]
      exact Round.not_merged_iff level member

/-- A face of the cube of rows takes three rounds: in the last one only the face is left. -/
theorem merge_loop_levels_face :
    let terms := [7, 5, 4, 6, 9]
    let first := (listedRows terms).map Cube.ofRow
    let rounds := Round.all first
    listed terms ≠ ∅ ∧ listed terms ≠ Finset.univ ∧ Round.Loop first rounds ∧
      rounds.length = 3 ∧ rounds[2]? = some ⟨[⟨4, 3⟩], []⟩ ∧ Cube.Prime (listed terms) ⟨4, 3⟩ := by
  intro terms first rounds
  have notNone : listed terms ≠ ∅ := by decide
  have notEvery : listed terms ≠ Finset.univ := by decide
  have third : rounds[2]? = some ⟨[⟨4, 3⟩], []⟩ := by decide
  obtain ⟨-, loop, -, passes⟩ := merge_loop_levels terms notNone notEvery
  obtain ⟨-, -, -, -, unmerged⟩ := passes 2 _ third
  have prime := (unmerged ⟨4, 3⟩ List.mem_cons_self).mp (by decide)
  exact ⟨notNone, notEvery, loop, by decide, third, prime⟩

end Minimized

end BooleanCube
