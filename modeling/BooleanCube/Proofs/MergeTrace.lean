import BooleanCube.Proofs.Halves
import BooleanCube.Proofs.MinimalForm

/-!
# The trace of merging

The trace of a minimal form has one block for each round that merges anything. Block `n` lists the
ways to split an implicant with `n` free bits into halves, each of them in one line. The blocks
follow each other without gaps, and how the form is built from the primes shows only in the last two
lines.
-/

namespace BooleanCube

/-- Everything that a block of the trace tells: all splits of implicants of one size, each once. -/
structure Merge.Complete (rows : Finset Row) (size : Nat) (merges : List Merge) : Prop where
  nodup : merges.Nodup
  mem_iff : ∀ merge, merge ∈ merges ↔ merge.Splits rows size

namespace Round

def blocks (rounds : List Round) : List (List Merge) :=
  (rounds.filter fun round => !round.merges.isEmpty).map Round.merges

variable {rows : Finset Row} {size : Nat} {level : List Cube}

theorem merges_complete (invariant : IsLevel rows size level) :
    Merge.Complete rows (size + 1) (mergesOf level) :=
  ⟨merges_nodup invariant.nodup, fun _ => mem_merges_iff_splits invariant⟩

theorem blocks_run_stop (bound : Nat) (none : mergesOf level = []) :
    blocks (run bound level) = [] := by
  cases bound with
  | zero => rfl
  | succ bound =>
      rw [run_stop bound none]
      simp [blocks, ofLevel, none]

theorem blocks_run_succ (bound : Nat) (some : mergesOf level ≠ []) :
    blocks (run (bound + 1) level) =
      mergesOf level :: blocks (run bound (ofLevel level).next) := by
  rw [run_next bound some]
  simp [blocks, ofLevel, some]

/-- The blocks tell of the sizes one after the other, beginning with the one behind the level. -/
theorem complete_of_run (bound : Nat) (invariant : IsLevel rows size level) {index : Nat}
    {merges : List Merge} (here : (blocks (run bound level))[index]? = some merges) :
    Merge.Complete rows (size + index + 1) merges := by
  induction bound generalizing size level index with
  | zero => cases here
  | succ bound ih =>
      by_cases some : mergesOf level = []
      · rw [blocks_run_stop _ some] at here
        cases here
      · rw [blocks_run_succ _ some] at here
        cases index with
        | zero =>
            cases here
            exact merges_complete invariant
        | succ index =>
            have behind := ih (next_is_level invariant) here
            rwa [Nat.add_assoc size 1 index, Nat.add_comm 1 index] at behind

/-- There is a block for every size of implicants. With three bits there are few sizes. -/
theorem lt_length_blocks_iff (bound : Nat) (enough : 4 ≤ bound + size)
    (invariant : IsLevel rows size level) (index : Nat) :
    index < (blocks (run bound level)).length ↔
      ∃ cube : Cube, cube.OfSize rows (size + index + 1) := by
  induction bound generalizing size level index with
  | zero =>
      constructor
      · intro below
        exact absurd below (Nat.not_lt_zero index)
      · rintro ⟨cube, ofSize⟩
        have few := Cube.weight_le_three ofSize.implicant.proper.mask_lt
        have isSize := ofSize.weight_eq
        omega
  | succ bound ih =>
      by_cases some : ∃ cube : Cube, cube.OfSize rows (size + 1)
      · rw [blocks_run_succ _ ((merges_nonempty_iff invariant).mpr some), List.length_cons]
        cases index with
        | zero => exact iff_of_true (Nat.zero_lt_succ _) some
        | succ index =>
            have behind := ih (by omega) (next_is_level invariant) index
            rwa [Nat.succ_lt_succ_iff, Nat.add_comm index 1, ← Nat.add_assoc size 1 index]
      · have none : mergesOf level = [] :=
          not_not.mp (some ∘ (merges_nonempty_iff invariant).mp)
        rw [blocks_run_stop _ none]
        -- A larger implicant would contain one of this size.
        refine iff_of_false (Nat.not_lt_zero index) ?_
        rintro ⟨cube, ofSize⟩
        exact some (Cube.exists_smaller ofSize (by omega))

end Round

namespace Merge

variable {rows : Finset Row} {size : Nat} {merge other : Merge}

/-- The text of a merge: the patterns of both halves, then pattern and mask of the union. -/
def line : Merge → String
  | ⟨lower, upper, union⟩ =>
      s!"{lower.value.toNat} + {upper.value.toNat} → {union.value.toNat} (mask: {union.mask.toNat})"

theorem render_eq_line : render = line := rfl

theorem Splits.line_to_list (splits : merge.Splits rows size) :
    merge.line.toList =
      [merge.lower.value.toNat.digitChar, ' ', '+', ' ', merge.upper.value.toNat.digitChar, ' ',
        '→', ' ', merge.union.value.toNat.digitChar, ' ', '(', 'm', 'a', 's', 'k', ':', ' ',
        merge.union.mask.toNat.digitChar, ')'] := by
  have digit {number : Nat} (few : number < 8) : number.repr = String.singleton number.digitChar :=
    Nat.repr_of_lt (by omega)
  simp only [line, String.toList_append, Nat.toString_eq_repr, digit splits.lower.value_lt,
    digit splits.upper.value_lt, digit splits.union.implicant.proper.value_lt,
    digit splits.union.implicant.proper.mask_lt, String.toList_singleton]
  rfl

theorem line_inj (splits : merge.Splits rows size) (otherSplits : other.Splits rows size)
    (same : merge.line = other.line) : merge = other := by
  have digits : ∀ number < 8, ∀ digit < 8,
      number.digitChar = digit.digitChar → number = digit := by decide
  have proper := splits.union.implicant.proper
  have otherProper := otherSplits.union.implicant.proper
  have texts := congrArg String.toList same
  rw [splits.line_to_list, otherSplits.line_to_list] at texts
  simp only [List.cons.injEq, true_and, and_true] at texts
  obtain ⟨-, uppers, values, masks⟩ := texts
  have sameUpper := digits _ splits.upper.value_lt _ otherSplits.upper.value_lt uppers
  have sameValue := digits _ proper.value_lt _ otherProper.value_lt values
  have sameMask := digits _ proper.mask_lt _ otherProper.mask_lt masks
  have sameUnion : merge.union = other.union :=
    congrArg₂ Cube.mk (BitVec.eq_of_toNat_eq sameValue) (BitVec.eq_of_toNat_eq sameMask)
  obtain ⟨var, -, halves⟩ := splits.exists_halves
  obtain ⟨otherVar, -, otherHalves⟩ := otherSplits.exists_halves
  rw [← sameUnion] at otherHalves
  -- The variable is the one by which the upper half differs from the union.
  have sameVar : var = otherVar := by
    apply Cube.halves_inj
    rw [← halves, ← otherHalves]
    exact BitVec.eq_of_toNat_eq sameUpper
  rw [halves, otherHalves, sameVar]

theorem Splits.ascend (splits : merge.Splits rows size) :
    merge.lower.value.toNat < merge.upper.value.toNat := by
  obtain ⟨var, free, halves⟩ := splits.exists_halves
  rw [halves]
  exact Cube.halves_ascend splits.union.implicant.proper free

theorem Complete.lines_nodup {merges : List Merge} (complete : Complete rows size merges) :
    (merges.map line).Nodup := by
  apply complete.nodup.map_on
  intro merge member other otherMember same
  exact line_inj ((complete.mem_iff merge).mp member) ((complete.mem_iff other).mp otherMember) same

end Merge

namespace Minimized

/-- The lines of a block: its number, then the merges, numbered from one. -/
def blockLines (number : Nat) (merges : List Merge) : List String :=
  s!"Iteration {number}:" ::
    (merges.zipIdx 1).map fun (merge, place) => s!"  {place}. {merge.line}"

theorem round_lines_eq (rounds : List Round) :
    roundLines rounds =
      ((Round.blocks rounds).zipIdx 1).flatMap fun (merges, number) => blockLines number merges := by
  rw [Round.blocks, List.zipIdx_map, List.flatMap_map, roundLines]
  congr 1
  funext entry
  simp only [blockLines, Round.lines, List.zipIdx_map, List.map_map]
  rw [Merge.render_eq_line]
  rfl

theorem head_inj {number other : Nat}
    (same : s!"Iteration {number}:" = s!"Iteration {other}:") : number = other := by
  have texts : number.repr = other.repr := by
    rw [String.append_left_inj, String.append_right_inj] at same
    exact same
  rw [Nat.repr_eq_ofList_toDigits, Nat.repr_eq_ofList_toDigits, String.ofList_inj] at texts
  have values := congrArg (fun digits => Nat.ofDigitChars 10 digits 0) texts
  simpa only [Nat.ofDigitChars_ten_toDigits] using values

def initial (line : String) : Option Char := line.toList.head?

theorem initial_append {text : String} {letter : Char} (begins : initial text = some letter)
    (rest : String) : initial (text ++ rest) = some letter := by
  rw [initial, String.toList_append, List.head?_append, ← initial, begins]
  rfl

theorem initial_head (number : Nat) : initial s!"Iteration {number}:" = some 'I' :=
  initial_append (initial_append rfl _) _

theorem ne_head {line : String} (letter : Char) (begins : initial line = some letter)
    (different : letter ≠ 'I') (number : Nat) : s!"Iteration {number}:" ≠ line := by
  intro same
  rw [← same, initial_head] at begins
  exact different (Option.some.inj begins).symm

theorem head_not_mem_opening (number : Nat) (level : List Cube) :
    s!"Iteration {number}:" ∉ openingLines level := by
  intro member
  simp only [openingLines, List.mem_cons, List.mem_filterMap] at member
  rcases member with same | same | ⟨ones, _, inGroup⟩
  · exact ne_head 'T' (initial_append rfl _) (by decide) number same
  · exact ne_head 'G' rfl (by decide) number same
  · split at inGroup
    · cases inGroup
    · exact ne_head ' ' (initial_append (initial_append (initial_append rfl _) _) _) (by decide)
        number (Option.some.inj inGroup).symm

theorem head_not_mem_closing (number : Nat) (polarity : Polarity) (primes : List Cube)
    (form : NormalForm) : s!"Iteration {number}:" ∉ closingLines polarity primes form := by
  intro member
  rcases List.mem_pair.mp member with same | same
  · exact ne_head 'P' (initial_append rfl _) (by decide) number same
  · exact ne_head 'R' (initial_append rfl _) (by decide) number same

theorem head_mem_block {number other : Nat} {merges : List Merge} :
    s!"Iteration {number}:" ∈ blockLines other merges ↔ number = other := by
  rw [blockLines, List.mem_cons, List.mem_map]
  constructor
  · intro member
    rcases member with same | ⟨entry, _, same⟩
    · exact head_inj same
    · exact absurd same.symm
        (ne_head ' ' (initial_append (initial_append (initial_append rfl _) _) _) (by decide) number)
  · intro same
    exact Or.inl (same ▸ rfl)

def blocks (terms : List Nat) : List (List Merge) :=
  Round.blocks (Round.all ((listedRows terms).map Cube.ofRow))

section Blocks

variable {terms : List Nat} {number : Nat}

theorem block_complete {merges : List Merge} (member : (merges, number) ∈ (blocks terms).zipIdx 1) :
    Merge.Complete (listed terms) number merges := by
  obtain ⟨positive, here⟩ := List.mk_mem_zipIdx_iff_le_and_getElem?_sub.mp member
  have complete := Round.complete_of_run 9 (first_level terms) here
  rwa [Nat.zero_add, Nat.sub_add_cancel positive] at complete

theorem length_blocks_iff (index : Nat) :
    index < (blocks terms).length ↔ ∃ cube : Cube, cube.OfSize (listed terms) (index + 1) := by
  have sizes := Round.lt_length_blocks_iff 9 (by decide) (first_level terms) index
  rwa [Nat.zero_add] at sizes

theorem exists_block_iff :
    (∃ merges, (merges, number) ∈ (blocks terms).zipIdx 1) ↔
      1 ≤ number ∧ ∃ cube : Cube, cube.OfSize (listed terms) number := by
  simp only [List.mk_mem_zipIdx_iff_le_and_getElem?_sub, exists_and_left]
  refine and_congr_right fun positive => ?_
  have sizes := @length_blocks_iff terms (number - 1)
  rw [Nat.sub_add_cancel positive] at sizes
  rw [← sizes, ← Option.isSome_iff_exists, isSome_getElem?]

end Blocks

section Trace

variable {terms : List Nat} (some : listed terms ≠ ∅) (notEvery : listed terms ≠ Finset.univ)

include some notEvery

theorem trace_between (polarity : Polarity) :
    (minimize terms polarity).trace =
      openingLines ((listedRows terms).map Cube.ofRow) ++
        ((blocks terms).zipIdx 1).flatMap (fun (merges, number) => blockLines number merges) ++
          closingLines polarity (minimize terms polarity).primes (minimize terms polarity).form := by
  rw [minimize_between some notEvery, search, round_lines_eq]
  rfl

theorem head_mem_trace_iff (polarity : Polarity) (number : Nat) :
    s!"Iteration {number}:" ∈ (minimize terms polarity).trace ↔
      1 ≤ number ∧ ∃ cube : Cube, cube.OfSize (listed terms) number := by
  rw [trace_between some notEvery, List.mem_append, List.mem_append,
    or_iff_left (head_not_mem_closing number _ _ _), or_iff_right (head_not_mem_opening number _),
    ← exists_block_iff, List.mem_flatMap]
  constructor
  · intro found
    obtain ⟨⟨merges, other⟩, member, inBlock⟩ := found
    rw [head_mem_block.mp inBlock]
    exact ⟨merges, member⟩
  · intro found
    obtain ⟨merges, member⟩ := found
    exact ⟨(merges, number), member, head_mem_block.mpr rfl⟩

end Trace

/-- The trace of a set of rows that is neither empty nor full tells of every cube inside the set
that has more than one row. For each number of dimensions that there are such cubes of, it has a
block of lines, and the blocks come in order and without gaps. A block lists each cube of its
dimension once for every variable that the cube leaves free, with its halves at this variable.
Only the last two lines depend on whether a disjunction or a conjunction is wanted. -/
theorem minimize_traces_merges (terms : List Nat) :
    (listed terms = ∅ ∨ listed terms = Finset.univ →
      ∀ polarity, (minimize terms polarity).trace = []) ∧
    (listed terms ≠ ∅ → listed terms ≠ Finset.univ →
      (∀ polarity number, s!"Iteration {number}:" ∈ (minimize terms polarity).trace ↔
        1 ≤ number ∧ ∃ cube : Cube, cube.OfSize (listed terms) number) ∧
      ∃ blocks : List (List Merge),
        (∀ polarity, ∃ primes result, (minimize terms polarity).trace =
          openingLines ((listedRows terms).map Cube.ofRow) ++
            (blocks.zipIdx 1).flatMap (fun (merges, number) => blockLines number merges) ++
              [primes, result]) ∧
        (∀ index, index < blocks.length ↔
          ∃ cube : Cube, cube.OfSize (listed terms) (index + 1)) ∧
        ∀ merges number, (merges, number) ∈ blocks.zipIdx 1 →
          (merges.map Merge.line).Nodup ∧
          (∀ merge, merge ∈ merges ↔ merge.Splits (listed terms) number) ∧
          (∀ merge ∈ merges, merge.lower.value.toNat < merge.upper.value.toNat) ∧
          ∀ cube : Cube, cube.OfSize (listed terms) number →
            merges.countP (fun merge => merge.union = cube) = number) := by
  constructor
  · intro constant polarity
    rcases constant with none | every
    · rw [minimize_empty none]
      rfl
    · rw [minimize_full every]
      rfl
  · intro some notEvery
    refine ⟨head_mem_trace_iff some notEvery, blocks terms, ?_, length_blocks_iff, ?_⟩
    · intro polarity
      exact ⟨_, _, trace_between some notEvery polarity⟩
    · intro merges number member
      have complete := block_complete member
      refine ⟨complete.lines_nodup, complete.mem_iff, ?_, ?_⟩
      · intro merge inMerges
        exact ((complete.mem_iff merge).mp inMerges).ascend
      · intro cube ofSize
        exact Cube.count_splits ofSize complete.nodup complete.mem_iff

/-- Half of all rows, listed in disorder and with a number that is no row. -/
theorem minimize_traces_merges_face :
    let terms := [7, 5, 4, 6, 9]
    listed terms ≠ ∅ ∧ listed terms ≠ Finset.univ ∧
      ∀ polarity, s!"Iteration {2}:" ∈ (minimize terms polarity).trace ∧
        s!"Iteration {3}:" ∉ (minimize terms polarity).trace := by
  intro terms
  have some : listed terms ≠ ∅ := by decide
  have notEvery : listed terms ≠ Finset.univ := by decide
  have face : Cube.OfSize (listed terms) 2 ⟨4, 3⟩ :=
    ⟨⟨⟨by decide, by decide, by decide⟩, by decide⟩, by decide⟩
  obtain ⟨heads, -⟩ := (minimize_traces_merges terms).2 some notEvery
  refine ⟨some, notEvery, fun polarity => ⟨(heads polarity 2).mpr ⟨by decide, _, face⟩, ?_⟩⟩
  intro member
  obtain ⟨-, cube, ofSize⟩ := (heads polarity 3).mp member
  have few : (listed terms).card = 4 := by decide
  have bound := Finset.card_le_card ofSize.implicant.inside
  rw [ofSize.card_eq, few] at bound
  exact absurd bound (by decide)

example : (minimize [7, 5, 4, 6, 9] .disjunctive).trace =
    ["Terms: 4, 5, 6, 7", "Groups by number of ones:", "  1: 4", "  2: 5, 6", "  3: 7",
      "Iteration 1:", "  1. 4 + 5 → 4 (mask: 1)", "  2. 4 + 6 → 4 (mask: 2)",
      "  3. 5 + 7 → 5 (mask: 2)", "  4. 6 + 7 → 6 (mask: 1)",
      "Iteration 2:", "  1. 4 + 6 → 4 (mask: 3)", "  2. 4 + 5 → 4 (mask: 3)",
      "Prime implicants: x", "Result: x"] := by
  decide +kernel

end Minimized

end BooleanCube
