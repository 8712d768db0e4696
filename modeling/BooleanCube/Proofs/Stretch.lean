import BooleanCube.Proofs.Border
import Mathlib.Data.List.SplitBy

/-!
# Stretches of letters

A text falls into runs of letters and runs of other characters, and it is cut run by run. A run of
letters is one part if it is the word of a connective, and else each letter is a part of its own.
-/

namespace BooleanCube

/-- The one spelling of the connective that is a word. -/
def Connective.word : Connective → String
  | .and => "and"
  | .or => "or"
  | .xor => "xor"
  | .nor => "nor"
  | .nand => "nand"
  | .implies => "imp"
  | .reverseImplies => "rimp"
  | .xnor => "xnor"

theorem Connective.eq_word {spelling : List Char} {op : Connective}
    (listed : (spelling, op) ∈ vocabulary)
    (letters : ∀ char ∈ spelling, Text.isLetter char = true) : spelling = op.word.toList := by
  have checked : vocabulary.all (fun entry =>
      !entry.1.all Text.isLetter || entry.1 == entry.2.word.toList) = true := by decide
  have named := List.all_eq_true.mp checked _ listed
  rw [List.all_eq_true.mpr letters] at named
  exact eq_of_beq named

namespace Text

/-- Runs of letters and runs of other characters by turns, each as long as it can be. -/
def stretches (text : List Char) : List (List Char) :=
  text.splitBy fun first second => isLetter first == isLetter second

/-- `run` is made of letters, and neither neighbour is one. -/
structure LetterRun (front run back : List Char) : Prop where
  nonempty : run ≠ []
  letters : ∀ char ∈ run, isLetter char = true
  opened : ∀ char ∈ front.getLast?, isLetter char = false
  closed : ∀ char ∈ back.head?, isLetter char = false

theorem stretches_at_run {front run back : List Char} (isRun : LetterRun front run back) :
    stretches (front ++ run ++ back) = stretches front ++ run :: stretches back := by
  have single : stretches run = [run] := by
    apply List.splitBy_of_isChain isRun.nonempty
    apply List.Pairwise.isChain
    apply List.pairwise_of_forall_mem_list
    intro first inRun second alsoInRun
    rw [isRun.letters first inRun, isRun.letters second alsoInRun]
    rfl
  have parted : stretches (run ++ back) = run :: stretches back := by
    rw [stretches, List.splitBy_append]
    · change stretches run ++ stretches back = _
      rw [single]
      rfl
    · intro last isLast next isNext
      rw [isRun.letters last (List.mem_of_getLast? isLast), isRun.closed next isNext]
      rfl
  rw [List.append_assoc, ← parted]
  apply List.splitBy_append
  intro last isLast next isNext
  rw [List.head?_append_of_ne_nil _ isRun.nonempty] at isNext
  rw [isRun.opened last isLast, isRun.letters next (List.mem_of_head? isNext)]
  rfl

theorem uniform_of_mem_stretches {text stretch : List Char} (member : stretch ∈ stretches text) :
    (∀ char ∈ stretch, isLetter char = true) ∨ ∀ char ∈ stretch, isLetter char = false := by
  obtain ⟨first, rest, rfl⟩ :=
    List.exists_cons_of_ne_nil (List.ne_nil_of_mem_splitBy member)
  have chain := List.isChain_of_mem_splitBy member
  have same : ∀ char ∈ first :: rest, isLetter char = isLetter first := by
    simp only [beq_iff_eq] at chain
    have alike := List.isChain_iff_pairwise.mp ((List.isChain_map isLetter).mpr chain)
    rw [List.map_cons, List.pairwise_cons] at alike
    rw [List.forall_mem_cons]
    exact ⟨rfl, fun char inRest => (alike.1 _ (List.mem_map_of_mem inRest)).symm⟩
  cases kind : isLetter first with
  | true => exact .inl fun char inStretch => (same char inStretch).trans kind
  | false => exact .inr fun char inStretch => (same char inStretch).trans kind

end Text

namespace Lexeme

theorem scan_flatten {stretches : List (List Char)}
    (parted : stretches.IsChain fun left right => ∃ leftFilled rightFilled,
      (Text.isLetter (left.getLast leftFilled) == Text.isLetter (right.head rightFilled)) = false) :
    scan none stretches.flatten = stretches.flatMap (scan none) := by
  induction stretches with
  | nil => exact scan.eq_1 none
  | cons left rest ih =>
      rw [List.flatten_cons, List.flatMap_cons, ← ih parted.tail]
      apply scan_append
      intro last isLast next isNext
      right
      cases rest with
      | nil => cases isNext
      | cons right others =>
          obtain ⟨leftFilled, rightFilled, differ⟩ := parted.rel
          rw [List.flatten_cons, List.head?_append_of_ne_nil _ rightFilled,
            List.head?_eq_some_head rightFilled] at isNext
          rw [List.getLast?_eq_some_getLast leftFilled] at isLast
          cases isLast
          cases isNext
          exact ne_of_beq_false differ

/-- No part of a text reaches from one stretch into the next. -/
theorem scan_stretches (text : List Char) :
    scan none text = (Text.stretches text).flatMap (scan none) := by
  have parted := List.isChain_getLast_head_splitBy
    (fun first second => Text.isLetter first == Text.isLetter second) text
  rw [Text.stretches, ← scan_flatten parted, List.flatten_splitBy]

theorem Spelled.whole {before : Option Char} {op : Connective} {head tail : List Char}
    (spelled : Spelled before op head tail)
    (letters : ∀ char ∈ head ++ tail, Text.isLetter char = true) :
    tail = [] ∧ head.map Char.toLower = op.word.toList := by
  rw [List.forall_mem_append] at letters
  constructor
  · obtain ⟨first, others, rfl⟩ := spelled.exists_cons
    have apart := spelled.apart_of_letter List.mem_cons_self (letters.1 first List.mem_cons_self)
    cases tail with
    | nil => rfl
    | cons next rest =>
        have unlettered := apart.2 next rfl
        rw [letters.2 next List.mem_cons_self] at unlettered
        cases unlettered
  · apply Connective.eq_word spelled.listed
    intro lower inLower
    obtain ⟨char, member, rfl⟩ := List.mem_map.mp inLower
    rw [Text.letter_to_lower, letters.1 char member]

theorem scan_letters {run : List Char} (nonempty : run ≠ [])
    (letters : ∀ char ∈ run, Text.isLetter char = true) :
    (∃ op, run.map Char.toLower = op.word.toList ∧ scan none run = [connective op run]) ∨
      scan none run = run.map mark := by
  have cut := cut_scan none run
  have whole := flat_map_text_scan none run
  generalize scan none run = parts at cut whole ⊢
  cases cut with
  | done => exact (nonempty rfl).elim
  | @blank _ char rest _ space behind =>
      exact (Text.not_blank_of_letter (letters char List.mem_cons_self) space).elim
  | @connective _ _ head tail op _ visible longest behind =>
      have joined := longest.joined
      obtain ⟨rfl, word⟩ := longest.spelled.whole (joined ▸ letters)
      rw [List.append_nil] at joined
      subst joined
      rw [cut_iff.mp behind, scan]
      exact .inl ⟨op, word, rfl⟩
  | @mark _ char rest parts visible unspelled behind =>
      rw [List.flatMap_cons] at whole
      have isRest : parts.flatMap text = rest := (List.cons.inj whole).2
      rw [← List.append_nil parts] at behind
      have marks := marks_behind_letter behind (letters char List.mem_cons_self)
        (isRest ▸ fun other inRest => letters other (List.mem_cons_of_mem char inRest))
      rw [isRest] at marks
      exact .inr (congrArg (mark char :: ·) marks)

end Lexeme

end BooleanCube
