import BooleanCube.Lexeme
import BooleanCube.Proofs.RoundTrip

/-!
# How a text is cut

The rule for the parts of a text, said without a search: white space stands alone, then the longest
spelling that fits is taken, and where none fits a single character is. There is one way to cut a
text by this rule, and the scanner finds it.
-/

namespace BooleanCube

namespace Lexeme

/-- A spelling of the connective, in any case, that stands in front of `tail`. If it is a word, the
characters on both sides are no letters. -/
structure Spelled (before : Option Char) (op : Connective) (head tail : List Char) : Prop where
  listed : (head.map Char.toLower, op) ∈ Connective.vocabulary
  apart : (∀ char ∈ head.map Char.toLower, Text.isLetter char = true) →
    (∀ char ∈ before, Text.isLetter char = false) ∧
      ∀ char ∈ tail.head?, Text.isLetter char = false

structure Longest (before : Option Char) (text : List Char) (op : Connective)
    (head tail : List Char) : Prop where
  joined : head ++ tail = text
  spelled : Spelled before op head tail
  longest : ∀ other otherHead otherTail, otherHead ++ otherTail = text →
    Spelled before other otherHead otherTail → otherHead.length ≤ head.length

def Unspelled (before : Option Char) (text : List Char) : Prop :=
  ∀ op head tail, head ++ tail = text → ¬Spelled before op head tail

/-- The parts of a text that follows the character `before`. -/
inductive Cut : Option Char → List Char → List Lexeme → Prop where
  | done {before : Option Char} : Cut before [] []
  | blank {before : Option Char} {char : Char} {rest : List Char} {parts : List Lexeme}
      (space : Text.isBlank char = true) (behind : Cut (some char) rest parts) :
      Cut before (char :: rest) (blank char :: parts)
  | connective {before : Option Char} {text head tail : List Char} {op : Connective}
      {parts : List Lexeme} (visible : ∀ char ∈ text.head?, Text.isBlank char = false)
      (longest : Longest before text op head tail) (behind : Cut head.getLast? tail parts) :
      Cut before text (connective op head :: parts)
  | mark {before : Option Char} {char : Char} {rest : List Char} {parts : List Lexeme}
      (visible : Text.isBlank char = false) (unspelled : Unspelled before (char :: rest))
      (behind : Cut (some char) rest parts) : Cut before (char :: rest) (mark char :: parts)

theorem cut_eq_some_iff {spelling text head tail : List Char} :
    cut? spelling text = some (head, tail) ↔
      head.map Char.toLower = spelling ∧ head ++ tail = text := by
  constructor
  · exact append_of_cut
  · rintro ⟨rfl, rfl⟩
    simp [cut?]

theorem word_iff {spelling : List Char} {op : Connective}
    (listed : (spelling, op) ∈ Connective.vocabulary) :
    spelling.head?.any Text.isLetter = true ↔ ∀ char ∈ spelling, Text.isLetter char = true := by
  have checked : Connective.vocabulary.all (fun entry =>
      entry.1.head?.any Text.isLetter == entry.1.all Text.isLetter) = true := by decide
  have same := eq_of_beq (List.all_eq_true.mp checked _ listed)
  rw [same, List.all_eq_true]

theorem stands_apart_iff {before : Option Char} {spelling tail : List Char} {op : Connective}
    (listed : (spelling, op) ∈ Connective.vocabulary) :
    standsApart before spelling tail = true ↔
      ((∀ char ∈ spelling, Text.isLetter char = true) →
        (∀ char ∈ before, Text.isLetter char = false) ∧
          ∀ char ∈ tail.head?, Text.isLetter char = false) := by
  rw [← word_iff listed, standsApart]
  cases spelling.head?.any Text.isLetter with
  | false => simp
  | true => cases before <;> cases tail.head? <;> simp

def fit? (before : Option Char) (text : List Char) (entry : List Char × Connective) :
    Option (Connective × List Char × List Char) :=
  match cut? entry.1 text with
  | some (head, tail) =>
      if standsApart before entry.1 tail then some (entry.2, head, tail) else none
  | none => none

theorem connective_at_eq (before : Option Char) (text : List Char) :
    connectiveAt? before text = Connective.vocabulary.findSome? (fit? before text) := rfl

theorem fit_eq_some_iff {before : Option Char} {text head tail : List Char}
    {entry : List Char × Connective} {op : Connective} (member : entry ∈ Connective.vocabulary) :
    fit? before text entry = some (op, head, tail) ↔
      entry = (head.map Char.toLower, op) ∧ head ++ tail = text ∧ Spelled before op head tail := by
  rcases entry with ⟨spelling, named⟩
  constructor
  · intro fits
    rw [fit?] at fits
    split at fits
    · next first behind cut =>
        obtain ⟨spelled, joined⟩ := append_of_cut cut
        simp only [Option.ite_none_right_eq_some, Option.some.injEq, Prod.mk.injEq] at fits
        obtain ⟨apart, rfl, rfl, rfl⟩ := fits
        have lower : first.map Char.toLower = spelling := spelled
        subst lower
        exact ⟨rfl, joined, member, (stands_apart_iff member).mp apart⟩
    · cases fits
  · rintro ⟨same, joined, spelled⟩
    cases same
    have cut := cut_eq_some_iff.mpr ⟨rfl, joined⟩
    have apart := (stands_apart_iff spelled.listed).mpr spelled.apart
    simp only [fit?, cut, apart, if_true]

/-- Where two spellings begin alike, the longer one is listed first. -/
theorem vocabulary_order :
    Connective.vocabulary.Pairwise fun earlier later => ¬earlier.1 <+: later.1 := by
  decide

theorem longest_of_connective_at {before : Option Char} {text head tail : List Char}
    {op : Connective} (found : connectiveAt? before text = some (op, head, tail)) :
    Longest before text op head tail := by
  rw [connective_at_eq] at found
  obtain ⟨earlier, entry, later, split, fits, missed⟩ := List.findSome?_eq_some_iff.mp found
  have member : entry ∈ Connective.vocabulary := by
    rw [split]
    exact List.mem_append_right _ List.mem_cons_self
  obtain ⟨same, joined, spelled⟩ := (fit_eq_some_iff member).mp fits
  refine ⟨joined, spelled, ?_⟩
  intro other otherHead otherTail otherJoined otherSpelled
  have otherFits := (fit_eq_some_iff otherSpelled.listed).mpr ⟨rfl, otherJoined, otherSpelled⟩
  -- A longer spelling would begin with the one found, and then it would be listed before it.
  apply Nat.not_lt.mp
  intro longer
  have begins : head <+: otherHead :=
    List.prefix_of_prefix_length_le ⟨tail, joined⟩ ⟨otherTail, otherJoined⟩ (by omega)
  have otherListed := otherSpelled.listed
  have order := vocabulary_order
  rw [split] at otherListed order
  rcases List.mem_append.mp otherListed with before | behind
  · rw [missed _ before] at otherFits
    cases otherFits
  · rcases List.mem_cons.mp behind with isEntry | isLater
    · rw [same, Prod.mk.injEq] at isEntry
      have sameLength := congrArg List.length isEntry.1
      simp only [List.length_map] at sameLength
      omega
    · have apart := (List.pairwise_cons.mp (List.pairwise_append.mp order).2.1).1 _ isLater
      rw [same] at apart
      exact apart (begins.map Char.toLower)

theorem unspelled_of_connective_at {before : Option Char} {text : List Char}
    (missed : connectiveAt? before text = none) : Unspelled before text := by
  intro op head tail joined spelled
  rw [connective_at_eq, List.findSome?_eq_none_iff] at missed
  have fits := (fit_eq_some_iff spelled.listed).mpr ⟨rfl, joined, spelled⟩
  rw [missed _ spelled.listed] at fits
  cases fits

theorem vocabulary_keys :
    ∀ entry ∈ Connective.vocabulary, ∀ other ∈ Connective.vocabulary,
      entry.1 = other.1 → entry = other := by
  decide

theorem Longest.unique {before : Option Char} {text head tail otherHead otherTail : List Char}
    {op other : Connective} (longest : Longest before text op head tail)
    (otherLongest : Longest before text other otherHead otherTail) :
    (op, head, tail) = (other, otherHead, otherTail) := by
  have sameLength : head.length = otherHead.length :=
    Nat.le_antisymm
      (otherLongest.longest op head tail longest.joined longest.spelled)
      (longest.longest other otherHead otherTail otherLongest.joined otherLongest.spelled)
  obtain ⟨sameHead, sameTail⟩ :=
    List.append_inj (longest.joined.trans otherLongest.joined.symm) sameLength
  subst sameHead sameTail
  have sameEntry := vocabulary_keys _ longest.spelled.listed _ otherLongest.spelled.listed rfl
  rw [Prod.mk.injEq] at sameEntry
  rw [sameEntry.2]

theorem connective_at_eq_some_iff {before : Option Char} {text head tail : List Char}
    {op : Connective} :
    connectiveAt? before text = some (op, head, tail) ↔ Longest before text op head tail := by
  constructor
  · exact longest_of_connective_at
  · intro longest
    rcases found : connectiveAt? before text with _ | ⟨other, otherHead, otherTail⟩
    · exact (unspelled_of_connective_at found op head tail longest.joined longest.spelled).elim
    · rw [(longest_of_connective_at found).unique longest]

theorem connective_at_eq_none_iff {before : Option Char} {text : List Char} :
    connectiveAt? before text = none ↔ Unspelled before text := by
  constructor
  · exact unspelled_of_connective_at
  · intro unspelled
    rw [Option.eq_none_iff_forall_ne_some]
    rintro ⟨op, head, tail⟩ found
    have longest := longest_of_connective_at found
    exact unspelled op head tail longest.joined longest.spelled

theorem cut_scan (before : Option Char) (text : List Char) :
    Cut before text (scan before text) := by
  fun_induction scan before text with
  | case1 => exact .done
  | case2 before char rest space ih => exact .blank space ih
  | case3 before char rest visible op head tail found ih =>
      refine .connective ?_ (longest_of_connective_at found) ih
      intro first isFirst
      cases isFirst
      exact Bool.eq_false_iff.mpr visible
  | case4 before char rest visible missed ih =>
      exact .mark (Bool.eq_false_iff.mpr visible) (unspelled_of_connective_at missed) ih

def Genuine : Lexeme → Prop
  | blank char => Text.isBlank char = true
  | connective op spelling => (spelling.map Char.toLower, op) ∈ Connective.vocabulary
  | mark char => Text.isBlank char = false

theorem Cut.genuine {before : Option Char} {text : List Char} {parts : List Lexeme}
    (cut : Cut before text parts) : ∀ part ∈ parts, part.Genuine := by
  induction cut with
  | done => simp
  | blank space _ ih => exact List.forall_mem_cons.mpr ⟨space, ih⟩
  | connective _ longest _ ih => exact List.forall_mem_cons.mpr ⟨longest.spelled.listed, ih⟩
  | mark visible _ _ ih => exact List.forall_mem_cons.mpr ⟨visible, ih⟩

/-- The rule cuts every text in exactly one way, and that is how it is scanned. -/
theorem cut_iff {before : Option Char} {text : List Char} {parts : List Lexeme} :
    Cut before text parts ↔ parts = scan before text := by
  constructor
  · intro cut
    induction cut with
    | done => rw [scan]
    | @blank before char rest parts space behind ih => rw [scan, if_pos space, ih]
    | @connective before text head tail op parts visible longest behind ih =>
        have found := connective_at_eq_some_iff.mpr longest
        obtain ⟨first, rest, rfl⟩ := List.exists_cons_of_length_pos
          (Nat.zero_lt_of_lt (length_of_connective_at found))
        rw [scan_connective (visible first rfl) found, ih]
    | @mark before char rest parts visible unspelled behind ih =>
        rw [scan_mark visible (connective_at_eq_none_iff.mpr unspelled), ih]
  · rintro rfl
    exact cut_scan before text

end Lexeme

end BooleanCube
