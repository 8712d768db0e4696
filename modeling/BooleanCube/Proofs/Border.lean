import BooleanCube.Proofs.Cutting

/-!
# Borders

No spelling goes on over white space, and none goes on from letters to other characters or back,
since it is a word or has no letters at all. So a text falls apart at such a border, and each side
is cut as if it stood alone.
-/

namespace BooleanCube

namespace Text

theorem letter_iff {char : Char} :
    isLetter char = true ↔
      (65 ≤ char.toNat ∧ char.toNat ≤ 90) ∨ (97 ≤ char.toNat ∧ char.toNat ≤ 122) := by
  constructor
  · intro letter
    rcases Bool.or_eq_true_iff.mp letter with upper | lower
    · exact .inl (of_decide_eq_true upper)
    · have bounds := Bool.and_eq_true_iff.mp lower
      exact .inr ⟨of_decide_eq_true bounds.1, of_decide_eq_true bounds.2⟩
  · rintro (upper | ⟨low, high⟩)
    · exact Bool.or_eq_true_iff.mpr (.inl (decide_eq_true upper))
    · have lower := Bool.and_eq_true_iff.mpr ⟨decide_eq_true low, decide_eq_true high⟩
      exact Bool.or_eq_true_iff.mpr (.inr lower)

theorem letter_to_lower (char : Char) : isLetter char.toLower = isLetter char := by
  by_cases upper : char.val ≥ 'A'.val ∧ char.val ≤ 'Z'.val
  · have range : 65 ≤ char.toNat ∧ char.toNat ≤ 90 := upper
    have moved : char.toLower.val = char.val + 32 := congrArg Char.val (dif_pos upper)
    have shifted : char.toLower.toNat = (char.toNat + 32) % 2 ^ 32 := by
      rw [Char.toNat, moved, UInt32.toNat_add]
      rfl
    rw [Bool.eq_iff_iff, letter_iff, letter_iff]
    omega
  · have same : char.toLower = char := dif_neg upper
    rw [same]

theorem letter_of_blank {char : Char} (blank : isBlank char = true) : isLetter char = false := by
  rw [Bool.eq_false_iff]
  intro letter
  have range := letter_iff.mp letter
  simp only [isBlank, within, blankRanges, List.any_cons, List.any_nil, Bool.or_false,
    Bool.or_eq_true, Bool.and_eq_true, decide_eq_true_iff] at blank
  omega

theorem not_blank_of_letter {char : Char} (letter : isLetter char = true) :
    ¬isBlank char = true := by
  intro blank
  rw [letter_of_blank blank] at letter
  cases letter

theorem to_lower_of_blank {char : Char} (blank : isBlank char = true) : char.toLower = char := by
  apply dif_neg
  intro upper
  exact not_blank_of_letter (letter_iff.mpr (.inl upper)) blank

/-- The first character behind the border is white space, or a letter stands on one side only. -/
def Border (left right : List Char) : Prop :=
  ∀ last ∈ left.getLast?, ∀ next ∈ right.head?,
    isBlank next = true ∨ isLetter last ≠ isLetter next

theorem Border.of_suffix (front : List Char) {left right : List Char}
    (border : Border (front ++ left) right) : Border left right := by
  intro last isLast
  apply border last
  rw [List.getLast?_append, Option.mem_def.mp isLast]
  rfl

theorem Border.unlettered {left right : List Char} (border : Border left right) {last next : Char}
    (isLast : last ∈ left.getLast?) (letter : isLetter last = true) (isNext : next ∈ right.head?) :
    isLetter next = false := by
  rcases border last isLast next isNext with blank | other
  · exact letter_of_blank blank
  · rw [letter] at other
    exact Bool.eq_false_iff.mpr (Ne.symm other)

end Text

namespace Lexeme

theorem vocabulary_nonempty : ∀ entry ∈ Connective.vocabulary, entry.1 ≠ [] := by decide

theorem vocabulary_visible :
    ∀ entry ∈ Connective.vocabulary, ∀ char ∈ entry.1, Text.isBlank char = false := by
  have checked : Connective.vocabulary.all (fun entry =>
      entry.1.all fun char => !Text.isBlank char) = true := by decide
  intro entry member char inSpelling
  have visible := List.all_eq_true.mp (List.all_eq_true.mp checked entry member) char inSpelling
  rwa [Bool.not_eq_true'] at visible

theorem vocabulary_uniform :
    ∀ entry ∈ Connective.vocabulary, ∀ first ∈ entry.1, ∀ second ∈ entry.1,
      Text.isLetter first = Text.isLetter second := by
  have checked : Connective.vocabulary.all (fun entry => entry.1.all fun first =>
      entry.1.all fun second => Text.isLetter first == Text.isLetter second) = true := by decide
  intro entry member first inSpelling second alsoInSpelling
  have uniform := List.all_eq_true.mp (List.all_eq_true.mp checked entry member) first inSpelling
  exact eq_of_beq (List.all_eq_true.mp uniform second alsoInSpelling)

section Listed

variable {op : Connective} {spelling : List Char}
  (listed : (spelling.map Char.toLower, op) ∈ Connective.vocabulary)

include listed

theorem visible_of_listed : ∀ char ∈ spelling, Text.isBlank char = false := by
  intro char member
  rw [Bool.eq_false_iff]
  intro blank
  have lower : char ∈ spelling.map Char.toLower :=
    List.mem_map.mpr ⟨char, member, Text.to_lower_of_blank blank⟩
  have visible := vocabulary_visible _ listed char lower
  rw [blank] at visible
  cases visible

theorem uniform_of_listed {first second : Char} (inSpelling : first ∈ spelling)
    (alsoInSpelling : second ∈ spelling) : Text.isLetter first = Text.isLetter second := by
  have uniform := vocabulary_uniform _ listed _ (List.mem_map_of_mem inSpelling) _
    (List.mem_map_of_mem alsoInSpelling)
  rwa [Text.letter_to_lower, Text.letter_to_lower] at uniform

theorem nonempty_of_listed : spelling ≠ [] := by
  rintro rfl
  exact vocabulary_nonempty _ listed rfl

end Listed

theorem Spelled.exists_cons {before : Option Char} {op : Connective} {head tail : List Char}
    (spelled : Spelled before op head tail) : ∃ first others, head = first :: others :=
  List.exists_cons_of_ne_nil (nonempty_of_listed spelled.listed)

theorem Spelled.apart_of_letter {before : Option Char} {op : Connective} {head tail : List Char}
    (spelled : Spelled before op head tail) {char : Char} (inHead : char ∈ head)
    (letter : Text.isLetter char = true) :
    (∀ char ∈ before, Text.isLetter char = false) ∧
      ∀ char ∈ tail.head?, Text.isLetter char = false := by
  apply spelled.apart
  intro lower inLower
  obtain ⟨other, member, rfl⟩ := List.mem_map.mp inLower
  rw [Text.letter_to_lower, uniform_of_listed spelled.listed member inHead, letter]

section Border

variable {before : Option Char} {text head tail rest : List Char} {op : Connective}

/-- To a spelling, what stands behind a border is no more than the end of the text. -/
theorem spelled_append_iff (border : Text.Border (head ++ tail) rest) :
    Spelled before op head (tail ++ rest) ↔ Spelled before op head tail := by
  cases tail with
  | cons next others => exact ⟨fun spelled => ⟨spelled.listed, spelled.apart⟩,
      fun spelled => ⟨spelled.listed, spelled.apart⟩⟩
  | nil =>
      rw [List.append_nil] at border
      constructor
      · intro spelled
        exact ⟨spelled.listed, fun word => ⟨(spelled.apart word).1, by simp⟩⟩
      · intro spelled
        refine ⟨spelled.listed, fun word => ⟨(spelled.apart word).1, ?_⟩⟩
        intro next isNext
        obtain ⟨others, last, rfl⟩ :=
          (List.eq_nil_or_concat head).resolve_left (nonempty_of_listed spelled.listed)
        have letter : Text.isLetter last = true := by
          rw [← Text.letter_to_lower]
          exact word _ (List.mem_map_of_mem (by simp))
        exact border.unlettered (by simp) letter isNext

/-- A spelling that begins in front of a border does not reach over it. -/
theorem spelled_before_border (border : Text.Border text rest) (nonempty : text ≠ [])
    (joined : head ++ tail = text ++ rest) (spelled : Spelled before op head tail) :
    ∃ inner, tail = inner ++ rest ∧ head ++ inner = text ∧ Spelled before op head inner := by
  have within (inner : List Char) (isText : head ++ inner = text) (isTail : tail = inner ++ rest) :
      ∃ inner, tail = inner ++ rest ∧ head ++ inner = text ∧ Spelled before op head inner := by
    subst isText isTail
    exact ⟨inner, rfl, rfl, (spelled_append_iff border).mp spelled⟩
  rcases List.append_eq_append_iff.mp joined with ⟨inner, isText, isTail⟩ | ⟨beyond, isHead, isRest⟩
  · exact within inner isText.symm isTail
  · cases beyond with
    | nil =>
        rw [List.append_nil] at isHead
        exact within [] (by rw [isHead, List.append_nil]) isRest.symm
    | cons next others =>
        obtain ⟨front, last, rfl⟩ := (List.eq_nil_or_concat text).resolve_left nonempty
        have nextInHead : next ∈ head := by simp [isHead]
        have lastInHead : last ∈ head := by simp [isHead]
        rcases border last (by simp) next (by simp [isRest]) with blank | other
        · have visible := visible_of_listed spelled.listed next nextInHead
          rw [blank] at visible
          cases visible
        · exact (other (uniform_of_listed spelled.listed lastInHead nextInHead)).elim

theorem Unspelled.append (unspelled : Unspelled before text) (border : Text.Border text rest)
    (nonempty : text ≠ []) : Unspelled before (text ++ rest) := by
  intro op head tail joined spelled
  obtain ⟨inner, -, innerJoined, innerSpelled⟩ :=
    spelled_before_border border nonempty joined spelled
  exact unspelled op head inner innerJoined innerSpelled

theorem Longest.append (longest : Longest before text op head tail)
    (border : Text.Border text rest) : Longest before (text ++ rest) op head (tail ++ rest) where
  joined := by rw [← List.append_assoc, longest.joined]
  spelled := (spelled_append_iff (longest.joined ▸ border)).mpr longest.spelled
  longest := by
    have nonempty : text ≠ [] := by
      rw [← longest.joined]
      exact List.append_ne_nil_of_left_ne_nil (nonempty_of_listed longest.spelled.listed) tail
    intro other otherHead otherTail joined spelled
    obtain ⟨inner, -, innerJoined, innerSpelled⟩ :=
      spelled_before_border border nonempty joined spelled
    exact longest.longest other otherHead inner innerJoined innerSpelled

/-- A text in front of a border is cut as if it ended there. -/
theorem Cut.append {parts more : List Lexeme} (cut : Cut before text parts)
    (border : Text.Border text rest) (behind : Cut (text.getLast?.or before) rest more) :
    Cut before (text ++ rest) (parts ++ more) := by
  induction cut with
  | done => exact behind
  | @blank before char text parts space _ ih =>
      rw [← List.singleton_append, List.getLast?_append, Option.or_assoc] at behind
      exact .blank space (ih (Text.Border.of_suffix [char] border) behind)
  | @connective before text head tail op parts visible longest _ ih =>
      obtain ⟨first, others, isHead⟩ := longest.spelled.exists_cons
      have isText := longest.joined
      have ends : head.getLast?.or before = head.getLast? := by
        rw [isHead, List.getLast?_cons, Option.some_or]
      refine .connective ?_ (longest.append border) (ih ?_ ?_)
      · rw [← isText, isHead] at visible ⊢
        exact visible
      · exact Text.Border.of_suffix head (isText ▸ border)
      · rwa [← isText, List.getLast?_append, Option.or_assoc, ends] at behind
  | @mark before char text parts visible unspelled _ ih =>
      rw [← List.singleton_append, List.getLast?_append, Option.or_assoc] at behind
      refine .mark visible (unspelled.append border (List.cons_ne_nil char text)) (ih ?_ behind)
      exact Text.Border.of_suffix [char] border

/-- Behind a character that touches no letter with a letter, a text is cut as if it began there. -/
theorem Cut.behind {last : Char} {parts : List Lexeme} (cut : Cut none text parts)
    (apart : Text.isLetter last = true → ∀ next ∈ text.head?, Text.isLetter next = false) :
    Cut (some last) text parts := by
  have same {op : Connective} {head tail : List Char} (joined : head ++ tail = text) :
      Spelled (some last) op head tail ↔ Spelled none op head tail := by
    constructor
    · intro spelled
      exact ⟨spelled.listed, fun word => ⟨by simp, (spelled.apart word).2⟩⟩
    · intro spelled
      refine ⟨spelled.listed, fun word => ⟨?_, (spelled.apart word).2⟩⟩
      rintro _ ⟨⟩
      obtain ⟨first, others, rfl⟩ := spelled.exists_cons
      have letter : Text.isLetter first = true := by
        rw [← Text.letter_to_lower]
        exact word _ List.mem_cons_self
      rw [Bool.eq_false_iff]
      intro lastLetter
      have unlettered := apart lastLetter first (by simp [← joined])
      rw [letter] at unlettered
      cases unlettered
  cases cut with
  | done => exact .done
  | blank space behind => exact .blank space behind
  | connective visible longest behind =>
      refine .connective visible ⟨longest.joined, (same longest.joined).mpr longest.spelled, ?_⟩
        behind
      intro other head tail joined spelled
      exact longest.longest other head tail joined ((same joined).mp spelled)
  | mark visible unspelled behind =>
      refine .mark visible ?_ behind
      intro op head tail joined spelled
      exact unspelled op head tail joined ((same joined).mp spelled)

end Border

theorem scan_append {left right : List Char} (border : Text.Border left right) :
    scan none (left ++ right) = scan none left ++ scan none right := by
  have behind : Cut (left.getLast?.or none) right (scan none right) := by
    rw [Option.or_none]
    cases isLast : left.getLast? with
    | none => exact cut_scan none right
    | some last =>
        apply (cut_scan none right).behind
        intro letter next isNext
        exact border.unlettered isLast letter isNext
  exact (cut_iff.mp ((cut_scan none left).append border behind)).symm

theorem marks_behind_letter {last : Char} {text : List Char} {parts more : List Lexeme}
    (cut : Cut (some last) text (parts ++ more)) (letter : Text.isLetter last = true)
    (letters : ∀ char ∈ parts.flatMap Lexeme.text, Text.isLetter char = true) :
    parts = (parts.flatMap Lexeme.text).map mark := by
  induction parts generalizing last text with
  | nil => rfl
  | cons part parts ih =>
      rw [List.flatMap_cons, List.forall_mem_append] at letters
      rw [List.cons_append] at cut
      cases cut with
      | @blank _ char rest _ space behind =>
          exact (Text.not_blank_of_letter (letters.1 char List.mem_cons_self) space).elim
      | @connective _ _ head tail op _ visible longest behind =>
          obtain ⟨first, others, rfl⟩ := longest.spelled.exists_cons
          have firstLetter := letters.1 first List.mem_cons_self
          have apart := longest.spelled.apart_of_letter List.mem_cons_self firstLetter
          rw [apart.1 last rfl] at letter
          cases letter
      | @mark _ char rest _ visible unspelled behind =>
          have charLetter := letters.1 char List.mem_cons_self
          rw [List.flatMap_cons, List.map_append, ← ih behind charLetter letters.2]
          rfl

end Lexeme

end BooleanCube
