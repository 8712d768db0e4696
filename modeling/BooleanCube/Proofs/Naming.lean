import BooleanCube.Proofs.Spacing
import BooleanCube.Proofs.Words
import Mathlib.Data.List.TakeWhile

/-!
# Names

The name of a connective or of a variable is also an expression of one token, with white space
around it or without. Where no negation is written, an expression of one connective or of one
variable is such a name.
-/

namespace BooleanCube

namespace Text

theorem exists_trim (text : List Char) :
    ∃ left right, left ++ trim text ++ right = text ∧ (∀ char ∈ left, isBlank char = true) ∧
      ∀ char ∈ right, isBlank char = true := by
  let behind := (text.dropWhile isBlank).reverse
  refine ⟨text.takeWhile isBlank, (behind.takeWhile isBlank).reverse, ?_, ?_, ?_⟩
  · have ends : trim text ++ (behind.takeWhile isBlank).reverse = text.dropWhile isBlank := by
      rw [trim, ← List.reverse_append, List.takeWhile_append_dropWhile, List.reverse_reverse]
    rw [List.append_assoc, ends, List.takeWhile_append_dropWhile]
  · exact fun char member => List.mem_takeWhile_imp member
  · exact fun char member => List.mem_takeWhile_imp (List.mem_reverse.mp member)

theorem drop_blanks {left core : List Char} (blank : ∀ char ∈ left, isBlank char = true)
    (visible : ∀ char ∈ core.head?, isBlank char = false) (nonempty : core ≠ []) :
    (left ++ core).dropWhile isBlank = core := by
  obtain ⟨first, rest, rfl⟩ := List.exists_cons_of_ne_nil nonempty
  rw [List.dropWhile_append_of_pos blank, List.dropWhile_cons_of_neg]
  rw [visible first rfl]
  decide

theorem trim_padded {left core right : List Char} (leftBlank : ∀ char ∈ left, isBlank char = true)
    (rightBlank : ∀ char ∈ right, isBlank char = true)
    (visible : ∀ char ∈ core, isBlank char = false) (nonempty : core ≠ []) :
    trim (left ++ core ++ right) = core := by
  have forwards : (left ++ (core ++ right)).dropWhile isBlank = core ++ right := by
    apply drop_blanks leftBlank
    · intro char isFirst
      rw [List.head?_append_of_ne_nil _ nonempty] at isFirst
      exact visible char (List.mem_of_head? isFirst)
    · exact List.append_ne_nil_of_left_ne_nil nonempty right
  have backwards : (right.reverse ++ core.reverse).dropWhile isBlank = core.reverse := by
    apply drop_blanks
    · exact fun char member => rightBlank char (List.mem_reverse.mp member)
    · exact fun char isFirst => visible char (List.mem_reverse.mp (List.mem_of_head? isFirst))
    · exact mt List.reverse_eq_nil_iff.mp nonempty
  rw [trim, List.append_assoc, forwards, List.reverse_append, backwards, List.reverse_reverse]

end Text

theorem Connective.of_spelling_eq_some_iff {spelling : List Char} {op : Connective} :
    ofSpelling? spelling = some op ↔ (spelling.map Char.toLower, op) ∈ vocabulary := by
  constructor
  · intro found
    obtain ⟨earlier, later, split, -⟩ := List.lookup_eq_some_iff.mp found
    rw [split]
    exact List.mem_append_right earlier List.mem_cons_self
  · have found : ∀ entry ∈ vocabulary, vocabulary.lookup entry.1 = some entry.2 := by decide
    exact fun listed => found _ listed

theorem Connective.read_eq_ok_iff {text : String} {op : Connective} :
    read text = .ok op ↔ ((Text.trim text.toList).map Char.toLower, op) ∈ vocabulary := by
  rw [← of_spelling_eq_some_iff, read]
  cases ofSpelling? (Text.trim text.toList) with
  | none => simp
  | some other => simp

theorem Variable.read_eq_ok_iff {text : String} {var : Variable} :
    read text = .ok var ↔ ∃ char, Text.trim text.toList = [char] ∧ ofLetter? char = some var := by
  rw [read]
  rcases Text.trim text.toList with _ | ⟨char, _ | ⟨other, rest⟩⟩
  · simp
  · cases named : ofLetter? char <;> simp [named]
  · simp

theorem Lexeme.mark_of_tokenless {char : Char} (tokenless : (mark char).token? = none) :
    char ∈ Reading.negationSigns ∨ char = macron ∨ (mark char).item = .unknown char := by
  unfold token? item at tokenless
  unfold item
  split at tokenless
  all_goals rename_i same
  all_goals cases same
  all_goals first
    | exact .inl (by decide)
    | exact .inr (.inl rfl)
    | exact .inr (.inr rfl)
    | cases tokenless

theorem Lexeme.connective_of_token {part : Lexeme} {op : Connective}
    (isToken : part.token? = some (.connective op)) :
    ∃ spelling, part = connective op spelling := by
  cases part with
  | connective other spelling =>
      cases isToken
      exact ⟨spelling, rfl⟩
  | blank char => cases isToken
  | mark char =>
      unfold token? item at isToken
      split at isToken
      all_goals rename_i same
      all_goals cases same
      all_goals cases isToken

namespace Expression

theorem read_trimmed {text : String} {expression : Expression}
    (done : read (String.ofList (Text.trim text.toList)) = .ok expression) :
    read text = .ok expression := by
  obtain ⟨left, right, joined, leftBlank, rightBlank⟩ := Text.exists_trim text.toList
  have padded := read_padded leftBlank rightBlank done
  rwa [← String.ofList_append, ← String.ofList_append, joined, String.ofList_toList] at padded

theorem read_spelling {spelling : List Char} {op : Connective}
    (listed : (spelling.map Char.toLower, op) ∈ Connective.vocabulary) :
    read (String.ofList spelling) = .ok [.connective op] := by
  have longest : Lexeme.Longest none spelling op spelling [] := by
    refine ⟨List.append_nil spelling, ⟨listed, fun _ => ⟨by simp, by simp⟩⟩, ?_⟩
    rintro other head tail rfl -
    simp
  have visible : ∀ char ∈ spelling.head?, Text.isBlank char = false := by
    intro char isFirst
    exact Lexeme.visible_of_listed listed char (List.mem_of_head? isFirst)
  have parts := Lexeme.cut_iff.mp (Lexeme.Cut.connective visible longest .done)
  rw [read, String.toList_ofList, ← parts]
  rfl

theorem read_letter {char : Char} {var : Variable} (named : Variable.ofLetter? char = some var) :
    read (String.ofList [char]) = .ok [.operand (.plain var)] := by
  unfold Variable.ofLetter? at named
  split at named
  all_goals cases named
  all_goals decide +kernel

section Unsigned

variable {text : String} (unsigned : ∀ char ∈ text.toList,
  char ∉ Reading.negationSigns ∧ char ≠ macron)

include unsigned

/-- Where no negation is written, the parts of an expression that give no token are white space. -/
theorem blank_of_tokenless {expression : Expression} (done : read text = .ok expression)
    {part : Lexeme} (member : part ∈ Lexeme.scan none text.toList)
    (tokenless : part.token? = none) : ∀ char ∈ part.text, Text.isBlank char = true := by
  cases part with
  | blank char =>
      have space := (Lexeme.cut_scan none text.toList).genuine _ member
      exact List.forall_mem_singleton.mpr space
  | connective op spelling => cases tokenless
  | mark char =>
      have inText := Lexeme.mem_of_mark member
      rcases Lexeme.mark_of_tokenless tokenless with sign | isMacron | unknown
      · exact ((unsigned char inText).1 sign).elim
      · exact ((unsigned char inText).2 isMacron).elim
      · have readable := (acceptable_of_read done).readable
        exact (readable char (List.mem_map.mpr ⟨_, member, unknown⟩)).elim

/-- Where no negation is written, an expression of one token is one part with white space around
it. -/
theorem exists_part {token : Token} (done : read text = .ok [token]) :
    ∃ part : Lexeme, part.Genuine ∧ part.token? = some token.plain ∧
      ∃ left right, left ++ part.text ++ right = text.toList ∧
        (∀ char ∈ left, Text.isBlank char = true) ∧ ∀ char ∈ right, Text.isBlank char = true := by
  have plain := plain_of_read done
  obtain ⟨front, part, behind, parts, frontTokenless, isToken, behindNil⟩ :=
    List.filterMap_eq_cons_iff.mp plain.symm
  have behindTokenless := List.filterMap_eq_nil_iff.mp behindNil
  have whole := Lexeme.flat_map_text_scan none text.toList
  have genuine := (Lexeme.cut_scan none text.toList).genuine
  have blank {others : List Lexeme} (among : ∀ other ∈ others, other ∈ Lexeme.scan none text.toList)
      (tokenless : ∀ other ∈ others, other.token? = none) :
      ∀ char ∈ others.flatMap Lexeme.text, Text.isBlank char = true := by
    intro char inText
    obtain ⟨other, member, inPart⟩ := List.mem_flatMap.mp inText
    exact blank_of_tokenless unsigned done (among other member) (tokenless other member) char inPart
  rw [parts] at whole genuine blank
  rw [List.flatMap_append, List.flatMap_cons, ← List.append_assoc] at whole
  refine ⟨part, genuine part (by simp), isToken, _, _, whole, ?_, ?_⟩
  · exact blank (fun other member => List.mem_append_left _ member) frontTokenless
  · exact blank (fun other member => List.mem_append_right _ (List.mem_cons_of_mem _ member))
      behindTokenless

theorem named_connective {op : Connective} (done : read text = .ok [.connective op]) :
    Connective.read text = .ok op := by
  obtain ⟨part, genuine, isToken, left, right, joined, leftBlank, rightBlank⟩ :=
    exists_part unsigned done
  obtain ⟨spelling, rfl⟩ := Lexeme.connective_of_token isToken
  have listed : (spelling.map Char.toLower, op) ∈ Connective.vocabulary := genuine
  have trimmed : Text.trim text.toList = spelling := by
    rw [← joined]
    exact Text.trim_padded leftBlank rightBlank (Lexeme.visible_of_listed listed)
      (Lexeme.nonempty_of_listed listed)
  rwa [Connective.read_eq_ok_iff, trimmed]

theorem named_variable {literal : Literal} (done : read text = .ok [.operand literal]) :
    Variable.read text = .ok literal.var := by
  obtain ⟨part, genuine, isToken, left, right, joined, leftBlank, rightBlank⟩ :=
    exists_part unsigned done
  obtain ⟨char, rfl, -, named⟩ := Lexeme.letter_of_item (Lexeme.item_of_operand isToken)
  rw [Variable.read_eq_ok_iff, ← joined]
  refine ⟨char, Text.trim_padded leftBlank rightBlank ?_ (List.cons_ne_nil char []), named⟩
  exact List.forall_mem_singleton.mpr genuine

end Unsigned

/-- The names of connectives and variables are expressions of one token, and these are their names
unless a negation is written. -/
theorem names_read_alike (text : String) :
    (∀ op, Connective.read text = .ok op → read text = .ok [.connective op]) ∧
      (∀ var, Variable.read text = .ok var → read text = .ok [.operand (.plain var)]) ∧
      ((∀ char ∈ text.toList, char ∉ Reading.negationSigns ∧ char ≠ macron) →
        (∀ op, read text = .ok [.connective op] → Connective.read text = .ok op) ∧
          ∀ literal, read text = .ok [.operand literal] →
            Variable.read text = .ok literal.var) := by
  refine ⟨?_, ?_, ?_⟩
  · intro op named
    exact read_trimmed (read_spelling (Connective.read_eq_ok_iff.mp named))
  · intro var named
    obtain ⟨char, trimmed, isLetter⟩ := Variable.read_eq_ok_iff.mp named
    apply read_trimmed
    rw [trimmed]
    exact read_letter isLetter
  · intro unsigned
    exact ⟨fun op done => named_connective unsigned done,
      fun literal done => named_variable unsigned done⟩

end Expression

end BooleanCube
