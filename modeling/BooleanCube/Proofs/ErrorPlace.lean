import BooleanCube.Proofs.Words

/-!
# Where reading fails

An error names the first place that cannot be read: the text in front of it, read alone, is an
expression or lacks no more than the variable of a negation sign. To cut the text there might free a
word that a letter behind it kept from standing apart. But then all letters of that word have
already been taken as variables, and no word is spelled with the names of variables only.
-/

namespace BooleanCube

namespace Lexeme

theorem Cut.flat_map_text {before : Option Char} {text : List Char} {parts : List Lexeme}
    (cut : Cut before text parts) : parts.flatMap Lexeme.text = text := by
  rw [cut_iff.mp cut, flat_map_text_scan]

section Front

variable {before : Option Char} {op : Connective} {head tail rest : List Char}

theorem Spelled.shorten (spelled : Spelled before op head (tail ++ rest)) :
    Spelled before op head tail := by
  refine ⟨spelled.listed, fun word => ⟨(spelled.apart word).1, ?_⟩⟩
  intro next isNext
  apply (spelled.apart word).2
  rw [List.head?_append, Option.mem_def.mp isNext]
  rfl

/-- More text behind a spelling can only spoil a word at the very end. -/
theorem Spelled.extend (spelled : Spelled before op head tail) (rest : List Char) :
    Spelled before op head (tail ++ rest) ∨
      tail = [] ∧ ∀ char ∈ head, Text.isLetter char = true := by
  by_cases word : ∀ char ∈ head.map Char.toLower, Text.isLetter char = true
  · cases tail with
    | nil =>
        refine .inr ⟨rfl, ?_⟩
        intro char member
        rw [← Text.letter_to_lower]
        exact word _ (List.mem_map_of_mem member)
    | cons next others => exact .inl ⟨spelled.listed, spelled.apart⟩
  · exact .inl ⟨spelled.listed, fun other => (word other).elim⟩

theorem Spelled.exists_unnamed (spelled : Spelled before op head tail) :
    ∃ char ∈ head, char.toLower ∉ ['x', 'y', 'z'] := by
  have checked : Connective.vocabulary.all (fun entry =>
      entry.1.any fun char => decide (char ∉ ['x', 'y', 'z'])) = true := by decide
  obtain ⟨lower, inLower, foreign⟩ :=
    List.any_eq_true.mp (List.all_eq_true.mp checked _ spelled.listed)
  obtain ⟨char, member, rfl⟩ := List.mem_map.mp inLower
  exact ⟨char, member, of_decide_eq_true foreign⟩

def Named (parts : List Lexeme) : Prop :=
  ∀ char, mark char ∈ parts → Text.isLetter char = true → char.toLower ∈ ['x', 'y', 'z']

/-- Where the letters up to a place name variables, no spelling begins that the text up to there
would have and the whole text has not. -/
theorem unspelled_front {char : Char} {rest : List Char} {front behind : List Lexeme}
    (unspelled : Unspelled before (char :: rest)) (cut : Cut (some char) rest (front ++ behind))
    (named : Named (mark char :: front)) :
    Unspelled before (char :: front.flatMap Lexeme.text) := by
  have whole := cut.flat_map_text
  rw [List.flatMap_append] at whole
  intro op head tail joined spelled
  rcases spelled.extend (behind.flatMap Lexeme.text) with longer | ⟨rfl, letters⟩
  · apply unspelled op head _ _ longer
    rw [← List.append_assoc, joined, List.cons_append, whole]
  · rw [List.append_nil] at joined
    subst joined
    rw [List.forall_mem_cons] at letters
    have marks := marks_behind_letter cut letters.1 letters.2
    obtain ⟨other, member, unnamed⟩ := spelled.exists_unnamed
    rcases List.mem_cons.mp member with rfl | inFront
    · exact unnamed (named other List.mem_cons_self letters.1)
    · have isMark : mark other ∈ front := by
        rw [marks]
        exact List.mem_map_of_mem inFront
      exact unnamed (named other (List.mem_cons_of_mem _ isMark) (letters.2 other inFront))

theorem Longest.front (longest : Longest before (head ++ (tail ++ rest)) op head (tail ++ rest)) :
    Longest before (head ++ tail) op head tail where
  joined := rfl
  spelled := longest.spelled.shorten
  longest := by
    intro other otherHead otherTail joined spelled
    rcases spelled.extend rest with longer | ⟨rfl, letters⟩
    · apply longest.longest other otherHead _ _ longer
      rw [← List.append_assoc, joined, List.append_assoc]
    · -- The longer word would go on with letters right behind the word that was taken.
      rw [List.append_nil] at joined
      subst joined
      rw [(longest.spelled.shorten.whole letters).1, List.append_nil]

theorem Cut.front {text : List Char} {front behind : List Lexeme}
    (cut : Cut before text (front ++ behind)) (named : Named front) :
    Cut before (front.flatMap Lexeme.text) front := by
  induction front generalizing before text with
  | nil => exact .done
  | cons part front ih =>
      have namedFront : Named front := by
        intro char member
        exact named char (List.mem_cons_of_mem part member)
      rw [List.cons_append] at cut
      cases cut with
      | blank space cut => exact .blank space (ih cut namedFront)
      | @connective _ _ head tail op _ visible longest cut =>
          have whole := cut.flat_map_text
          have joined := longest.joined
          rw [List.flatMap_append] at whole
          subst joined whole
          refine .connective ?_ longest.front (ih cut namedFront)
          obtain ⟨first, others, rfl⟩ := longest.spelled.exists_cons
          exact visible
      | mark visible unspelled cut =>
          exact .mark visible (unspelled_front unspelled cut named) (ih cut namedFront)

end Front

end Lexeme

theorem Lexeme.size_eq (part : Lexeme) : part.size = (String.ofList part.text).utf8ByteSize := by
  rw [size]
  induction part.text with
  | nil => rfl
  | cons char rest ih =>
      rw [List.map_cons, List.foldr_cons, ih, String.ofList_cons, String.utf8ByteSize_append,
        String.utf8ByteSize_singleton]

namespace Reading

/-- A run that fails has taken all parts in front of the first one that is refused. -/
theorem run_fails {parts : List Lexeme} {reading : Reading} {error : ReadError}
    (failed : parts.foldlM step reading = .error error) :
    ∃ front part behind last, parts = front ++ part :: behind ∧
      front.foldlM step reading = .ok last ∧ last.step part = .error error := by
  induction parts generalizing reading with
  | nil => cases failed
  | cons part parts ih =>
      rw [List.foldlM_cons] at failed
      cases stepped : reading.step part with
      | error other =>
          rw [stepped] at failed
          cases failed
          exact ⟨[], part, parts, reading, rfl, rfl, stepped⟩
      | ok next =>
          rw [stepped] at failed
          obtain ⟨front, refused, behind, last, rfl, run, failure⟩ := ih failed
          refine ⟨part :: front, refused, behind, last, rfl, ?_, failure⟩
          rw [List.foldlM_cons, stepped]
          exact run

theorem run_offset {parts : List Lexeme} {reading last : Reading}
    (run : parts.foldlM step reading = .ok last) :
    last.offset = reading.offset + (String.ofList (parts.flatMap Lexeme.text)).utf8ByteSize := by
  induction parts generalizing reading with
  | nil =>
      cases run
      rfl
  | cons part parts ih =>
      rw [List.foldlM_cons] at run
      obtain ⟨next, stepped, behind⟩ := bind_eq_ok_iff.mp run
      obtain ⟨taken, -, moved⟩ := bind_eq_ok_iff.mp stepped
      cases moved
      rw [ih behind, List.flatMap_cons, String.ofList_append, String.utf8ByteSize_append,
        Lexeme.size_eq, Nat.add_assoc]

theorem step_refuses {reading : Reading} {part : Lexeme} {error : ReadError}
    (refused : reading.step part = .error error) :
    (∃ char, part = .mark char ∧ error = .unexpected char reading.offset) ∨
      (∃ op spelling, part = .connective op spelling ∧ reading.negating = true ∧
        error = .negatedConnective reading.offset) ∨
      part = .mark macron ∧ error = .strayMacron reading.offset := by
  have taken : reading.take part = .error error := by
    cases taken : reading.take part with
    | error other =>
        rw [step, taken] at refused
        cases refused
        rfl
    | ok next =>
        rw [step, taken] at refused
        cases refused
  cases part with
  | blank char => cases taken
  | connective op spelling =>
      rw [take] at taken
      split at taken
      · next negating =>
          cases taken
          exact .inr (.inl ⟨op, spelling, rfl, negating, rfl⟩)
      · cases taken
  | mark char =>
      rw [take, takeMark] at taken
      split at taken
      · cases taken
      split at taken
      · cases taken
      split at taken
      · cases taken
      split at taken
      · next isMacron =>
          split at taken
          · cases taken
          · cases taken
            exact .inr (.inr ⟨isMacron ▸ rfl, rfl⟩)
      split at taken
      · cases taken
      · cases taken
        exact .inl ⟨char, rfl, rfl⟩

theorem named_of_run {parts : List Lexeme} {last : Reading}
    (run : parts.foldlM step start = .ok last) : Lexeme.Named parts := by
  rcases run_reflects parts with ⟨-, -, -, allowed⟩ | ⟨⟨error, failed⟩, -⟩
  · intro char member letter
    rcases Lexeme.item_of_letter letter with ⟨var, -, named⟩ | unknown
    · rw [named]
      cases var <;> decide
    · exact (allowed.readable char (List.mem_map.mpr ⟨_, member, unknown⟩)).elim
  · rw [run] at failed
    cases failed

end Reading

namespace ReadError

def offset? : ReadError → Option Nat
  | unexpected _ offset | negatedConnective offset | strayMacron offset => some offset
  | danglingNegation => none

/-- An expression, but for a negation sign that may wait at its end. -/
def Begun (front : String) : Prop :=
  (∃ expression, Expression.read front = .ok expression) ∨
    Expression.read front = .error .danglingNegation

/-- What stands in a text where an error points, what stands in front of it, and the message. -/
inductive Located (text : String) : ReadError → String → Prop where
  | unexpected {char : Char} {front rest : String} (joined : front ++ char.toString ++ rest = text)
      (begun : Begun front) : Located text (.unexpected char front.utf8ByteSize)
        ("unexpected " ++ Text.quoteChar char ++ s!" at byte {front.utf8ByteSize}")
  | negatedConnective {op : Connective} {front spelling rest : String}
      (joined : front ++ spelling ++ rest = text)
      (spelled : (spelling.toList.map Char.toLower, op) ∈ Connective.vocabulary)
      (dangling : Expression.read front = .error .danglingNegation) :
      Located text (.negatedConnective front.utf8ByteSize)
        s!"negation before operator at byte {front.utf8ByteSize}"
  | strayMacron {front rest : String} (joined : front ++ macron.toString ++ rest = text)
      (begun : Begun front) : Located text (.strayMacron front.utf8ByteSize)
        s!"negation mark without a variable at byte {front.utf8ByteSize}"
  | danglingNegation : Located text .danglingNegation "dangling negation at end of input"

theorem inside_of_joined {text front here rest : String} (joined : front ++ here ++ rest = text)
    (filled : here ≠ "") :
    String.Pos.Raw.IsValid text ⟨front.utf8ByteSize⟩ ∧ front.utf8ByteSize < text.utf8ByteSize := by
  subst joined
  constructor
  · rw [String.Pos.Raw.isValid_iff_exists_append, String.append_assoc]
    exact ⟨front, here ++ rest, rfl, rfl⟩
  · have positive : here.utf8ByteSize ≠ 0 := mt String.utf8ByteSize_eq_zero_iff.mp filled
    rw [String.utf8ByteSize_append, String.utf8ByteSize_append]
    omega

theorem Located.inside {text message : String} {error : ReadError}
    (located : error.Located text message) {offset : Nat} (named : error.offset? = some offset) :
    String.Pos.Raw.IsValid text ⟨offset⟩ ∧ offset < text.utf8ByteSize := by
  cases located with
  | unexpected joined =>
      cases named
      exact inside_of_joined joined (by simp)
  | negatedConnective joined spelled =>
      cases named
      refine inside_of_joined joined ?_
      rintro rfl
      exact Lexeme.vocabulary_nonempty _ spelled rfl
  | strayMacron joined =>
      cases named
      exact inside_of_joined joined (by decide)
  | danglingNegation => cases named

end ReadError

namespace Expression

theorem read_front {text : String} {front behind : List Lexeme} {last : Reading}
    (parts : Lexeme.scan none text.toList = front ++ behind)
    (run : front.foldlM Reading.step .start = .ok last) :
    read (String.ofList (front.flatMap Lexeme.text)) = last.finish := by
  have cut := Lexeme.cut_iff.mpr parts.symm
  have same := Lexeme.cut_iff.mp (cut.front (Reading.named_of_run run))
  rw [read, String.toList_ofList, ← same, run]
  rfl

theorem begun_of_finish {front : String} {last : Reading} (done : read front = last.finish) :
    ReadError.Begun front := by
  rw [Reading.finish] at done
  split at done
  · exact .inr done
  · exact .inl ⟨_, done⟩

theorem exists_front {text : String} {error : ReadError}
    (failed : (Lexeme.scan none text.toList).foldlM Reading.step .start = .error error) :
    ∃ (front rest : String) (part : Lexeme) (last : Reading),
      front ++ String.ofList part.text ++ rest = text ∧ part.Genuine ∧ read front = last.finish ∧
        last.offset = front.utf8ByteSize ∧ last.step part = .error error := by
  obtain ⟨front, part, behind, last, parts, run, failure⟩ := Reading.run_fails failed
  have genuine := (Lexeme.cut_scan none text.toList).genuine
  have whole := Lexeme.flat_map_text_scan none text.toList
  have offset := Reading.run_offset run
  rw [Reading.start, Nat.zero_add] at offset
  rw [parts] at genuine whole
  rw [List.flatMap_append, List.flatMap_cons, ← List.append_assoc] at whole
  refine ⟨String.ofList (front.flatMap Lexeme.text), String.ofList (behind.flatMap Lexeme.text),
    part, last, ?_, genuine part (by simp), read_front parts run, offset, failure⟩
  rw [← String.ofList_append, ← String.ofList_append, whole, String.ofList_toList]

theorem located_of_failed {text : String} {error : ReadError}
    (failed : (Lexeme.scan none text.toList).foldlM Reading.step .start = .error error) :
    error.Located text error.message := by
  obtain ⟨front, rest, part, last, joined, genuine, done, offset, failure⟩ := exists_front failed
  rcases Reading.step_refuses failure with
    ⟨char, rfl, rfl⟩ | ⟨op, spelling, rfl, negating, rfl⟩ | ⟨rfl, rfl⟩
  · rw [offset]
    exact .unexpected joined (begun_of_finish done)
  · rw [Lexeme.Genuine, ← String.toList_ofList (l := spelling)] at genuine
    rw [Reading.finish, if_pos negating] at done
    rw [offset]
    exact .negatedConnective joined genuine done
  · rw [offset]
    exact .strayMacron joined (begun_of_finish done)

/-- Every error of reading but that of a negation sign at the end names the first place in the text
that cannot be read. -/
theorem read_error_located {text : String} {error : ReadError}
    (refused : read text = .error error) :
    error.Located text error.message ∧ ∀ offset, error.offset? = some offset →
      String.Pos.Raw.IsValid text ⟨offset⟩ ∧ offset < text.utf8ByteSize := by
  have located : error.Located text error.message := by
    rw [read] at refused
    cases run : (Lexeme.scan none text.toList).foldlM Reading.step .start with
    | error other =>
        rw [run] at refused
        cases refused
        exact located_of_failed run
    | ok last =>
        rw [run] at refused
        have finished : last.finish = .error error := refused
        rw [Reading.finish] at finished
        split at finished
        · cases finished
          exact .danglingNegation
        · cases finished
  exact ⟨located, fun offset named => located.inside named⟩

/-- The word `XOR` touches a letter, so it is none. The letter `O` is refused, and the text in front
of it ends with a negated variable. -/
theorem read_error_located_glued :
    let text := "(y\u0304 ↔ !XORq"
    read text = .error (.unexpected 'O' 11) ∧
      ReadError.Located text (.unexpected 'O' 11) "unexpected 'O' at byte 11" ∧
      String.Pos.Raw.IsValid text ⟨11⟩ ∧ 11 < text.utf8ByteSize := by
  intro text
  have refused : read text = .error (.unexpected 'O' 11) := by decide +kernel
  have message : ReadError.message (.unexpected 'O' 11) = "unexpected 'O' at byte 11" := by
    decide +kernel
  obtain ⟨located, inside⟩ := read_error_located refused
  exact ⟨refused, message ▸ located, inside 11 rfl⟩

end Expression

end BooleanCube
