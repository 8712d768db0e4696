import BooleanCube.Proofs.Cutting
import BooleanCube.Proofs.Item
import Mathlib.Data.List.Induction

/-!
# The language of expressions

The state of reading says of the items taken so far what the rules say of them: their tokens, and
whether an odd number of negation signs waits. An item is refused exactly if the rules do not allow
it there, so a text is read exactly if it is acceptable as a whole.
-/

namespace BooleanCube

theorem decide_odd_succ (count : Nat) : decide (Odd (count + 1)) = !decide (Odd count) := by
  rw [← decide_not, decide_eq_decide]
  exact Nat.odd_add_one

theorem bind_eq_ok_iff {α β ε : Type} {action : Except ε α} {next : α → Except ε β} {result : β} :
    action >>= next = .ok result ↔ ∃ value, action = .ok value ∧ next value = .ok result := by
  constructor
  · intro done
    cases action with
    | error error => cases done
    | ok value => exact ⟨value, rfl, done⟩
  · rintro ⟨value, rfl, done⟩
    exact done

namespace Reading

def takeItem (reading : Reading) : Item → Except ReadError Reading
  | .space => .ok reading
  | .negation => .ok { reading with negating := !reading.negating }
  | .macron =>
      match reading.tokens with
      | .operand literal :: earlier =>
          .ok { reading with tokens := .operand literal.negate :: earlier }
      | _ => .error (.strayMacron reading.offset)
  | .connective op =>
      if reading.negating then .error (.negatedConnective reading.offset)
      else .ok (reading.push (.connective op))
  | .opening => .ok (reading.push .opening)
  | .closing => .ok (reading.push .closing)
  | .letter var =>
      .ok { reading.push (.operand ⟨var, reading.negating⟩) with negating := false }
  | .unknown char => .error (.unexpected char reading.offset)

theorem take_eq_take_item (reading : Reading) (part : Lexeme) :
    reading.take part = reading.takeItem part.item := by
  cases part with
  | blank char => rfl
  | connective op spelling => rfl
  | mark char =>
      rw [take]
      unfold Lexeme.item
      split
      all_goals rename_i same
      all_goals cases same
      all_goals try rfl
      -- Only a character that none of the items is written with is left.
      simp_all [takeMark, takeItem, negationSigns, macron, Variable.ofLetter?]

/-- The state stands for the items taken so far. -/
structure Reflects (reading : Reading) (items : List Item) : Prop where
  tokens : reading.tokens.reverse = Item.expression items
  negating : reading.negating = decide (Odd (Item.waiting items))

section Step

variable {reading : Reading} {items : List Item}

theorem Reflects.push (reflects : reading.Reflects items) {item : Item} {token : Token}
    (stop : item.stops = true) (isToken : item.token? reading.negating = some token) :
    (reading.push token).tokens.reverse = Item.expression (items ++ [item]) := by
  have nonePass : ∀ item ∈ ([] : List Item), item.passes = true := by simp
  have last := Item.expression_last_token stop items nonePass
  have nothing : Item.macrons [] = 0 := rfl
  rw [nothing, Nat.add_zero, ← reflects.negating, isToken] at last
  rw [last, ← reflects.tokens]
  exact List.reverse_cons

theorem Reflects.bracket (reflects : reading.Reflects items) {item : Item} {token : Token}
    (stop : item.stops = true) (noLetter : item.isLetter = false)
    (isToken : item.token? reading.negating = some token) :
    (reading.push token).Reflects (items ++ [item]) where
  tokens := reflects.push stop isToken
  negating := by
    have noSign : item ≠ .negation := by
      rintro rfl
      cases stop
    rw [Item.waiting_snoc, noLetter, if_neg noSign]
    exact reflects.negating

/-- Behind a variable, with nothing but white space, negation signs and macrons in between, a macron
negates the token on top. -/
theorem Reflects.negate (reflects : reading.Reflects items) {var : Variable}
    (latest : Item.latest? items = some (.letter var)) :
    ∃ literal earlier, reading.tokens = .operand literal :: earlier ∧
      ({ reading with tokens := .operand literal.negate :: earlier } : Reading).Reflects
        (items ++ [.macron]) := by
  obtain ⟨-, front, middle, rfl, passing⟩ := Item.latest_eq_some latest
  have stop : (Item.letter var).stops = true := rfl
  have top : reading.tokens =
      .operand ⟨var, decide (Odd (Item.waiting front + Item.macrons middle))⟩ ::
        (Item.expression front).reverse := by
    have tokens := congrArg List.reverse reflects.tokens
    rw [Item.expression_last_token stop front passing] at tokens
    simpa [Item.token?] using tokens
  refine ⟨_, _, top, ?_, ?_⟩
  · have furtherPassing : ∀ item ∈ middle ++ [.macron], item.passes = true := by
      rw [List.forall_mem_append]
      exact ⟨passing, by simp [Item.passes]⟩
    rw [List.append_assoc, List.cons_append, Item.expression_last_token stop front furtherPassing,
      Item.macrons_of_passing passing, ← Nat.add_assoc, decide_odd_succ]
    simp [Item.token?, Literal.negate]
  · rw [Item.waiting_snoc]
    exact reflects.negating

/-- Where the rules attach a macron to no variable, the token on top is none. -/
theorem Reflects.detached (reflects : reading.Reflects items) (allowed : Item.Allowed items)
    (detached : ¬∃ var, Item.latest? items = some (.letter var)) (literal : Literal)
    (earlier : List Token) : reading.tokens ≠ .operand literal :: earlier := by
  intro top
  have tokens := reflects.tokens
  rw [top, List.reverse_cons] at tokens
  rcases latest : Item.latest? items with _ | item
  · have none := Item.expression_of_passing [] (Item.latest_eq_none latest)
    rw [Item.expression, none] at tokens
    simp at tokens
  · obtain ⟨visible, front, middle, rfl, passing⟩ := Item.latest_eq_some latest
    cases item with
    | space | negation | macron => cases visible
    | letter var => exact detached ⟨var, latest⟩
    | unknown char => exact allowed.readable char (by simp)
    | connective op | opening | closing =>
        rw [Item.expression_last_token rfl front passing] at tokens
        simp [Item.token?] at tokens

/-- One item: it is taken exactly if the rules allow it here, and then the state stands for one item
more. -/
theorem take_item_reflects (reflects : reading.Reflects items) (allowed : Item.Allowed items)
    (item : Item) :
    (∃ next, reading.takeItem item = .ok next ∧ next.Reflects (items ++ [item]) ∧
        Item.Allowed (items ++ [item])) ∨
      (∃ error, reading.takeItem item = .error error) ∧ ¬Item.Allowed (items ++ [item]) := by
  simp only [Item.allowed_snoc_iff, allowed, true_and]
  cases item with
  | space =>
      refine .inl ⟨reading, rfl, ⟨?_, ?_⟩, by simp⟩
      · rw [Item.expression_snoc_blank rfl (by decide)]
        exact reflects.tokens
      · rw [Item.waiting_snoc]
        exact reflects.negating
  | negation =>
      refine .inl ⟨_, rfl, ⟨?_, ?_⟩, by simp⟩
      · rw [Item.expression_snoc_blank rfl (by decide)]
        exact reflects.tokens
      · have flipped := decide_odd_succ (Item.waiting items)
        rw [← reflects.negating] at flipped
        rw [Item.waiting_snoc]
        exact flipped.symm
  | macron =>
      by_cases attached : ∃ var, Item.latest? items = some (.letter var)
      · obtain ⟨var, latest⟩ := attached
        obtain ⟨literal, earlier, top, negated⟩ := reflects.negate latest
        refine .inl ⟨_, ?_, negated, by simp, by simp, fun _ => ⟨var, latest⟩⟩
        rw [takeItem, top]
      · refine .inr ⟨⟨.strayMacron reading.offset, ?_⟩, ?_⟩
        · rw [takeItem]
          split
          · next literal earlier top => exact (reflects.detached allowed attached _ _ top).elim
          · rfl
        · intro conditions
          exact attached (conditions.2.2 rfl)
  | connective op =>
      cases waiting : reading.negating with
      | true =>
          refine .inr ⟨⟨.negatedConnective reading.offset, ?_⟩, ?_⟩
          · rw [takeItem, waiting, if_pos rfl]
          · intro conditions
            have odd := reflects.negating.symm.trans waiting
            exact Nat.not_even_iff_odd.mpr (of_decide_eq_true odd) (conditions.2.1 op rfl)
      | false =>
          have even := reflects.negating.symm.trans waiting
          refine .inl ⟨_, ?_, reflects.bracket rfl rfl rfl, by simp, ?_, by simp⟩
          · rw [takeItem, waiting, if_neg (by decide)]
          · intro _ _
            exact Nat.not_odd_iff_even.mp (of_decide_eq_false even)
  | opening | closing => exact .inl ⟨_, rfl, reflects.bracket rfl rfl rfl, by simp⟩
  | letter var =>
      refine .inl ⟨_, rfl, ⟨reflects.push rfl rfl, ?_⟩, by simp⟩
      rw [Item.waiting_snoc]
      rfl
  | unknown char =>
      refine .inr ⟨⟨_, rfl⟩, ?_⟩
      intro conditions
      exact conditions.1 char rfl

end Step

theorem start_reflects : start.Reflects [] := ⟨rfl, rfl⟩

theorem run_snoc {parts : List Lexeme} {reading : Reading}
    (run : parts.foldlM step start = .ok reading) (part : Lexeme) :
    (parts ++ [part]).foldlM step start = do
      let taken ← reading.takeItem part.item
      return { taken with offset := reading.offset + part.size } := by
  rw [List.foldlM_append, run, ← take_eq_take_item]
  exact bind_pure (reading.step part)

/-- A run over some parts ends in a state that stands for their items, or fails if the rules refuse
one of them. -/
theorem run_reflects (parts : List Lexeme) :
    (∃ reading, parts.foldlM step start = .ok reading ∧ reading.Reflects (parts.map Lexeme.item) ∧
        Item.Allowed (parts.map Lexeme.item)) ∨
      (∃ error, parts.foldlM step start = .error error) ∧
        ¬Item.Allowed (parts.map Lexeme.item) := by
  induction parts using List.reverseRecOn with
  | nil => exact .inl ⟨start, rfl, start_reflects, Item.allowed_nil⟩
  | append_singleton parts part ih =>
      rw [List.map_append, List.map_singleton]
      rcases ih with ⟨reading, run, reflects, allowed⟩ | ⟨⟨error, run⟩, refused⟩
      · rw [run_snoc run]
        rcases take_item_reflects reflects allowed part.item with
          ⟨next, taken, nextReflects, nextAllowed⟩ | ⟨⟨error, taken⟩, refused⟩
        · rw [taken]
          exact .inl ⟨_, rfl, ⟨nextReflects.tokens, nextReflects.negating⟩, nextAllowed⟩
        · rw [taken]
          exact .inr ⟨⟨error, rfl⟩, refused⟩
      · refine .inr ⟨⟨error, by rw [List.foldlM_append, run]; rfl⟩, ?_⟩
        intro allowed
        exact refused (Item.allowed_snoc_iff.mp allowed).1

end Reading

namespace Expression

theorem read_eq_ok_iff {text : String} {expression : Expression} :
    read text = .ok expression ↔
      ∃ last, (Lexeme.scan none text.toList).foldlM Reading.step .start = .ok last ∧
        last.negating = false ∧ last.tokens.reverse = expression := by
  rw [read, bind_eq_ok_iff]
  apply exists_congr
  intro last
  apply and_congr_right
  intro _
  rw [Reading.finish]
  cases last.negating with
  | false => simp
  | true => simp

theorem read_of_acceptable {text : String}
    (acceptable : Item.Acceptable ((Lexeme.scan none text.toList).map Lexeme.item)) :
    read text = .ok (Item.expression ((Lexeme.scan none text.toList).map Lexeme.item)) := by
  rcases Reading.run_reflects (Lexeme.scan none text.toList) with
    ⟨last, run, reflects, -⟩ | ⟨-, refused⟩
  · refine read_eq_ok_iff.mpr ⟨last, run, ?_, reflects.tokens⟩
    rw [reflects.negating, decide_eq_false_iff_not, Nat.not_odd_iff_even]
    exact acceptable.finished
  · exact (refused acceptable.toAllowed).elim

theorem acceptable_of_read {text : String} {expression : Expression}
    (done : read text = .ok expression) :
    Item.Acceptable ((Lexeme.scan none text.toList).map Lexeme.item) := by
  obtain ⟨last, run, settled, -⟩ := read_eq_ok_iff.mp done
  rcases Reading.run_reflects (Lexeme.scan none text.toList) with
    ⟨other, otherRun, reflects, allowed⟩ | ⟨⟨error, otherRun⟩, -⟩
  · rw [run] at otherRun
    cases otherRun
    rw [reflects.negating, decide_eq_false_iff_not, Nat.not_odd_iff_even] at settled
    exact ⟨allowed, settled⟩
  · rw [run] at otherRun
    cases otherRun

/-- The language of expressions. A text is cut in one way, it is read exactly if every item stands
where it may, and the tokens are its items with the signs that the negations give them. -/
theorem read_language (text : String) :
    ∃ parts, (∀ other, Lexeme.Cut none text.toList other ↔ other = parts) ∧
      ((∃ expression, read text = .ok expression) ↔ Item.Acceptable (parts.map Lexeme.item)) ∧
      ∀ expression, read text = .ok expression →
        expression = Item.expression (parts.map Lexeme.item) := by
  refine ⟨Lexeme.scan none text.toList, fun other => Lexeme.cut_iff, ⟨?_, ?_⟩, ?_⟩
  · rintro ⟨expression, done⟩
    exact acceptable_of_read done
  · intro acceptable
    exact ⟨_, read_of_acceptable acceptable⟩
  · intro expression done
    have same := read_of_acceptable (acceptable_of_read done)
    rw [done] at same
    exact Except.ok.inj same

end Expression

end BooleanCube
