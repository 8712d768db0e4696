import BooleanCube.Proofs.Precedence
import BooleanCube.Proofs.TermText
import Mathlib.Data.List.Induction
import Mathlib.Data.List.Nodup

/-!
# Operands are never lost

Applying a connective takes two operands off the stack before it is known whether there are two, so
a lone one would vanish. Two loops apply connectives, and each looks at the number of operands in
its own way: reading stops before a connective that would find fewer than two, and the drain drops
it. Here the same loops keep a ledger of what they take off the stacks. It balances for every list
of tokens, so an expression with a literal always has a value of its own.
-/

namespace BooleanCube

abbrev Placed := Connective × Nat

def Token.placed? : Token × Nat → Option Placed
  | (.connective op, position) => some (op, position)
  | _ => none

theorem Token.placed_eq_some_iff {token : Token × Nat} {placed : Placed} :
    placed? token = some placed ↔ token = (.connective placed.1, placed.2) := by
  rcases token with ⟨_ | op | _ | _, position⟩ <;> simp [placed?, Prod.ext_iff]

/-- Takes two operands for a connective and puts its value in their place. A lone operand is taken
as well, but then there is no value. -/
def Connective.reduce (op : Connective) : List Bool → List Bool
  | b :: a :: operands => op.apply a b :: operands
  | _ => []

theorem Connective.reduce_length (op : Connective) {operands : List Bool}
    (enough : 2 ≤ operands.length) : (op.reduce operands).length + 1 = operands.length := by
  rcases operands with _ | ⟨b, _ | ⟨a, operands⟩⟩
  · cases enough
  · exact absurd enough (Nat.lt_irrefl 1)
  · rfl

/-- An application: the connective taken off its stack and the operands that it found. -/
structure Call where
  taken : Placed
  operands : List Bool
  deriving DecidableEq, Repr

/-- The operands, and what became of the connectives taken off their stack, the latest first. -/
structure Ledger where
  operands : List Bool
  calls : List Call
  dropped : List Placed
  deriving DecidableEq, Repr

/-- A ledger and the connectives that still wait, the top first. -/
structure Recorder where
  ledger : Ledger
  waiting : List Placed
  deriving DecidableEq, Repr

namespace Ledger

def push (ledger : Ledger) (value : Bool) : Ledger :=
  { ledger with operands := value :: ledger.operands }

def call (ledger : Ledger) (top : Placed) : Ledger :=
  { ledger with
    operands := top.1.reduce ledger.operands
    calls := ⟨top, ledger.operands⟩ :: ledger.calls }

def drop (ledger : Ledger) (top : Placed) : Ledger :=
  { ledger with dropped := top :: ledger.dropped }

def popped (ledger : Ledger) : List Placed := ledger.calls.map Call.taken ++ ledger.dropped

def shift (new : Placed) : List Placed → Ledger → Recorder
  | [], ledger => ⟨ledger, [new]⟩
  | top :: waiting, ledger =>
      if top.1.precedence < new.1.precedence ∨ ledger.operands.length < 2 then
        ⟨ledger, new :: top :: waiting⟩
      else shift new waiting (ledger.call top)

def drain : List Placed → Ledger → Ledger
  | [], ledger => ledger
  | top :: waiting, ledger =>
      drain waiting (if 2 ≤ ledger.operands.length then ledger.call top else ledger.drop top)

end Ledger

namespace Recorder

def start : Recorder := ⟨⟨[], [], []⟩, []⟩

def step (assignment : Assignment) (recorder : Recorder) : Token × Nat → Recorder
  | (.operand literal, _) => ⟨recorder.ledger.push (assignment.holds literal), recorder.waiting⟩
  | (.connective op, position) => recorder.ledger.shift (op, position) recorder.waiting
  | (.opening, _) | (.closing, _) => recorder

def machine (recorder : Recorder) : Machine :=
  ⟨recorder.ledger.operands, recorder.waiting.map Prod.fst⟩

end Recorder

def Expression.ledger (expression : Expression) (assignment : Assignment) : Ledger :=
  let recorder := expression.zipIdx.foldl (Recorder.step assignment) .start
  recorder.ledger.drain recorder.waiting

theorem Ledger.machine_shift (ledger : Ledger) (new : Placed) (waiting : List Placed) :
    (ledger.shift new waiting).machine =
      Machine.shift new.1 (waiting.map Prod.fst) ledger.operands := by
  induction waiting generalizing ledger with
  | nil => rfl
  | cons top waiting ih =>
      rcases ledger with ⟨_ | ⟨b, _ | ⟨a, operands⟩⟩, calls, dropped⟩
      · rw [shift, if_pos (.inr Nat.zero_lt_two)]
        rfl
      · rw [shift, if_pos (.inr Nat.one_lt_two)]
        rfl
      · by_cases tighter : top.1.precedence < new.1.precedence
        · rw [shift, if_pos (.inl tighter)]
          exact (Machine.shift_tighter new.1 top.1 _ a b operands tighter).symm
        · have looser : new.1.precedence ≤ top.1.precedence := Nat.le_of_not_lt tighter
          rw [shift, if_neg (by simp [tighter]), ih]
          exact (Machine.shift_looser new.1 top.1 _ a b operands looser).symm

theorem Recorder.machine_step (assignment : Assignment) (recorder : Recorder)
    (token : Token × Nat) :
    (recorder.step assignment token).machine = recorder.machine.step assignment token.1 := by
  rcases token with ⟨token, position⟩
  cases token with
  | operand literal => rfl
  | connective op => exact recorder.ledger.machine_shift (op, position) recorder.waiting
  | opening => rfl
  | closing => rfl

theorem Recorder.machine_run (assignment : Assignment) (tokens : List (Token × Nat))
    (recorder : Recorder) :
    (tokens.foldl (step assignment) recorder).machine =
      (tokens.map Prod.fst).foldl (Machine.step assignment) recorder.machine := by
  induction tokens generalizing recorder with
  | nil => rfl
  | cons token tokens ih =>
      rw [List.foldl_cons, ih, machine_step]
      rfl

theorem Ledger.operands_drain (ledger : Ledger) (waiting : List Placed) :
    (ledger.drain waiting).operands = Machine.drain (waiting.map Prod.fst) ledger.operands := by
  induction waiting generalizing ledger with
  | nil => rfl
  | cons top waiting ih =>
      rw [drain, ih]
      rcases ledger with ⟨_ | ⟨b, _ | ⟨a, operands⟩⟩, calls, dropped⟩
      · rfl
      · rfl
      · rfl

theorem Expression.ledger_operands (expression : Expression) (assignment : Assignment) :
    (expression.ledger assignment).operands = expression.operands assignment := by
  have run := Recorder.machine_run assignment expression.zipIdx .start
  rw [List.zipIdx_map_fst] at run
  rw [ledger, Ledger.operands_drain, operands, Machine.finish]
  exact congrArg Machine.finish run

/-- What holds of the books after tokens with these connectives and this number of literals. Once a
connective was dropped there is one operand at most, which then nothing can use up. -/
structure Accounts (placed : List Placed) (literals : Nat) (recorder : Recorder) : Prop where
  fed : ∀ call ∈ recorder.ledger.calls, 2 ≤ call.operands.length
  taken : (recorder.ledger.popped ++ recorder.waiting).Perm placed
  balance : recorder.ledger.operands.length + recorder.ledger.calls.length = literals
  alive : 0 < literals → 0 < recorder.ledger.operands.length
  exhausted : recorder.ledger.dropped ≠ [] → recorder.ledger.operands.length < 2

namespace Accounts

variable {placed waiting : List Placed} {literals : Nat} {ledger : Ledger} {top new : Placed}

theorem start : Accounts [] 0 .start where
  fed := List.forall_mem_nil _
  taken := List.Perm.refl _
  balance := rfl
  alive := fun positive => positive
  exhausted := fun dropped => absurd rfl dropped

/-- A further operand fits the books only as long as nothing was dropped, that is, before the drain. -/
theorem push (accounts : Accounts placed literals ⟨ledger, waiting⟩) (kept : ledger.dropped = [])
    (value : Bool) : Accounts placed (literals + 1) ⟨ledger.push value, waiting⟩ where
  fed := accounts.fed
  taken := accounts.taken
  balance := by
    have balance := accounts.balance
    simp only [Ledger.push, List.length_cons] at balance ⊢
    omega
  alive := fun _ => Nat.zero_lt_succ _
  exhausted := fun dropped => absurd kept dropped

theorem wait (accounts : Accounts placed literals ⟨ledger, waiting⟩) :
    Accounts (placed ++ [new]) literals ⟨ledger, new :: waiting⟩ where
  fed := accounts.fed
  taken := by
    have first : (ledger.popped ++ new :: waiting).Perm (new :: (ledger.popped ++ waiting)) :=
      List.perm_middle
    have last : (placed ++ [new]).Perm (new :: placed) := List.perm_append_singleton new placed
    exact (first.trans (accounts.taken.cons new)).trans last.symm
  balance := accounts.balance
  alive := accounts.alive
  exhausted := accounts.exhausted

theorem call (accounts : Accounts placed literals ⟨ledger, top :: waiting⟩)
    (enough : 2 ≤ ledger.operands.length) :
    Accounts placed literals ⟨ledger.call top, waiting⟩ where
  fed := List.forall_mem_cons.mpr ⟨enough, accounts.fed⟩
  taken := List.perm_middle.symm.trans accounts.taken
  balance := by
    have balance := accounts.balance
    have used := top.1.reduce_length enough
    simp only [Ledger.call, List.length_cons] at balance ⊢
    omega
  alive := by
    have used := top.1.reduce_length enough
    intro _
    simp only [Ledger.call]
    omega
  exhausted := fun dropped => absurd enough (Nat.not_le_of_lt (accounts.exhausted dropped))

theorem drop (accounts : Accounts placed literals ⟨ledger, top :: waiting⟩)
    (few : ledger.operands.length < 2) :
    Accounts placed literals ⟨ledger.drop top, waiting⟩ where
  fed := accounts.fed
  taken := by
    have moved : (top :: (ledger.dropped ++ waiting)).Perm (ledger.dropped ++ top :: waiting) :=
      List.perm_middle.symm
    have before := accounts.taken
    rw [Ledger.popped, List.append_assoc] at before ⊢
    exact (moved.append_left _).trans before
  balance := accounts.balance
  alive := accounts.alive
  exhausted := fun _ => few

theorem shift (accounts : Accounts placed literals ⟨ledger, waiting⟩) :
    Accounts (placed ++ [new]) literals (ledger.shift new waiting) := by
  induction waiting generalizing ledger with
  | nil => exact accounts.wait
  | cons top waiting ih =>
      rw [Ledger.shift]
      split
      · exact accounts.wait
      · next goesOn =>
          have enough : 2 ≤ ledger.operands.length := by
            by_contra few
            exact goesOn (.inr (Nat.lt_of_not_le few))
          exact ih (accounts.call enough)

theorem drain (accounts : Accounts placed literals ⟨ledger, waiting⟩) :
    Accounts placed literals ⟨ledger.drain waiting, []⟩ := by
  induction waiting generalizing ledger with
  | nil => exact accounts
  | cons top waiting ih =>
      rw [Ledger.drain]
      split
      · next enough => exact ih (accounts.call enough)
      · next few => exact ih (accounts.drop (Nat.lt_of_not_le few))

/-- When nothing waits any more, either no connective was dropped or one operand is left. -/
theorem settled (accounts : Accounts placed literals ⟨ledger, []⟩) (positive : 1 ≤ literals) :
    ledger.calls.length = min placed.length (literals - 1) ∧
      ledger.operands.length = max 1 (literals - placed.length) := by
  have balance : ledger.operands.length + ledger.calls.length = literals := accounts.balance
  have alive : 0 < ledger.operands.length := accounts.alive positive
  have popped := accounts.taken.length_eq
  simp only [Ledger.popped, List.append_nil, List.length_append, List.length_map] at popped
  by_cases kept : ledger.dropped = []
  · rw [kept, List.length_nil] at popped
    omega
  · have dropped : 0 < ledger.dropped.length := List.length_pos_of_ne_nil kept
    have few : ledger.operands.length < 2 := accounts.exhausted kept
    omega

theorem barren (accounts : Accounts placed 0 ⟨ledger, waiting⟩) :
    ledger.calls = [] ∧ ledger.operands = [] := by
  have balance := Nat.add_eq_zero_iff.mp accounts.balance
  exact ⟨List.length_eq_zero_iff.mp balance.2, List.length_eq_zero_iff.mp balance.1⟩

end Accounts

theorem Ledger.dropped_shift (ledger : Ledger) (new : Placed) (waiting : List Placed) :
    (ledger.shift new waiting).ledger.dropped = ledger.dropped := by
  induction waiting generalizing ledger with
  | nil => rfl
  | cons top waiting ih =>
      rw [shift]
      split
      · rfl
      · exact ih (ledger.call top)

namespace Recorder

/-- One token: the books are in order again, and nothing is dropped. -/
theorem accounts_step {placed : List Placed} {literals : Nat} {recorder : Recorder}
    (accounts : Accounts placed literals recorder) (kept : recorder.ledger.dropped = [])
    (assignment : Assignment) (token : Token × Nat) :
    Accounts (placed ++ [token].filterMap Token.placed?)
        (literals + (Expression.literals [token.1]).length) (recorder.step assignment token) ∧
      (recorder.step assignment token).ledger.dropped = [] := by
  rcases token with ⟨token, position⟩
  have noneMore := List.append_nil placed
  cases token with
  | operand literal => exact ⟨noneMore.symm ▸ accounts.push kept _, kept⟩
  | connective op =>
      have unchanged := recorder.ledger.dropped_shift (op, position) recorder.waiting
      exact ⟨accounts.shift, unchanged.trans kept⟩
  | opening => exact ⟨noneMore.symm ▸ accounts, kept⟩
  | closing => exact ⟨noneMore.symm ▸ accounts, kept⟩

theorem accounts_run (assignment : Assignment) (tokens : List (Token × Nat)) :
    Accounts (tokens.filterMap Token.placed?) (Expression.literals (tokens.map Prod.fst)).length
        (tokens.foldl (step assignment) start) ∧
      (tokens.foldl (step assignment) start).ledger.dropped = [] := by
  induction tokens using List.reverseRecOn with
  | nil => exact ⟨Accounts.start, rfl⟩
  | append_singleton tokens token ih =>
      have next := accounts_step ih.1 ih.2 assignment token
      have literals : (Expression.literals ((tokens ++ [token]).map Prod.fst)).length =
          (Expression.literals (tokens.map Prod.fst)).length +
            (Expression.literals [token.1]).length := by
        rw [List.map_append, Expression.literals_append, List.length_append]
        rfl
      rw [List.filterMap_append, literals, List.foldl_append]
      exact next

end Recorder

namespace Expression

def placedConnectives (expression : Expression) : List Placed :=
  expression.zipIdx.filterMap Token.placed?

theorem placed_connectives_nodup (expression : Expression) :
    expression.placedConnectives.Nodup := by
  have positions : (expression.zipIdx.map Prod.snd).Nodup := by
    rw [List.zipIdx_map_snd]
    exact List.nodup_range'
  apply List.Nodup.filterMap _ (List.Nodup.of_map _ positions)
  intro left right placed fromLeft fromRight
  rw [Token.placed_eq_some_iff.mp fromLeft, Token.placed_eq_some_iff.mp fromRight]

theorem accounts_ledger (expression : Expression) (assignment : Assignment) :
    Accounts expression.placedConnectives expression.literals.length
      ⟨expression.ledger assignment, []⟩ := by
  have read := (Recorder.accounts_run assignment expression.zipIdx).1
  rw [List.zipIdx_map_fst] at read
  exact read.drain

/-- However malformed an expression is, all its connectives are taken off the stack exactly once,
each that is applied finds two operands, and as many are applied as there are operands for. The
value is the operand left on top. Only an expression without literals leaves none, and then the
value is `false` by default. -/
theorem operands_accounted (expression : Expression) (assignment : Assignment) :
    let ledger := expression.ledger assignment
    let connectives := expression.placedConnectives.length
    let literals := expression.literals.length
    ledger.operands = expression.operands assignment ∧
      expression.evaluate assignment = ledger.operands.head?.getD false ∧
      (∀ call ∈ ledger.calls, 2 ≤ call.operands.length) ∧
      ledger.popped.Perm expression.placedConnectives ∧ ledger.popped.Nodup ∧
      (1 ≤ literals → ledger.calls.length = min connectives (literals - 1) ∧
        ledger.operands.length = max 1 (literals - connectives)) ∧
      (literals = 0 → ledger.calls = [] ∧ ledger.operands = []) ∧
      ((expression.operands assignment).head? = none ↔ literals = 0) := by
  intro ledger connectives literals
  have accounts : Accounts expression.placedConnectives literals ⟨ledger, []⟩ :=
    expression.accounts_ledger assignment
  have sameOperands : ledger.operands = expression.operands assignment :=
    expression.ledger_operands assignment
  have popped : ledger.popped.Perm expression.placedConnectives := by
    have taken := accounts.taken
    rwa [List.append_nil] at taken
  have barren (none : literals = 0) : ledger.calls = [] ∧ ledger.operands = [] := by
    rw [none] at accounts
    exact accounts.barren
  refine ⟨sameOperands, ?_, accounts.fed, popped, ?_, accounts.settled, barren, ?_⟩
  · rw [evaluate, sameOperands, List.headD_eq_head?_getD]
  · exact popped.nodup_iff.mpr expression.placed_connectives_nodup
  · rw [List.head?_eq_none_iff, ← sameOperands]
    constructor
    · intro empty
      by_contra positive
      have left := accounts.alive (Nat.pos_of_ne_zero positive)
      rw [empty] at left
      exact Nat.lt_irrefl 0 left
    · intro none
      exact (barren none).2

end Expression

end BooleanCube
