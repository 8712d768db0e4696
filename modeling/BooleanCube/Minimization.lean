import BooleanCube.Cube.Round
import BooleanCube.Text.Sorted

/-!
Minimal forms: the terms of all prime cubes of a set of rows, sorted by text. No cover is chosen,
so a form may hold terms that it could do without.
-/

namespace BooleanCube

structure Minimized where
  form : NormalForm
  primes : List Cube
  trace : List String
  deriving DecidableEq, Repr

namespace Minimized

def expression (minimized : Minimized) : String := minimized.form.render

/-- A constant needs no search: the empty set has no prime cube, the full set has one. -/
def constant (polarity : Polarity) (primes : List Cube) (value : Bool) : Minimized :=
  ⟨.constant polarity value, primes, []⟩

def patterns (cubes : List Cube) : String :=
  ", ".intercalate (cubes.map fun cube => toString cube.value.toNat)

def openingLines (level : List Cube) : List String :=
  let groups := (List.range 4).filterMap fun ones =>
    let group := Round.group level ones
    if group.isEmpty then none else some (s!"  {ones}: " ++ patterns group)
  ("Terms: " ++ patterns level) :: "Groups by number of ones:" :: groups

def roundLines (rounds : List Round) : List String :=
  ((rounds.filter fun round => !round.merges.isEmpty).zipIdx 1).flatMap fun (round, number) =>
    s!"Iteration {number}:" :: round.lines

def closingLines (polarity : Polarity) (primes : List Cube) (form : NormalForm) : List String :=
  ["Prime implicants: " ++ ", ".intercalate (primes.map (Cube.termText polarity)),
    "Result: " ++ form.render]

/-- The cubes that the rounds leave unmerged, in the order of the texts of their terms. Of cubes
whose terms read the same only the first one stays. -/
def primesOf (rounds : List Round) (polarity : Polarity) : List Cube :=
  let text := Cube.termText polarity
  Text.distinctBy text (Text.sortBy text (Cube.ordered (rounds.flatMap Round.unmerged)))

def search (rows : List Row) (polarity : Polarity) : Minimized :=
  let level := rows.map Cube.ofRow
  let rounds := Round.all level
  let primes := primesOf rounds polarity
  let form : NormalForm := ⟨polarity, primes.map fun cube => cube.term polarity⟩
  ⟨form, primes, openingLines level ++ roundLines rounds ++ closingLines polarity primes form⟩

end Minimized

/-- The minimal form that speaks of the rows whose numbers are listed, in any order and with
repeats. Numbers beyond the last row do not count. -/
def minimize (terms : List Nat) (polarity : Polarity) : Minimized :=
  let rows := Row.all.filter fun row => terms.contains row.val
  if rows.length = 0 then .constant polarity [] polarity.unit
  else if rows.length = Row.all.length then .constant polarity [Cube.whole] !polarity.unit
  else .search rows polarity

def TruthVector.minimal (vector : TruthVector) (polarity : Polarity) : Minimized :=
  minimize ((polarity.rows vector).map Fin.val) polarity

end BooleanCube
