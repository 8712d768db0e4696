import BooleanCube.Json
import BooleanCube.Session

/-!
Everything there is to say about one expression, as data, as JSON and as plain text.
-/

namespace BooleanCube

structure Report where
  expression : String
  vector : TruthVector
  columns : List Column
  minterms : List Row
  maxterms : List Row
  canonicalDisjunctive : String
  canonicalConjunctive : String
  minimalDisjunctive : Derivation
  minimalConjunctive : Derivation
  expansion : Derivation
  deriving DecidableEq, Repr

def Session.report (session : Session) (variableName : String) : Report where
  expression := session.expression.render
  vector := session.vector
  columns := session.table.columns
  minterms := session.minterms
  maxterms := session.maxterms
  canonicalDisjunctive := session.canonicalDisjunctive.render
  canonicalConjunctive := session.canonicalConjunctive.render
  minimalDisjunctive := session.derive (.minimal .disjunctive)
  minimalConjunctive := session.derive (.minimal .conjunctive)
  expansion := session.derive (.expansion variableName)

def TruthVector.toJson (vector : TruthVector) : Json := .array (vector.toList.map .bool)

def Column.toJson (column : Column) : Json :=
  .object [("label", .string column.label), ("values", column.values.toJson)]

def Derivation.toJson (derivation : Derivation) : Json :=
  .object [("expression", .string derivation.expression), ("steps", .strings derivation.steps)]

namespace Report

def rowsJson (rows : List Row) : Json := .array (rows.map fun row => .number row.val)

def toJson (report : Report) : Json :=
  .object
    [("expression", .string report.expression), ("truth_vector", report.vector.toJson),
      ("columns", .array (report.columns.map Column.toJson)),
      ("minterms", rowsJson report.minterms), ("maxterms", rowsJson report.maxterms),
      ("canonical_dnf", .string report.canonicalDisjunctive),
      ("canonical_cnf", .string report.canonicalConjunctive),
      ("minimal_dnf", report.minimalDisjunctive.toJson),
      ("minimal_cnf", report.minimalConjunctive.toJson), ("shannon", report.expansion.toJson)]

/-- A text in the middle of a field of the given width; an odd space goes to the right. -/
def centre (width : Nat) (text : String) : String :=
  let room := width - text.length
  let left := room / 2
  String.ofList (List.replicate left ' ') ++ text ++
    String.ofList (List.replicate (room - left) ' ')

/-- The cells of a table row: the inputs, each step under its label, and the value. -/
def tableLine (report : Report) (row : Row) : String :=
  let inputs := " ".intercalate (Variable.all.map fun var => digit (var.bit row))
  let cells := report.columns.map fun column =>
    centre column.label.length (digit (column.values.get row))
  " | ".intercalate (inputs :: cells ++ [digit (report.vector.get row)])

def tableLines (report : Report) : List String :=
  " | ".intercalate ("x y z" :: report.columns.map Column.label ++ ["f"]) ::
    Row.all.map report.tableLine

def rowList (rows : List Row) : String :=
  "[" ++ ", ".intercalate (rows.map fun row => toString row.val) ++ "]"

/-- A derivation under a title, its steps set in by four spaces. -/
def derivationLines (title : String) (derivation : Derivation) : List String :=
  (title ++ ": " ++ derivation.expression) :: derivation.steps.map ("    " ++ ·)

def lines (report : Report) : List String :=
  ["f(x,y,z) = " ++ report.expression, ""] ++ report.tableLines ++
    ["", "minterms: " ++ rowList report.minterms, "maxterms: " ++ rowList report.maxterms,
      "canonical DNF: " ++ report.canonicalDisjunctive,
      "canonical CNF: " ++ report.canonicalConjunctive] ++
    derivationLines "minimal DNF" report.minimalDisjunctive ++
    derivationLines "minimal CNF" report.minimalConjunctive ++
    derivationLines "Shannon" report.expansion

end Report

end BooleanCube
