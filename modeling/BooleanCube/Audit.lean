import BooleanCube.Report

/-!
The audit: every form derived from a function must denote that function, for each of the 256
functions of three variables.
-/

namespace BooleanCube

namespace TruthVector

def derivedVectors (vector : TruthVector) : List (String × TruthVector) :=
  [("canonical DNF", (NormalForm.canonical .disjunctive vector).truthVector),
    ("canonical CNF", (NormalForm.canonical .conjunctive vector).truthVector),
    ("minimal DNF", (vector.minimal .disjunctive).form.truthVector),
    ("minimal CNF", (vector.minimal .conjunctive).form.truthVector)] ++
  (Variable.all.map fun pivot =>
    ("Shannon expansion by " ++ pivot.name, (Expansion.ofVector vector pivot).reconstruct)) ++
  [("Shannon tree", (ExpansionTree.ofVector vector).expand)]

def isPartitioned (vector : TruthVector) : Bool :=
  vector.minterms.length + vector.maxterms.length == Row.all.length &&
    vector.minterms.all fun row => !vector.maxterms.contains row

def faults (vector : TruthVector) : List String :=
  let wrong := vector.derivedVectors.filter fun (_, derived) => derived != vector
  let minterms := Report.rowList vector.minterms
  let maxterms := Report.rowList vector.maxterms
  (wrong.map fun (name, derived) => vector.render ++ ": " ++ name ++ " gives " ++ derived.render) ++
    if vector.isPartitioned then []
    else [vector.render ++ s!": minterms {minterms} and maxterms {maxterms} do not partition"]

/-- Whether the minimal disjunction denotes the same function without one of its terms. -/
def hasRedundantCover (vector : TruthVector) : Bool :=
  let form := (vector.minimal .disjunctive).form
  (List.range form.terms.length).any fun place =>
    { form with terms := form.terms.eraseIdx place }.truthVector == vector

end TruthVector

structure AuditReport where
  functions : Nat
  redundantCovers : Nat
  failures : List String
  deriving DecidableEq, Repr

namespace AuditReport

def isOk (report : AuditReport) : Bool := report.failures.isEmpty

def toJson (report : AuditReport) : Json :=
  .object
    [("functions", .number report.functions), ("redundant_covers", .number report.redundantCovers),
      ("failures", .strings report.failures)]

def lines (report : AuditReport) : List String :=
  [s!"functions: {report.functions}", s!"redundant covers: {report.redundantCovers}"] ++
    report.failures.map ("FAIL " ++ ·)

end AuditReport

def audit : AuditReport where
  functions := TruthVector.all.length
  redundantCovers := TruthVector.all.countP TruthVector.hasRedundantCover
  failures := TruthVector.all.flatMap TruthVector.faults

end BooleanCube
