import BooleanCube.Audit
import BooleanCube.Command.Options

/-!
What a command line does. A run is a value: it ends with an outcome, or it first asks for one file
to be written and goes on with the result.
-/

namespace BooleanCube.Command

/-- A failure with what lies behind it, nearest cause first. -/
structure Failure where
  message : String
  causes : List String
  deriving DecidableEq, Repr

/-- The text of a failure; several causes are numbered. -/
def Failure.render (failure : Failure) : String :=
  let causes := match failure.causes with
    | [] => ""
    | [cause] => "\nCaused by:\n    " ++ cause ++ "\n"
    | causes =>
        "\nCaused by:\n" ++
          String.join (causes.zipIdx.map fun (cause, place) => s!"    {place}: {cause}\n")
  "Error: " ++ failure.message ++ "\n" ++ causes

structure Outcome where
  code : Nat
  output : String
  errors : String
  deriving DecidableEq, Repr

namespace Outcome

def success (output : String) : Outcome := ⟨0, output, ""⟩

def failure (output : String) (failure : Failure) : Outcome := ⟨1, output, failure.render⟩

def refusal (error : UsageError) : Outcome := ⟨2, "", "error: " ++ error.message ++ "\n"⟩

end Outcome

/-- Why the system refuses a file: its number for the reason, and the reason in words. -/
structure SystemError where
  code : Nat
  reason : String
  deriving DecidableEq, Repr

namespace SystemError

def noSuchFile : SystemError := ⟨2, "No such file or directory"⟩

def noDevice : SystemError := ⟨6, "No such device or address"⟩

def notDirectory : SystemError := ⟨20, "Not a directory"⟩

def isDirectory : SystemError := ⟨21, "Is a directory"⟩

def noSpace : SystemError := ⟨28, "No space left on device"⟩

def nameTooLong : SystemError := ⟨36, "File name too long"⟩

def message (error : SystemError) : String := s!"{error.reason} (os error {error.code})"

end SystemError

inductive SaveError where
  | create (error : SystemError)
  | write (error : SystemError)
  deriving DecidableEq, Repr

inductive Run where
  | done (outcome : Outcome)
  | save (path text : String) (next : Except SaveError Unit → Outcome)

namespace Run

/-- A text of at most this many bytes reaches its file when the file is closed. -/
def bufferSize : Nat := 8192

/-- Puts JSON into the output file, or on standard output if none is given. The outcome is told
what is on standard output then. Closing a file is too late for a complaint. -/
def publish (options : Options) (json : Json) (conclude : String → Outcome) : Run :=
  match options.output with
  | none => done (conclude (json.render ++ "\n"))
  | some path =>
      let text := json.render
      save path text fun
        | .ok () => conclude ""
        | .error (.create error) => .failure "" ⟨"cannot create " ++ path, [error.message]⟩
        | .error (.write error) =>
            if text.utf8ByteSize ≤ bufferSize then conclude ""
            else .failure "" ⟨error.message, []⟩

/-- Writes the chosen format. Plain text always goes to standard output. -/
def present (options : Options) (lines : List String) (json : Json)
    (conclude : String → Outcome) : Run :=
  match options.format.getD .text with
  | .text => done (conclude (Text.unlines lines))
  | .json => publish options json conclude

/-- Audits all functions; a fault makes the run fail after its report. -/
def ofAudit (options : Options) : Run :=
  let report := BooleanCube.audit
  let count := report.failures.length
  present options report.lines report.toJson fun output =>
    if report.isOk then .success output
    else .failure output ⟨s!"audit failed for {count} checks", []⟩

/-- Reports on one expression, and prints its expansion tree below if asked to. -/
def ofExpression (options : Options) (text : String) : Run :=
  match Session.read text with
  | .error error =>
      done <| .failure ""
        ⟨"cannot read expression " ++ Text.quoteString text, error.message :: error.causes⟩
  | .ok session =>
      let report := session.report (options.variableName.getD "x")
      present options report.lines report.toJson fun output =>
        .success (output ++ if options.tree then session.tree.render else "")

def usage : String :=
  Text.unlines
    ["Truth tables, normal forms and Shannon expansions of f(x,y,z)", "",
      "Usage: [OPTIONS] [EXPRESSION]", "",
      "  -s, --shannon <V>      variable to expand by, x unless given",
      "  -f, --format <F>       text or json",
      "  -o, --output <FILE>    file for json",
      "      --tree             print the expansion tree",
      "      --audit            check every function instead of one expression",
      "  -t, --num-threads <N>  accepted; the audit runs on one thread"]

def ofOptions (options : Options) : Run :=
  if options.help then done (.success usage)
  else if options.audit then ofAudit options
  else
    match options.expression with
    | some text => ofExpression options text
    | none => done (.failure "" ⟨"an expression is required unless --audit is given", []⟩)

def ofArguments (arguments : List String) : Run :=
  match Options.read arguments with
  | .ok options => ofOptions options
  | .error error => done (.refusal error)

end Run

end BooleanCube.Command
