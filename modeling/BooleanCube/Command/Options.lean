/-!
The arguments of the command line: options with and without values, and one expression. Every
argument is read in turn. Each setting may be given once, but of several output files the last one
counts.
-/

namespace BooleanCube.Command

inductive Format where
  | text
  | json
  deriving DecidableEq, Repr

inductive Setting where
  | expression (text : String)
  | variableName (name : String)
  | format (format : Format)
  | output (path : String)
  | threads (count : Nat)
  | tree
  | audit
  | help
  deriving DecidableEq, Repr

def Setting.isOutput : Setting → Bool
  | output _ => true
  | _ => false

inductive Valued where
  | variableName | format | output | threads
  deriving DecidableEq, Repr

inductive UsageError where
  | unknownOption (argument : String)
  | missingValue (option : Valued)
  | invalidValue (option : Valued) (value : String)
  | unexpectedValue (argument : String)
  | repeated
  deriving DecidableEq, Repr

namespace Valued

def name : Valued → String
  | variableName => "--shannon"
  | format => "--format"
  | output => "--output"
  | threads => "--num-threads"

end Valued

def UsageError.message : UsageError → String
  | unknownOption argument => "unknown option " ++ argument
  | missingValue option => "no value for " ++ option.name
  | invalidValue option value => "invalid value for " ++ option.name ++ ": " ++ value
  | unexpectedValue argument => "no value expected: " ++ argument
  | repeated => "an argument is given twice"

/-- A decimal number below 2 ^ 64, with or without a plus sign. -/
def readCount? (text : String) : Option Nat :=
  let digits := match text.toList with
    | '+' :: digits => digits
    | digits => digits
  if digits.isEmpty || !digits.all Char.isDigit then none
  else
    let count := digits.foldl (fun count digit => 10 * count + (digit.toNat - '0'.toNat)) 0
    if count < UInt64.size then some count else none

/-- Reads the value of an option; a path must not be empty. -/
def Valued.setting (option : Valued) (value : String) : Except UsageError Setting :=
  let setting? := match option with
    | .variableName => some (Setting.variableName value)
    | .format =>
        if value = "text" then some (.format .text)
        else if value = "json" then some (.format .json)
        else none
    | .output => if value.isEmpty then none else some (.output value)
    | .threads => (readCount? value).map Setting.threads
  match setting? with
  | some setting => .ok setting
  | none => .error (.invalidValue option value)

/-- The form of one argument. A value may be attached to its option. -/
inductive Argument where
  | setting (setting : Setting)
  | option (option : Valued) (attached : Option String)
  | separator
  deriving DecidableEq, Repr

namespace Argument

/-- A long option, such as `--format=json`, without its dashes. -/
def ofLong (body : List Char) : Except UsageError Argument :=
  let name := String.ofList (body.takeWhile (· ≠ '='))
  let attached := match body.dropWhile (· ≠ '=') with
    | _ :: value => some (String.ofList value)
    | [] => none
  let switch (setting : Setting) : Except UsageError Argument :=
    if attached.isNone then .ok (.setting setting) else .error (.unexpectedValue name)
  match name with
  | "shannon" => .ok (.option .variableName attached)
  | "format" => .ok (.option .format attached)
  | "output" => .ok (.option .output attached)
  | "num-threads" => .ok (.option .threads attached)
  | "tree" => switch .tree
  | "audit" => switch .audit
  | "help" => switch .help
  | _ => .error (.unknownOption ("--" ++ name))

/-- A short option, such as `-fjson` or `-f=json`. -/
def ofShort (letter : Char) (body : List Char) : Except UsageError Argument :=
  let attached := match body with
    | [] => none
    | '=' :: value => some (String.ofList value)
    | value => some (String.ofList value)
  match letter with
  | 's' => .ok (.option .variableName attached)
  | 'f' => .ok (.option .format attached)
  | 'o' => .ok (.option .output attached)
  | 't' => .ok (.option .threads attached)
  | 'h' => .ok (.setting .help)
  | _ => .error (.unknownOption (String.ofList ['-', letter]))

/-- An argument by its dashes. A single dash is an expression. -/
def read (argument : String) : Except UsageError Argument :=
  match argument.toList with
  | ['-', '-'] => .ok .separator
  | '-' :: '-' :: body => ofLong body
  | '-' :: letter :: body => ofShort letter body
  | _ => .ok (.setting (.expression argument))

end Argument

def isValue (argument : String) : Bool :=
  match argument.toList with
  | '-' :: _ :: _ => false
  | _ => true

/-- The settings in the order of the arguments. Behind `--` everything is an expression, and
behind a call for help nothing matters. An output option without a file is passed over if a later
one has its file. -/
def settings : List String → Except UsageError (List Setting)
  | [] => .ok []
  | argument :: rest => do
      match ← Argument.read argument with
      | .separator => return rest.map .expression
      | .setting .help => return [.help]
      | .setting setting => return setting :: (← settings rest)
      | .option option (some value) => return (← option.setting value) :: (← settings rest)
      | .option option none =>
          match rest with
          | value :: behind =>
              if isValue value then return (← option.setting value) :: (← settings behind)
              else
                let later ← settings (value :: behind)
                if option = .output && later.any Setting.isOutput then return later
                else throw (.missingValue option)
          | [] => throw (.missingValue option)

structure Options where
  expression : Option String := none
  variableName : Option String := none
  format : Option Format := none
  output : Option String := none
  threads : Option Nat := none
  tree : Bool := false
  audit : Bool := false
  help : Bool := false
  deriving DecidableEq, Repr

namespace Options

def fill {α : Type} (place : Option α) (value : α) : Except UsageError (Option α) :=
  if place.isSome then .error .repeated else .ok (some value)

def turnOn (switch : Bool) : Except UsageError Bool :=
  if switch then .error .repeated else .ok true

/-- Adds a setting. A new output file takes the place of the one before; the other settings may be
given once. -/
def add (options : Options) : Setting → Except UsageError Options
  | .expression text => return { options with expression := ← fill options.expression text }
  | .variableName name => return { options with variableName := ← fill options.variableName name }
  | .format format => return { options with format := ← fill options.format format }
  | .output path => return { options with output := some path }
  | .threads count => return { options with threads := ← fill options.threads count }
  | .tree => return { options with tree := ← turnOn options.tree }
  | .audit => return { options with audit := ← turnOn options.audit }
  | .help => return { options with help := true }

def read (arguments : List String) : Except UsageError Options := do
  (← settings arguments).foldlM add {}

end Options

end BooleanCube.Command
