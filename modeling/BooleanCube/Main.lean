import BooleanCube.Command.Run

/-!
The command line.
-/

open BooleanCube.Command

def systemError : IO.Error → SystemError
  | .noFileOrDirectory _ code reason | .interrupted _ code reason
  | .alreadyExists _ code reason | .invalidArgument _ code reason
  | .permissionDenied _ code reason | .resourceExhausted _ code reason
  | .inappropriateType _ code reason | .noSuchThing _ code reason
  | .otherError code reason | .resourceBusy code reason | .resourceVanished code reason
  | .unsupportedOperation code reason | .hardwareFault code reason
  | .unsatisfiedConstraints code reason | .illegalOperation code reason
  | .protocolError code reason | .timeExpired code reason => ⟨code.toNat, reason⟩
  | .unexpectedEof => ⟨0, "unexpected end of file"⟩
  | .userError reason => ⟨0, reason⟩

/-- Writes a file. Whether it can be created shows before anything is written. -/
def saveFile (path text : String) : IO (Except SaveError Unit) := do
  match ← (IO.FS.Handle.mk path .write).toBaseIO with
  | .error error => return .error (.create (systemError error))
  | .ok handle =>
      match ← (do handle.putStr text; handle.flush : IO Unit).toBaseIO with
      | .error error => return .error (.write (systemError error))
      | .ok () => return .ok ()

def conclude (outcome : Outcome) : IO UInt32 := do
  IO.print outcome.output
  IO.eprint outcome.errors
  return outcome.code.toUInt32

def main (arguments : List String) : IO UInt32 := do
  match Run.ofArguments arguments with
  | .done outcome => conclude outcome
  | .save path text next => conclude (next (← saveFile path text))
