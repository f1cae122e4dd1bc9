/-
# The command line

The outer layer: it reads the program file, and prints what the outcome says.
-/
import OneBit.Command.Perform

open OneBit.Command

/-- The reason that the system gives for not reading a file. -/
def readErrorOf : IO.Error → ReadError
  | .noFileOrDirectory .. => .missing
  | .inappropriateType _ 21 _ => .directory
  | .inappropriateType _ code details => .system details code.toNat
  | .permissionDenied _ code details => .system details code.toNat
  | .invalidArgument _ code details => .system details code.toNat
  | .resourceExhausted _ code details => .system details code.toNat
  | .otherError code details => .system details code.toNat
  | e => .system (toString e) 0

/-- The text of a file. -/
def readProgramFile (path : String) : IO (Except ReadError String) := do
  try
    let file ← IO.FS.Handle.mk path .read
    return decodeText (← file.readBinToEnd)
  catch e => return .error (readErrorOf e)

/-- Print an outcome. -/
def printOutcome (o : Outcome) : IO UInt32 := do
  IO.print o.outputText
  IO.eprint o.errorText
  return o.exitCode.toUInt32

def main (args : List String) : IO UInt32 := do
  match parse args with
  | .error e => printOutcome e.outcome
  | .ok request =>
    let source ←
      match request.path? with
      | some path => readProgramFile path
      | none => pure (.ok "")
    match request.perform source with
    | some outcome => printOutcome outcome
    | none => return 0
