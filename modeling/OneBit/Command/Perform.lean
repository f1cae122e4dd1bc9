/-
# What a request does

A request is carried out on the content of its program file, or on the reason why the file
cannot be read.  The OUTCOME is all that a caller sees: the lines on standard output, the
messages on standard error, and the exit code.  The code is 1 if there is no program to work
with, 2 if a run ended in a fault or the request itself was wrong, and 0 otherwise.

A program with an error is not run.  Its listing shows the instructions before the error.

The wording of the help is left out: a request for it is a success without a line of output.
-/
import OneBit.Command.Arguments
import OneBit.Machine.Dump
import OneBit.Machine.Trace

namespace OneBit.Command

/-! ## 1. Outcomes -/

/-- What a caller sees. -/
structure Outcome where
  exitCode : UInt8
  /-- The lines on standard output. -/
  output : List String
  /-- The messages on standard error. -/
  errors : List String
deriving DecidableEq, Repr

namespace Outcome

/-- All went well. -/
def success (output : List String) : Outcome := ⟨0, output, []⟩

/-- There is no program to work with. -/
def failure (output : List String) (message : String) : Outcome := ⟨1, output, [message]⟩

/-- The text on standard output. -/
def outputText (o : Outcome) : String := String.join (o.output.map fun line => line ++ "\n")

/-- The text on standard error. -/
def errorText (o : Outcome) : String :=
  String.join (o.errors.map fun message => "error: " ++ message ++ "\n")

end Outcome

/-! ## 2. Program files -/

/-- Why a file cannot be read. -/
inductive ReadError
  | missing
  | directory
  | notText
  /-- Another reason, with its number in the operating system. -/
  | system (reason : String) (number : Nat)
deriving DecidableEq, Repr

/-- The wording of a read error. -/
def ReadError.message : ReadError → String
  | missing => "No such file or directory (os error 2)"
  | directory => "Is a directory (os error 21)"
  | notText => "stream did not contain valid UTF-8"
  | system reason number => reason ++ " (os error " ++ toString number ++ ")"

/-- The text that the bytes of a file spell. -/
def decodeText (bytes : ByteArray) : Except ReadError String :=
  match String.fromUTF8? bytes with
  | some text => .ok text
  | none => .error .notText

/-- Work with the text of a file. -/
def withSource (path : String) (source : Except ReadError String) (work : String → Outcome) :
    Outcome :=
  match source with
  | .ok text => work text
  | .error e => .failure [] ("failed to read " ++ path ++ ": " ++ e.message)

/-- The message of a compile error. -/
def compileMessage (path : String) (e : Assembly.CompileError) : String :=
  path ++ ": " ++ e.message

/-! ## 3. Listings and checks -/

/-- List the program of a source. -/
def assemble (path : String) (bytes : Bool) (source : String) : Outcome :=
  let c := Assembly.compile source
  let listing := if bytes then c.program.byteListing else c.program.listing
  match c.error with
  | none => .success listing
  | some e => .failure listing (compileMessage path e)

/-- Tell whether a source is a program. -/
def check (path : String) (source : String) : Outcome :=
  let c := Assembly.compile source
  match c.error with
  | none =>
    .success [path ++ ": ok, " ++ toString c.program.length ++ " instructions from " ++
      toString c.linesConsumed ++ " lines"]
  | some e => .failure [] (compileMessage path e)

/-! ## 4. Runs -/

/-- The field before a run. -/
def RunOptions.field (o : RunOptions) : Field :=
  let f := o.set.foldl (fun f c => f.setCell c true) Field.cleared
  let f := f.setFlag o.flag
  match o.pointer with
  | some c => f.setPointer c
  | none => f

/-- What is printed of the machine after a run. -/
def report (json : Bool) (status : Status) (m : Machine) : List String :=
  if json then [m.toJson.print .indented]
  else
    m.field.picture ++
      ["counter: " ++ toString m.counterNumber ++ "  ticks: " ++ toString m.ticks,
       "status: " ++ status.message] ++
      if status = .ok then ["stopped after the tick limit; the program was still running"]
      else []

/-- Run a machine: the steps that are shown, the status and the machine after the run.  There
is no answer if the run does not end. -/
def RunOptions.execute (o : RunOptions) (m : Machine) :
    Option (List TraceEntry × Status × Machine) :=
  match o.step, o.limit with
  | true, some n => some (m.follow n)
  | true, none => m.followAll
  | false, some n => some ([], m.runLimited n)
  | false, none => m.run.map fun r => ([], r)

/-- Run the program of a source.  There is no outcome if the run does not end. -/
def run (path : String) (o : RunOptions) (source : String) : Option Outcome :=
  match (Machine.ofField o.field).load source with
  | (.error e, _) => some (.failure [] (compileMessage path e))
  | (.ok _, m) =>
    (o.execute m).map fun (entries, status, after) =>
      { exitCode := if status.isFault then 2 else 0
        output := entries.map TraceEntry.line ++ report o.json status after
        errors := [] }

/-! ## 5. Requests -/

/-- The program file of a request. -/
def Request.path? : Request → Option String
  | run path _ => some path
  | assemble path _ => some path
  | check path => some path
  | version => none
  | help => none

/-- Carry out a request on the content of its program file.  There is no outcome if a run does
not end. -/
def Request.perform (request : Request) (source : Except ReadError String) : Option Outcome :=
  match request with
  | run path o =>
    match source with
    | .ok text => Command.run path o text
    | .error e => some (withSource path (.error e) fun _ => .success [])
  | assemble path bytes => some (withSource path source (Command.assemble path bytes))
  | check path => some (withSource path source (Command.check path))
  | version => some (.success ["ob1-emu 0.1.0"])
  | help => some (.success [])

/-- The outcome of a command line that asks for nothing. -/
def UsageError.outcome (e : UsageError) : Outcome := ⟨2, [], e.report?.toList⟩

end OneBit.Command
