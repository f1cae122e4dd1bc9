/-
# Traces

A trace is the log of a run that is made step by step.  It has an entry for each step, with the
machine before it, the status it ended with and the machine after it.

`follow` makes steps until one ends with another status than `stepped`, or until a limit; like
a run, it ends with `ok` in the second case.
-/
import OneBit.Field.Picture
import OneBit.Machine.Run
import OneBit.Program.Listing

namespace OneBit

/-- One step of a trace. -/
structure TraceEntry where
  before : Machine
  status : Status
  after : Machine

namespace TraceEntry

/-- The address of the instruction, at least three characters wide. -/
def address (e : TraceEntry) : String :=
  match e.before.counter with
  | some c => addressText c
  | none => "-01"

/-- The text of the program at the counter. -/
def instructionText (e : TraceEntry) : String :=
  e.before.program.textAt e.before.counterNumber

/-- The entry as a line: the address and the text of the instruction, then the pointer, the
flag and the status after it. -/
def line (e : TraceEntry) : String :=
  e.address ++ ": " ++ Text.padEnd 9 e.instructionText ++ " ptr=(" ++
    Text.padStart 2 ' ' (toString e.after.field.pointer.x.val) ++ "," ++
    Text.padStart 2 ' ' (toString e.after.field.pointer.y.val) ++ ") flag=" ++
    String.singleton (bitDigit e.after.field.flag) ++ "  " ++ e.status.message

end TraceEntry

namespace Machine

/-- The entry of the next step. -/
def stepEntry (m : Machine) : TraceEntry := ⟨m, m.step.1, m.step.2⟩

/-- The entries of the next `n` steps, whatever they end with. -/
def steps : Nat → Machine → List TraceEntry
  | 0, _ => []
  | n + 1, m => m.stepEntry :: steps n m.step.2

/-- Make at most `n` steps, until one does not end with `stepped`. -/
def follow : Nat → Machine → List TraceEntry × Status × Machine
  | 0, m => ([], .ok, m)
  | n + 1, m =>
    let entry := m.stepEntry
    if entry.status = .stepped then
      let (entries, result) := follow n entry.after
      (entry :: entries, result)
    else ([entry], entry.status, entry.after)

/-- Make steps until one does not end with `stepped`.  There is no answer if none does. -/
def followAll (m : Machine) : Option (List TraceEntry × Status × Machine) :=
  let r := follow m.runBound m
  if r.2.1 = .ok then none else some r

end Machine

end OneBit
