/-
# Statuses and faults

Every run and every step of the machine ends with a STATUS.  A fault is a status, not an error
of the caller: the machine stays as it was before the instruction that failed, and the same
instruction is tried again when it is run on.
-/

namespace OneBit

/-- Why an instruction cannot be carried out. -/
inductive Fault
  | pointerOutOfRange
  | tagNotFound
  | noProgramLoaded
  | undefinedOpcode
deriving DecidableEq, Repr

/-- How a run or a step ended. -/
inductive Status
  /-- The program can go on. -/
  | ok
  /-- The program asked for a halt, and can go on. -/
  | halted
  /-- One step was made, and the program can go on. -/
  | stepped
  /-- The program came to its end. -/
  | terminated
  | fault (fault : Fault)
deriving DecidableEq, Repr

/-- Run until something stops the program, or make one step. -/
inductive Mode
  | run
  | step
deriving DecidableEq, Repr

/-- The wording of a fault. -/
def Fault.message : Fault → String
  | pointerOutOfRange => "data pointer out of range"
  | tagNotFound => "tag not found"
  | noProgramLoaded => "no program loaded"
  | undefinedOpcode => "undefined opcode"

namespace Status

/-- The wording of a status. -/
def message : Status → String
  | ok => "ok"
  | halted => "halt"
  | stepped => "step"
  | terminated => "program terminated normally"
  | fault f => f.message

/-- Is the status a fault? -/
def isFault : Status → Bool
  | fault _ => true
  | _ => false

/-- Does the status end a run? -/
def isTerminal : Status → Bool
  | halted => true
  | terminated => true
  | fault _ => true
  | _ => false

end Status

end OneBit
