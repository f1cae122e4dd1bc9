/-
# The machine

A machine is a field, a program and a COUNTER, the number of the next instruction.  There is a
counter only if there is a program with instructions.  A program that came to its end leaves
the counter at the end or, after a skip, one place further; from there the machine starts over
at the top.  `here?` is the place that the next tick will take, whatever way the counter
expresses it.

The machine also keeps the status of the last run and counts its ticks since the program was
installed.  Neither has an influence on what it does.
-/
import OneBit.Assembly.Compilation
import OneBit.Field.Basic
import OneBit.Machine.Status

namespace OneBit

/-- The state of the machine. -/
structure Machine where
  field : Field
  program : Program
  counter : Option Nat
  status : Status
  ticks : Nat
deriving DecidableEq

namespace Machine

/-- A machine around a field, without a program. -/
def ofField (f : Field) : Machine := ⟨f, ⟨[]⟩, none, .ok, 0⟩

/-- A machine with a cleared field and without a program. -/
def new : Machine := ofField .cleared

/-- Put a program into the machine, to start at its top.  The field stays. -/
def install (m : Machine) (p : Program) : Machine :=
  ⟨m.field, p, if p.isEmpty then none else some 0, .ok, 0⟩

/-- Compile a source and install what comes of it, also if there is an error.  The answer is
the number of lines, or the error. -/
def load (m : Machine) (source : String) : Except Assembly.CompileError Nat × Machine :=
  let c := Assembly.compile source
  (match c.error with
    | none => .ok c.linesConsumed
    | some e => .error e,
   m.install c.program)

/-- The counter as a number, -1 without a program. -/
def counterNumber (m : Machine) : Int :=
  match m.counter with
  | some c => c
  | none => -1

/-- The place of the instruction that the next tick carries out. -/
def here? (m : Machine) : Option Nat :=
  match m.counter with
  | some c =>
    if m.program.isEmpty then none
    else some (if c < m.program.length then c else 0)
  | none => none

theorem lt_of_here? {m : Machine} {n : Nat} (h : m.here? = some n) : n < m.program.length := by
  unfold here? at h
  split at h
  · split at h
    · exact absurd h (by simp)
    · rename_i hne
      have hpos : 0 < m.program.length := by
        simpa [Program.isEmpty, Program.length, List.length_pos_iff] using hne
      injection h with h
      split at h <;> omega
  · exact absurd h (by simp)

end Machine

end OneBit
