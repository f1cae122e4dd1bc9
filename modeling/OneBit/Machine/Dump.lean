/-
# The whole machine on paper

Two forms for a reader outside: a JSON record of everything the machine holds, and a summary in
one line, which counts the bits of the grid instead of showing them.
-/
import OneBit.Json.Coding
import OneBit.Machine.Basic

namespace OneBit

def Cell.toJson (c : Cell) : Json := .record [("x", .nat c.x), ("y", .nat c.y)]

def Field.toJson (f : Field) : Json :=
  .record
    [("rows", .array (f.grid.rows.map fun row => .array (row.map .bool))),
     ("flag", .bool f.flag),
     ("pointer", f.pointer.toJson)]

namespace Machine

def toJson (m : Machine) : Json :=
  .record
    [("field", m.field.toJson),
     ("program", m.program.toJson),
     ("counter", match m.counter with
       | some c => .nat c
       | none => .null),
     ("status", m.status.toJson),
     ("ticks", .nat m.ticks)]

/-- The name of a status in a summary. -/
def statusSummary : Status → String
  | .fault f => "Fault(" ++ f.name ++ ")"
  | s => s.name

/-- The machine in one line. -/
def summary (m : Machine) : String :=
  "Engine \x7b counter: " ++ toString m.counterNumber ++ ", status: " ++ statusSummary m.status ++
    ", ticks: " ++ toString m.ticks ++ ", field: BitField \x7b set_bits: " ++
    toString m.field.grid.count ++ ", flag: " ++ toString m.field.flag ++
    ", pointer: Pointer \x7b x: " ++ toString m.field.pointer.x.val ++ ", y: " ++
    toString m.field.pointer.y.val ++ " \x7d \x7d \x7d"

end Machine

end OneBit
