/-
# Instructions, programs and statuses as JSON

Each of the types below has a JSON form, and a reader for it.

* A choice among plain names is the name as a string.  Reading also takes an object whose only
  key is the name, with `null` as its value.
* A choice that carries data is an object whose only key is the name, with the data as its
  value.
* A record is an object with its fields in order.  Reading takes the fields in any order and
  passes over keys that are no field; a field must be there once.  It also takes an array of
  the fields in order.  All records here have one field.
* A tag ID is a whole number below 256, written in digits only.

Names are compared exactly.  A string that is no text is refused where a name or a key of a
record has to be read, and does no harm where a value is passed over.
-/
import OneBit.Json.Printer
import OneBit.Json.Reader
import OneBit.Machine.Status
import OneBit.Program.Basic

namespace OneBit

/-! ## 1. Shapes -/

namespace Json

/-- The name of a choice, and its data if there are any. -/
def choice? : Json → Option (String × Option Json)
  | .string (some name) => some (name, none)
  | .object [(some name, data)] => some (name, some data)
  | _ => none

/-- The name of a choice without data. -/
def plainChoice? (v : Json) : Option String :=
  match v.choice? with
  | some (name, none) => some name
  | some (name, some .null) => some name
  | _ => none

/-- The name of a choice with data, and the data. -/
def dataChoice? (v : Json) : Option (String × Json) :=
  match v.choice? with
  | some (name, some data) => some (name, data)
  | _ => none

/-- The value of the only field of a record. -/
def soleField? (field : String) : Json → Option Json
  | .array [v] => some v
  | .object members =>
    if members.all fun m => m.1.isSome then
      match members.filter fun m => m.1 == some field with
      | [(_, v)] => some v
      | _ => none
    else none
  | _ => none

/-- The values of an array. -/
def items? : Json → Option (List Json)
  | .array items => some items
  | _ => none

/-- A whole number below 256. -/
def byte? (v : Json) : Option UInt8 :=
  match v.nat? with
  | some n => if n < 256 then some (UInt8.ofNat n) else none
  | none => none

theorem byte?_nat (b : UInt8) : (nat b.toNat).byte? = some b := by
  simp [byte?, nat?_nat, b.toNat_lt]

end Json

/-! ## 2. Headers and operations -/

/-- The name of a header. -/
def Header.name : Header → String
  | tag => "Tag"
  | advance => "Advance"
  | retreat => "Retreat"
  | guarded .always => "Execute"
  | guarded (.data false) => "IfDataZero"
  | guarded (.data true) => "IfDataOne"
  | guarded (.flag false) => "IfFlagZero"
  | guarded (.flag true) => "IfFlagOne"

/-- The name of an operation. -/
def Operation.name : Operation → String
  | move .right => "MoveRight"
  | move .left => "MoveLeft"
  | move .up => "MoveUp"
  | move .down => "MoveDown"
  | home => "Home"
  | halt => "Halt"
  | skip => "Skip"
  | exchange => "ExchangeFlagData"
  | loadData => "LoadDataFromFlag"
  | complementData => "ComplementData"
  | setData false => "ClearData"
  | setData true => "SetData"
  | loadFlag => "LoadFlagFromData"
  | complementFlag => "ComplementFlag"
  | setFlag false => "ClearFlag"
  | setFlag true => "SetFlag"

/-- The header with a name. -/
def Header.ofName? (name : String) : Option Header := all.find? fun h => h.name == name

/-- The operation with a name. -/
def Operation.ofName? (name : String) : Option Operation := all.find? fun op => op.name == name

theorem Header.ofName?_name (h : Header) : ofName? h.name = some h := by
  cases h with
  | guarded g =>
    cases g with
    | data v => cases v <;> decide
    | flag v => cases v <;> decide
    | always => decide
  | _ => decide

theorem Operation.ofName?_name (op : Operation) : ofName? op.name = some op := by
  cases op with
  | move d => cases d <;> decide
  | setData v => cases v <;> decide
  | setFlag v => cases v <;> decide
  | _ => decide

def Header.toJson (h : Header) : Json := .text h.name

def Header.ofJson? (v : Json) : Option Header := v.plainChoice?.bind Header.ofName?

def Operation.toJson (op : Operation) : Json := .text op.name

def Operation.ofJson? (v : Json) : Option Operation := v.plainChoice?.bind Operation.ofName?

/-! ## 3. Instructions and programs -/

namespace Instruction

/-- An instruction is a choice by its header; its data are the tag ID or the operation. -/
def toJson (i : Instruction) : Json :=
  .record [(i.header.name,
    match i.operation? with
    | some op => .record [("op", op.toJson)]
    | none => .record [("id", .nat i.operand.toNat)])]

/-- The instruction with a header and the JSON form of its data. -/
def ofData? (data : Json) : Header → Option Instruction
  | .tag => ((data.soleField? "id").bind Json.byte?).map tag
  | .advance => ((data.soleField? "id").bind Json.byte?).map advance
  | .retreat => ((data.soleField? "id").bind Json.byte?).map retreat
  | .guarded g => ((data.soleField? "op").bind Operation.ofJson?).map (guarded g)

def ofJson? (v : Json) : Option Instruction :=
  v.dataChoice?.bind fun choice => (Header.ofName? choice.1).bind (ofData? choice.2)

/-- **An instruction is read back as it was written**, whatever its tag ID. -/
theorem ofJson?_toJson (i : Instruction) : ofJson? i.toJson = some i := by
  have hname : ofJson? i.toJson = ofData?
      (match i.operation? with
        | some op => .record [("op", op.toJson)]
        | none => .record [("id", .nat i.operand.toNat)]) i.header := by
    simp [ofJson?, toJson, Json.record, Json.dataChoice?, Json.choice?, Header.ofName?_name]
  rw [hname]
  cases i with
  | guarded g op =>
    simp [operation?, header, ofData?, Json.record, Json.soleField?, Operation.ofJson?,
      Operation.toJson, Json.text, Json.plainChoice?, Json.choice?, Operation.ofName?_name]
  | _ =>
    simp [operation?, header, operand, ofData?, Json.record, Json.soleField?, Json.byte?_nat]

end Instruction

namespace Program

/-- A program is a record with the list of its instructions. -/
def toJson (p : Program) : Json :=
  .record [("instructions", .array (p.instructions.map Instruction.toJson))]

def ofJson? (v : Json) : Option Program :=
  (((v.soleField? "instructions").bind Json.items?).bind
    fun items => items.mapM Instruction.ofJson?).map Program.mk

end Program

/-! ## 4. Modes, faults and statuses -/

/-- The name of a mode. -/
def Mode.name : Mode → String
  | run => "Run"
  | step => "Step"

def Mode.ofJson? (v : Json) : Option Mode :=
  v.plainChoice?.bind fun name => [run, step].find? fun m => m.name == name

def Mode.toJson (m : Mode) : Json := .text m.name

/-- The name of a fault. -/
def Fault.name : Fault → String
  | pointerOutOfRange => "PointerOutOfRange"
  | tagNotFound => "TagNotFound"
  | noProgramLoaded => "NoProgramLoaded"
  | undefinedOpcode => "UndefinedOpcode"

def Fault.ofJson? (v : Json) : Option Fault :=
  v.plainChoice?.bind fun name =>
    [pointerOutOfRange, tagNotFound, noProgramLoaded, undefinedOpcode].find?
      fun f => f.name == name

def Fault.toJson (f : Fault) : Json := .text f.name

/-- The name of a status. -/
def Status.name : Status → String
  | ok => "Ok"
  | halted => "Halted"
  | stepped => "Stepped"
  | terminated => "TerminatedNormally"
  | fault _ => "Fault"

/-- A status is its name, and for a fault also which one. -/
def Status.toJson : Status → Json
  | fault f => .record [("Fault", f.toJson)]
  | s => .text s.name

def Status.ofJson? (v : Json) : Option Status :=
  match v.plainChoice?.bind fun name =>
      [ok, halted, stepped, terminated].find? fun s => s.name == name with
  | some s => some s
  | none =>
    match v.dataChoice? with
    | some ("Fault", data) => (Fault.ofJson? data).map fault
    | _ => none

end OneBit
