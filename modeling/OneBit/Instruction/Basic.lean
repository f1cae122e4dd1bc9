/-
# Instructions

An instruction is a header with an operand.  The operand of the three tag headers is a tag ID,
that of a guarded header is an operation.

A source text or a byte can only hold operands of four bits, and `ofParts?` gives nothing for a
wider one.  The ID itself is a whole byte, and instructions built by other means may carry an
ID above 15: it is kept, compared and printed as it is.
-/
import OneBit.Instruction.Header
import OneBit.Instruction.Operation

namespace OneBit

/-- One instruction of a program. -/
inductive Instruction
  /-- Marks a place with an ID; does nothing when it is met. -/
  | tag (id : UInt8)
  /-- Goes to the nearest tag with the ID behind this place. -/
  | advance (id : UInt8)
  /-- Goes to the nearest tag with the ID before this place. -/
  | retreat (id : UInt8)
  /-- Carries out the operation if the guard holds. -/
  | guarded (guard : Guard) (operation : Operation)
deriving DecidableEq, Repr

namespace Instruction

/-- What kind of instruction it is. -/
def header : Instruction → Header
  | tag _ => .tag
  | advance _ => .advance
  | retreat _ => .retreat
  | guarded g _ => .guarded g

/-- The tag ID, or the code of the operation. -/
def operand : Instruction → UInt8
  | tag id => id
  | advance id => id
  | retreat id => id
  | guarded _ op => op.code

/-- The operation, if the instruction has one. -/
def operation? : Instruction → Option Operation
  | guarded _ op => some op
  | _ => none

/-- The instruction with a header and an operand of at most four bits. -/
def ofParts? (header : Header) (operand : UInt8) : Option Instruction :=
  if operand > 15 then none
  else
    match header with
    | .tag => some (tag operand)
    | .advance => some (advance operand)
    | .retreat => some (retreat operand)
    | .guarded g => (Operation.ofCode? operand).map (guarded g)

/-- **The parts of an instruction make it again**, if its operand has four bits. -/
theorem ofParts?_header_operand {i : Instruction} (h : i.operand ≤ 15) :
    ofParts? i.header i.operand = some i := by
  have hn : ¬ i.operand > 15 := UInt8.not_lt.mpr h
  unfold ofParts?
  rw [if_neg hn]
  cases i with
  | guarded g op => simp [header, operand, Operation.ofCode?_code]
  | _ => rfl

/-- An instruction made of two parts has those parts. -/
theorem parts_of_ofParts? {h : Header} {o : UInt8} {i : Instruction}
    (hi : ofParts? h o = some i) : i.header = h ∧ i.operand = o := by
  unfold ofParts? at hi
  split at hi
  · exact absurd hi (by simp)
  · split at hi
    · cases hi; exact ⟨rfl, rfl⟩
    · cases hi; exact ⟨rfl, rfl⟩
    · cases hi; exact ⟨rfl, rfl⟩
    · obtain ⟨op, hop, rfl⟩ := Option.map_eq_some_iff.mp hi
      exact ⟨rfl, Operation.code_of_ofCode? hop⟩

/-- The instruction as a line of a source text: the two parts with a comma between them. -/
def text (i : Instruction) : String :=
  i.header.mnemonic ++ "," ++
    match i.operation? with
    | some op => op.mnemonic
    | none => toString i.operand.toNat

end Instruction

end OneBit
