/-
# Listings

A listing shows a program line by line: the number of each instruction, with at least three
digits, and its text.  The second form puts the byte of the instruction between the two.

The text at a place outside the program is `#`, the mark of an empty slot.  It is no
instruction in a source text either, where it starts a comment.
-/
import OneBit.Program.Basic
import OneBit.Instruction.Byte

namespace OneBit

/-- The number of an instruction, with at least three digits. -/
def addressText (n : Nat) : String := Text.padStart 3 '0' (toString n)

namespace Program

/-- The texts of the instructions. -/
def texts (p : Program) : List String := p.instructions.map Instruction.text

/-- The text at a place, which may lie outside the program. -/
def textAt (p : Program) (index : Int) : String :=
  match index with
  | .ofNat i =>
    match p.get? i with
    | some instruction => instruction.text
    | none => "#"
  | .negSucc _ => "#"

/-- The bytes of the instructions. -/
def encode (p : Program) : List UInt8 := p.instructions.map Instruction.encode

/-- The lines of the listing. -/
def listing (p : Program) : List String :=
  p.instructions.zipIdx.map fun entry => addressText entry.2 ++ ": " ++ entry.1.text

/-- The lines of the listing with bytes. -/
def byteListing (p : Program) : List String :=
  p.instructions.zipIdx.map fun entry =>
    addressText entry.2 ++ ": " ++ Text.hexByteUpper entry.1.encode ++ "  " ++ entry.1.text

end Program

end OneBit
