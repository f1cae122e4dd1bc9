/-
# Statements

The part of a source line that counts is its STATEMENT.  A line may start with a label, which
ends at the first `@`, and may end with a comment, which starts at the first `#` after that; so
an `@` in a comment makes all before it a label.  What remains, without the blanks around it,
is the statement.  An empty statement says nothing.

Any other statement has to be a header, a comma and an operand, with blanks allowed around
both.  The operand is the mnemonic of an operation, or a numeral from 0 to 15, whatever the
header: `exec,5` is `exec,x`, and `tag,x` is `tag,5`.  Three things can be wrong with it, and
they are looked for in this order: there is no comma, the header is unknown, the operand is
neither.
-/
import OneBit.Instruction.Basic
import OneBit.Text.Blank
import OneBit.Text.Cut
import OneBit.Text.Numeral

namespace OneBit.Assembly

/-- What can be wrong with a statement. -/
inductive ErrorKind
  | missingSeparator
  | unknownHeader
  | invalidOperand
deriving DecidableEq, Repr

/-- The wording of a kind of error. -/
def ErrorKind.message : ErrorKind → String
  | missingSeparator => "missing ',' separator"
  | unknownHeader => "unknown header"
  | invalidOperand => "instruction or number 0-15 expected"

/-- The statement of a line. -/
def statement (line : List Char) : List Char :=
  Text.trim (Text.before '#' (Text.after '@' line))

/-- A numeral from 0 to 15. -/
def smallNumber? (text : List Char) : Option UInt8 :=
  match Text.signed? text with
  | some v => if 0 ≤ v ∧ v ≤ 15 then some (UInt8.ofNat v.toNat) else none
  | none => none

/-- The value of an operand. -/
def operand? (text : List Char) : Option UInt8 :=
  match Operation.ofMnemonic? text with
  | some op => some op.code
  | none => smallNumber? text

/-- The instruction of a statement that is not empty. -/
def parse (text : List Char) : Except ErrorKind Instruction :=
  match Text.splitAt? ',' text with
  | none => .error .missingSeparator
  | some (left, right) =>
    match Header.ofMnemonic? (Text.trim left) with
    | none => .error .unknownHeader
    | some header =>
      match (operand? (Text.trim right)).bind (Instruction.ofParts? header) with
      | none => .error .invalidOperand
      | some instruction => .ok instruction

end OneBit.Assembly
