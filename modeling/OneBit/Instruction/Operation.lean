/-
# Operations

The sixteen things that a guarded instruction can do: move the pointer one cell, take it home,
halt, skip the next instruction, or work on the data bit and the flag.  Each operation has a
mnemonic for source texts and a four-bit code, its place in `Operation.all`.
-/
import OneBit.Field.Cell
import OneBit.Text.Case

namespace OneBit

/-- What a guarded instruction does when its guard holds. -/
inductive Operation
  | move (direction : Direction)
  | home
  | halt
  | skip
  /-- Swap the flag and the data bit. -/
  | exchange
  /-- The data bit becomes the flag. -/
  | loadData
  | complementData
  | setData (value : Bool)
  /-- The flag becomes the data bit. -/
  | loadFlag
  | complementFlag
  | setFlag (value : Bool)
deriving DecidableEq, Repr

namespace Operation

/-- The operations in the order of their codes. -/
def all : List Operation :=
  [.move .right, .move .left, .move .up, .move .down, .home, .halt, .skip, .exchange,
   .loadData, .complementData, .setData false, .setData true,
   .loadFlag, .complementFlag, .setFlag false, .setFlag true]

/-- The operation's name in a source text. -/
def mnemonic : Operation → String
  | move .right => "r"
  | move .left => "l"
  | move .up => "u"
  | move .down => "d"
  | home => "h"
  | halt => "x"
  | skip => "sk"
  | exchange => "ex"
  | loadData => "df"
  | complementData => "dc"
  | setData false => "d0"
  | setData true => "d1"
  | loadFlag => "fd"
  | complementFlag => "fc"
  | setFlag false => "f0"
  | setFlag true => "f1"

/-- The operation's code. -/
def code : Operation → UInt8
  | move .right => 0
  | move .left => 1
  | move .up => 2
  | move .down => 3
  | home => 4
  | halt => 5
  | skip => 6
  | exchange => 7
  | loadData => 8
  | complementData => 9
  | setData false => 10
  | setData true => 11
  | loadFlag => 12
  | complementFlag => 13
  | setFlag false => 14
  | setFlag true => 15

/-- The operation with a mnemonic, in either case. -/
def ofMnemonic? (text : List Char) : Option Operation :=
  all.find? fun op => Text.equalUpToCase op.mnemonic.toList text

/-- The operation with a code. -/
def ofCode? (code : UInt8) : Option Operation := all[code.toNat]?

theorem mem_all (op : Operation) : op ∈ all := by
  cases op with
  | move d => cases d <;> decide
  | setData v => cases v <;> decide
  | setFlag v => cases v <;> decide
  | _ => decide

/-- **The code of an operation finds it again.** -/
theorem ofCode?_code (op : Operation) : ofCode? op.code = some op := by
  cases op with
  | move d => cases d <;> rfl
  | setData v => cases v <;> rfl
  | setFlag v => cases v <;> rfl
  | _ => rfl

/-- An operation found by a code has that code. -/
theorem code_of_ofCode? {c : UInt8} {op : Operation} (h : ofCode? c = some op) :
    op.code = c := by
  have hall : ∀ n : Fin 16, all[n.val]?.map code = some (UInt8.ofNat n) := by decide
  have hlt : c.toNat < 16 := (List.getElem?_eq_some_iff.mp h).1
  have hc := hall ⟨c.toNat, hlt⟩
  rw [show all[c.toNat]? = some op from h] at hc
  simpa using hc

theorem code_lt (op : Operation) : op.code < 16 := by
  cases op with
  | move d => cases d <;> decide
  | setData v => cases v <;> decide
  | setFlag v => cases v <;> decide
  | _ => decide

end Operation

end OneBit
