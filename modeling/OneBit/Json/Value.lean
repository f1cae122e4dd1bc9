/-
# JSON values

A JSON document as a tree.  Two things are kept as they are written, because reading them
differently would lose documents that are well formed:

* a number is its numeral, since numerals like `1e400` are welcome where nobody asks for
  their value;
* the members of an object stand in their order, and a key may occur twice.

A string may hold half a surrogate pair, written as an escape.  Then it is well formed, but no
text, and `none` stands for it.
-/
import OneBit.Text.Numeral

namespace OneBit

/-- A JSON value. -/
inductive Json
  | null
  | bool (value : Bool)
  | number (numeral : String)
  | string (text : Option String)
  | array (items : List Json)
  | object (members : List (Option String × Json))

namespace Json

/-- A string that is a text. -/
def text (s : String) : Json := .string (some s)

/-- A whole number. -/
def nat (n : Nat) : Json := .number (toString n)

/-- An object whose keys are texts. -/
def record (members : List (String × Json)) : Json :=
  .object (members.map fun m => (some m.1, m.2))

/-- The value of a number that is written in digits only. -/
def nat? : Json → Option Nat
  | .number numeral => Text.natural? numeral.toList
  | _ => none

theorem nat?_nat (n : Nat) : (nat n).nat? = some n := Text.natural?_toString n

end Json

end OneBit
