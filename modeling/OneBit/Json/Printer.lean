/-
# Writing JSON

There are two layouts.  The compact one has no blanks at all.  In the indented one each item of
an array and each member of an object has a line of its own, two spaces further in than its
container, and a space follows each colon; an empty container stays on one line.

In strings, quotes, backslashes and control characters are escaped, and nothing else is.  A
string that is no text is written as half a surrogate pair, which reads back as no text.
-/
import OneBit.Json.Value

namespace OneBit.Json

/-- How a document is laid out. -/
inductive Layout
  | compact
  | indented
deriving DecidableEq, Repr

/-- What stands before an item at depth `depth`, and before the end of its container. -/
def Layout.lineBreak (depth : Nat) : Layout → List Char
  | .compact => []
  | .indented => '\n' :: List.replicate (2 * depth) ' '

/-- What stands between a key and its value. -/
def Layout.colon : Layout → List Char
  | .compact => [':']
  | .indented => [':', ' ']

/-- A character in a string. -/
def escape (c : Char) : List Char :=
  match c with
  | '"' => ['\\', '"']
  | '\\' => ['\\', '\\']
  | '\x08' => ['\\', 'b']
  | '\x0c' => ['\\', 'f']
  | '\n' => ['\\', 'n']
  | '\r' => ['\\', 'r']
  | '\t' => ['\\', 't']
  | c =>
    if c.toNat < 0x20 then
      ['\\', 'u', '0', '0', Nat.digitChar (c.toNat / 16), Nat.digitChar (c.toNat % 16)]
    else [c]

/-- A string in its quotes. -/
def quoted : Option String → List Char
  | some s => '"' :: s.toList.flatMap escape ++ ['"']
  | none => ['"', '\\', 'u', 'd', '8', '0', '0', '"']

mutual

/-- A value that stands at depth `depth`. -/
def write (l : Layout) (depth : Nat) : Json → List Char
  | .null => ['n', 'u', 'l', 'l']
  | .bool true => ['t', 'r', 'u', 'e']
  | .bool false => ['f', 'a', 'l', 's', 'e']
  | .number numeral => numeral.toList
  | .string s => quoted s
  | .array [] => ['[', ']']
  | .array (v :: vs) =>
    '[' :: l.lineBreak (depth + 1) ++ write l (depth + 1) v ++ writeItems l (depth + 1) vs ++
      l.lineBreak depth ++ [']']
  | .object [] => ['\x7b', '\x7d']
  | .object ((k, v) :: ms) =>
    '\x7b' :: l.lineBreak (depth + 1) ++ quoted k ++ l.colon ++ write l (depth + 1) v ++
      writeMembers l (depth + 1) ms ++ l.lineBreak depth ++ ['\x7d']

/-- The items after the first one. -/
def writeItems (l : Layout) (depth : Nat) : List Json → List Char
  | [] => []
  | v :: vs => ',' :: l.lineBreak depth ++ write l depth v ++ writeItems l depth vs

/-- The members after the first one. -/
def writeMembers (l : Layout) (depth : Nat) : List (Option String × Json) → List Char
  | [] => []
  | (k, v) :: ms =>
    ',' :: l.lineBreak depth ++ quoted k ++ l.colon ++ write l depth v ++
      writeMembers l depth ms

end

/-- The document of a value. -/
def print (l : Layout) (v : Json) : String := String.ofList (write l 0 v)

end OneBit.Json
