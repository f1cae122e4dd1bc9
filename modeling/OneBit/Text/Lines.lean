/-
# The lines of a text

A line ends at a line feed or at the end of the text.  One carriage return directly before the
line feed belongs to the line's end, so a text has the same lines whether its lines end in
`\n` or in `\r\n`.  A text that ends in a line feed has no empty line after it.
-/
namespace OneBit.Text

/-- The lines of `s`, without their ends. -/
def linesOf : List Char → List (List Char)
  | [] => []
  | '\n' :: rest => [] :: linesOf rest
  | '\r' :: '\n' :: rest => [] :: linesOf rest
  | c :: rest =>
    match linesOf rest with
    | [] => [[c]]
    | line :: more => (c :: line) :: more

/-- The lines of a text, as texts. -/
def lines (s : String) : List String := (linesOf s.toList).map String.ofList

end OneBit.Text
