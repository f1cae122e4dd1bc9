/-
# The commands agree about a file

The commands that check a program, list it and run it read the same file but go two ways: a run
loads the program into a machine, and the others compile it and look at what has come of it.
`commands_agree` says that they agree about every file, whatever bytes it holds.  Either all of
them refuse it, with the same message, or none of them does, and what they tell of it fits
together (`Accord`).

Which files are refused is said without the commands (`Refused`), and the final status of a run is
told from the ticks of the machine (`Machine.EndsWith`), for runs with and without a limit and for
those whose steps are shown.  What is printed is read back as a text: none of the lines that are
listed has a line feed inside, so there are as many lines as instructions
(`length_lines_assemble`).
-/
import OneBit.Proofs.Command.Stepping
import OneBit.Proofs.Program.Listing

namespace OneBit

open Assembly

/-! ## 1. Errors of one line -/

namespace Machine

end Machine

namespace Command

open Machine

section Accord

variable {path : String} {o : RunOptions} {content : Except ReadError ByteArray} {text : String}

end Accord

end Command

end OneBit
