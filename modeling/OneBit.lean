import OneBit.Text.Blank
import OneBit.Text.Case
import OneBit.Text.Cut
import OneBit.Text.Lines
import OneBit.Text.Numeral
import OneBit.Field.Cell
import OneBit.Field.Grid
import OneBit.Field.Basic
import OneBit.Field.Checked
import OneBit.Field.Picture
import OneBit.Instruction.Operation
import OneBit.Instruction.Header
import OneBit.Instruction.Basic
import OneBit.Instruction.Byte
import OneBit.Program.Basic
import OneBit.Program.Listing
import OneBit.Assembly.Statement
import OneBit.Assembly.Compilation
import OneBit.Json.Value
import OneBit.Json.Token
import OneBit.Json.Reader
import OneBit.Json.Printer
import OneBit.Machine.Status
import OneBit.Machine.Basic
import OneBit.Machine.Tick
import OneBit.Machine.Run
import OneBit.Machine.Trace
import OneBit.Machine.Dump
import OneBit.Json.Coding
import OneBit.Command.Coordinates
import OneBit.Command.Usage
import OneBit.Command.Arguments
import OneBit.Command.Perform
import OneBit.Main
import OneBit.Text.Plain
import OneBit.Text.Similarity
import OneBit.Proofs.Field.Edit
import OneBit.Proofs.Machine.Call
import OneBit.Proofs.Machine.Tick
import OneBit.Proofs.Machine.Settled
import OneBit.Proofs.Assembly.Sequence
import OneBit.Proofs.Text.Cut
import OneBit.Proofs.Text.Case
import OneBit.Proofs.Text.Numeral
import OneBit.Proofs.Instruction.Mnemonic
import OneBit.Proofs.Text.Lines
import OneBit.Proofs.Assembly.Grammar
import OneBit.Proofs.Assembly.Disassembly
import OneBit.Proofs.Assembly.NormalForm
import OneBit.Proofs.Machine.Drive
import OneBit.Proofs.Machine.Slices
import OneBit.Proofs.Field.Count
import OneBit.Proofs.Machine.Halting
import OneBit.Proofs.Machine.Retry
import OneBit.Proofs.Machine.Reference
import OneBit.Proofs.Machine.Refinement
import OneBit.Proofs.Machine.Session
import OneBit.Proofs.Program.Nearest
import OneBit.Proofs.Machine.Equivalence
import OneBit.Proofs.Machine.Linking
import OneBit.Proofs.Machine.Relocation
import OneBit.Proofs.Machine.Symmetry
import OneBit.Proofs.Machine.Complement
import OneBit.Proofs.Machine.Pauses
import OneBit.Proofs.Machine.Relabeling
import OneBit.Proofs.Machine.Transposition
import OneBit.Proofs.Machine.Visits
import OneBit.Proofs.Machine.Secrecy
import OneBit.Proofs.Machine.Following
import OneBit.Proofs.Json.Scanning
import OneBit.Proofs.Json.RoundTrip
import OneBit.Proofs.Machine.Document
import OneBit.Proofs.Command.Reading
import OneBit.Proofs.Command.Stepping
import OneBit.Proofs.Words.Word
import OneBit.Proofs.Words.Field
import OneBit.Proofs.Words.Search
import OneBit.Proofs.Words.Machine
import OneBit.Proofs.Words.CommandLine
import OneBit.Proofs.Machine.Forward
import OneBit.Proofs.Field.Cells
import OneBit.Proofs.Machine.Frame
import OneBit.Proofs.Program.Listing
import OneBit.Proofs.Command.Agreement
import OneBit.Proofs.Assembly.Decoration
import OneBit.Proofs.Machine.Scan
import OneBit.Proofs.Text.Lower
import OneBit.Proofs.Assembly.LetterCase
import OneBit.Proofs.Text.LineEnds
import OneBit.Proofs.Assembly.LineEnds
import OneBit.Proofs.Command.Picture
import OneBit.Proofs.Command.Listings
import OneBit.Proofs.Machine.Log
import OneBit.Proofs.Command.Trace
import OneBit.Proofs.Command.Dump
import OneBit.Proofs.Field.Store
import OneBit.Proofs.Command.Coordinates
