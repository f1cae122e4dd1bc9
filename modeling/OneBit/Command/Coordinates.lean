/-
# Cells on the command line

A cell is written as two coordinates with a comma between them.  The first comma counts, so a
second one would belong to the second coordinate, and is wrong there.  A coordinate is a
numeral below 16 that may have a `+` in front, with blanks around it.  The first coordinate is
looked at first.
-/
import OneBit.Field.Cell
import OneBit.Text.Blank
import OneBit.Text.Cut
import OneBit.Text.Numeral

namespace OneBit.Command

/-- Why a text is no cell. -/
inductive CellError
  | noComma (text : String)
  /-- The part, without the blanks around it, is no coordinate. -/
  | badCoordinate (part : String)
deriving DecidableEq, Repr

/-- The wording of a cell error. -/
def CellError.message : CellError → String
  | noComma text => "expected X,Y but got `" ++ text ++ "`"
  | badCoordinate part => "coordinate `" ++ part ++ "` is not in 0-15"

/-- The coordinate that a text spells. -/
def coordinate? (text : List Char) : Option Coordinate :=
  match Text.unsigned? (Text.trim text) with
  | some n => if h : n < 16 then some ⟨n, h⟩ else none
  | none => none

/-- The cell that a text spells. -/
def parseCell (text : String) : Except CellError Cell :=
  match Text.splitAt? ',' text.toList with
  | none => .error (.noComma text)
  | some (left, right) =>
    match coordinate? left with
    | none => .error (.badCoordinate (String.ofList (Text.trim left)))
    | some x =>
      match coordinate? right with
      | none => .error (.badCoordinate (String.ofList (Text.trim right)))
      | some y => .ok ⟨x, y⟩

end OneBit.Command
