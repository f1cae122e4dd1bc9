/-
# A picture of the field

Seventeen lines show all there is to a field.  The rows come first, the top row first, each
behind its number.  A cell takes three characters, with its bit in the middle; the cell under
the pointer stands in brackets.  The last line tells the flag and the pointer.
-/
import OneBit.Field.Basic
import OneBit.Text.Numeral

namespace OneBit

/-- A bit as a digit. -/
def bitDigit (b : Bool) : Char := if b then '1' else '0'

namespace Field

/-- A cell in the picture. -/
def cellPicture (f : Field) (c : Cell) : String :=
  if f.pointer = c then String.ofList ['[', bitDigit (f.grid.get c), ']']
  else String.ofList [' ', bitDigit (f.grid.get c), ' ']

/-- A row in the picture. -/
def rowPicture (f : Field) (y : Coordinate) : String :=
  Text.padStart 2 ' ' (toString y.val) ++ " " ++ String.join ((Cell.ofRow y).map f.cellPicture)

/-- The line below the rows. -/
def legend (f : Field) : String :=
  "FLAG=" ++ String.singleton (bitDigit f.flag) ++ "  POINTER=(" ++ toString f.pointer.x.val ++
    ", " ++ toString f.pointer.y.val ++ ")"

/-- The lines of the picture. -/
def picture (f : Field) : List String :=
  (List.finRange 16).reverse.map f.rowPicture ++ [f.legend]

end Field

end OneBit
