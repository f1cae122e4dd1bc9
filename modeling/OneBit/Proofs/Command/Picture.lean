/-
# What a picture tells

The picture of a field says all there is to know of it.  To see this, the printed text is looked
at the way a reader does: it is cut into lines, a row is cut behind its number, and what is left
is cut into TILES of three characters, one for each cell from left to right (`tileAt?`).  None of
this knows the field.  `tileAt?_lines` says what the reader finds, at every cell.

So the reader finds each bit, the one tile that stands in brackets, and the flag in the last line,
and two fields with the same text are the same field (`picture_determines_field`).
-/
import OneBit.Command.Perform
import OneBit.Proofs.Text.Lines

namespace OneBit

/-! ## 1. How a picture is read -/

/-- Three characters of a picture, which stand for a cell. -/
structure Tile where
  left : Char
  digit : Char
  right : Char
deriving DecidableEq, Repr

namespace Tile

/-- The characters of a tile. -/
def chars (t : Tile) : List Char := [t.left, t.digit, t.right]

/-- The tile stands in brackets. -/
def isBracketed (t : Tile) : Bool := t.left == '[' && t.right == ']'

/-- The tiles that a text consists of. -/
def listOf : List Char → List Tile
  | left :: digit :: right :: rest => ⟨left, digit, right⟩ :: listOf rest
  | _ => []

/-- **Tiles that are laid end to end are found again.** -/
theorem listOf_flatMap_chars (tiles : List Tile) : listOf (tiles.flatMap chars) = tiles := by
  induction tiles with
  | nil => rfl
  | cons t tiles ih =>
    rw [List.flatMap_cons]
    exact congrArg (t :: ·) ih

theorem length_flatMap_chars (tiles : List Tile) :
    (tiles.flatMap chars).length = 3 * tiles.length := by
  induction tiles with
  | nil => rfl
  | cons t tiles ih =>
    rw [List.flatMap_cons, List.length_append, ih, List.length_cons, Nat.mul_succ, Nat.add_comm]
    rfl

end Tile

/-- The tile of a cell in the lines of a picture.  The top row comes first, and the number of a row
and the space behind it take three characters. -/
def tileAt? (lines : List String) (c : Cell) : Option Tile :=
  lines[15 - c.y.val]?.bind fun line => (Tile.listOf (line.toList.drop 3))[c.x.val]?

theorem bitDigit_inj {a b : Bool} : bitDigit a = bitDigit b ↔ a = b := by
  cases a <;> cases b <;> decide

/-! ## 2. The rows of a picture -/

/-- The number of a row, as a picture shows it. -/
def rowNumber (y : Coordinate) : List Char := (Text.padStart 2 ' ' (toString y.val)).toList

theorem length_rowNumber (y : Coordinate) : (rowNumber y).length = 2 := by
  revert y
  decide

theorem inline_rowNumber (y : Coordinate) : Text.Inline (rowNumber y) :=
  Text.inline_padStart (by decide) (Text.inline_toString _)

namespace Field

/-- The text of a picture. -/
def pictureText (f : Field) : String := String.join (f.picture.map fun line => line ++ "\n")

/-- The tile that stands for a cell of the field. -/
def tile (f : Field) (c : Cell) : Tile :=
  if c = f.pointer then ⟨'[', bitDigit (f.grid.get c), ']'⟩
  else ⟨' ', bitDigit (f.grid.get c), ' '⟩

theorem toList_cellPicture (f : Field) (c : Cell) :
    (f.cellPicture c).toList = (f.tile c).chars := by
  simp only [cellPicture, tile, eq_comm (a := f.pointer)]
  split <;> exact String.toList_ofList

/-- A row is its number, a space, and the tiles of its cells. -/
theorem toList_rowPicture (f : Field) (y : Coordinate) :
    (f.rowPicture y).toList =
      rowNumber y ++ [' '] ++ ((Cell.ofRow y).map f.tile).flatMap Tile.chars := by
  rw [rowPicture, String.toList_append, String.toList_append, String.toList_join,
    List.flatMap_map, List.flatMap_map]
  simp only [toList_cellPicture]
  rfl

/-- A row is 16 tiles wide, besides its number. -/
theorem length_rowPicture (f : Field) (y : Coordinate) :
    (f.rowPicture y).toList.length = 3 + 3 * 16 := by
  rw [toList_rowPicture, List.length_append, List.length_append, length_rowNumber,
    Tile.length_flatMap_chars, List.length_map, Cell.ofRow, List.length_map, List.length_finRange]
  rfl

/-- The digit of a tile, and what stands around it, is no end of a line. -/
theorem inline_chars_tile (f : Field) (c : Cell) : Text.Inline (f.tile c).chars := by
  rw [tile]
  split <;> cases f.grid.get c <;> decide

theorem inline_rowPicture (f : Field) (y : Coordinate) : Text.Inline (f.rowPicture y).toList := by
  rw [toList_rowPicture, Text.inline_append, Text.inline_append]
  refine ⟨⟨inline_rowNumber y, by decide⟩, Text.inline_flatMap fun t ht => ?_⟩
  obtain ⟨c, -, rfl⟩ := List.mem_map.mp ht
  exact f.inline_chars_tile c

theorem inline_legend (f : Field) : Text.Inline f.legend.toList := by
  have hdigit : ∀ b, Text.Inline (String.singleton (bitDigit b)).toList := by decide
  simp only [legend, String.toList_append, Text.inline_append]
  exact ⟨⟨⟨⟨⟨⟨by decide, hdigit _⟩, by decide⟩, Text.inline_toString _⟩, by decide⟩,
    Text.inline_toString _⟩, by decide⟩

/-! ## 3. What a reader finds -/

/-- **The text of a picture has the lines of the picture.** -/
theorem lines_pictureText (f : Field) : Text.lines f.pictureText = f.picture := by
  refine Text.lines_join ?_
  intro line hline
  rw [picture, List.mem_append, List.mem_singleton] at hline
  rcases hline with hrow | rfl
  · obtain ⟨y, -, rfl⟩ := List.mem_map.mp hrow
    exact (f.inline_rowPicture y).unbroken
  · exact f.inline_legend.unbroken

/-- The rows stand from the top to the bottom. -/
theorem getElem?_picture (f : Field) (y : Coordinate) :
    f.picture[15 - y.val]? = some (f.rowPicture y) := by
  have hplace : (List.finRange 16).reverse[15 - y.val]? = some y := by
    revert y
    decide
  have hlt : 15 - y.val < ((List.finRange 16).reverse.map f.rowPicture).length := by
    simp only [List.length_map, List.length_reverse, List.length_finRange]
    omega
  rw [picture, List.getElem?_append_left hlt, List.getElem?_map, hplace, Option.map_some]

/-- **A reader finds the tile of each cell at the cell's place.** -/
theorem tileAt?_lines (f : Field) (c : Cell) :
    tileAt? (Text.lines f.pictureText) c = some (f.tile c) := by
  have hlabel : (rowNumber c.y ++ [' ']).length = 3 := by
    rw [List.length_append, length_rowNumber, List.length_singleton]
  have hcolumn : (List.finRange 16)[c.x.val]? = some c.x := by simp
  rw [tileAt?, lines_pictureText, getElem?_picture, Option.bind_some, toList_rowPicture,
    List.drop_left' hlabel, Tile.listOf_flatMap_chars, List.getElem?_map, Cell.ofRow,
    List.getElem?_map, hcolumn]
  rfl

theorem isBracketed_tile (f : Field) (c : Cell) :
    (f.tile c).isBracketed = true ↔ c = f.pointer := by
  rw [tile]
  split
  · exact iff_of_true (by simp [Tile.isBracketed]) ‹_›
  · exact iff_of_false (by simp [Tile.isBracketed]) ‹_›

theorem digit_tile (f : Field) (c : Cell) : (f.tile c).digit = bitDigit (f.grid.get c) := by
  rw [tile]
  split <;> rfl

/-- The flag is the sixth character of the last line. -/
theorem getElem?_legend (f : Field) : f.legend.toList[5]? = some (bitDigit f.flag) := by
  have hlabel : "FLAG=".toList.length = 5 := rfl
  simp only [legend, String.toList_append, String.toList_singleton, List.append_assoc]
  rw [List.getElem?_append_right (Nat.le_of_eq hlabel), hlabel]
  rfl

/-- **Fields with the same text are the same.** -/
theorem pictureText_inj {f g : Field} : f.pictureText = g.pictureText ↔ f = g := by
  constructor
  · intro h
    have hlines : f.picture = g.picture := by
      rw [← lines_pictureText, ← lines_pictureText, h]
    have htile : ∀ c, f.tile c = g.tile c := by
      intro c
      have hf := f.tileAt?_lines c
      rw [h, g.tileAt?_lines] at hf
      exact (Option.some.inj hf).symm
    have hgrid : f.grid = g.grid := by
      refine Grid.ext_get fun c => bitDigit_inj.mp ?_
      rw [← digit_tile, ← digit_tile, htile]
    have hpointer : f.pointer = g.pointer := by
      rw [← isBracketed_tile, ← htile, isBracketed_tile]
    have hflag : f.flag = g.flag := by
      have hlegend : f.legend = g.legend := by
        have hlast := congrArg List.getLast? hlines
        rwa [picture, picture, List.getLast?_concat, List.getLast?_concat, Option.some.injEq]
          at hlast
      rw [← bitDigit_inj, ← Option.some.injEq, ← getElem?_legend, ← getElem?_legend, hlegend]
    obtain ⟨grid, flag, pointer⟩ := f
    obtain ⟨grid', flag', pointer'⟩ := g
    rw [Field.mk.injEq]
    exact ⟨hgrid, hflag, hpointer⟩
  · rintro rfl
    rfl

end Field

/-! ## 4. The picture that a run prints -/

namespace Command

open OneBit.Field

/-- What is printed of a machine begins with the picture of its field. -/
theorem outputText_report (status : Status) (m : Machine) :
    ∃ rest, (Outcome.success (report false status m)).outputText = m.field.pictureText ++ rest := by
  simp only [Outcome.outputText, Outcome.success, report, Bool.false_eq_true, if_false,
    List.append_assoc, List.map_append, String.join_append]
  exact ⟨_, rfl⟩

/-- **The printed picture determines the field.**  The text has 17 lines.  The first 16 show the
rows from 15 down to 0, each behind its number, with a tile for each cell from left to right, and
the last one shows the flag and the pointer.  The digit of a tile is the bit of its cell.  The tile
under the pointer is the only one in brackets, and shows the data bit.  As many tiles show a 1 as
cells are set.  Two fields with the same text are equal.  A run that is not printed as JSON prints
this text of the field that it leaves. -/
theorem picture_determines_field :
    (∀ f : Field,
      let lines := Text.lines f.pictureText
      lines.length = 17 ∧
      (∀ y : Coordinate, ∃ row, lines[15 - y.val]? = some row ∧ row.toList.length = 3 + 3 * 16 ∧
        row.toList.take 3 = (Text.padStart 2 ' ' (toString y.val)).toList ++ [' ']) ∧
      lines[16]? = some ("FLAG=" ++ String.singleton (bitDigit f.flag) ++ "  POINTER=(" ++
        toString f.pointer.x.val ++ ", " ++ toString f.pointer.y.val ++ ")") ∧
      (∀ c, tileAt? lines c = some (if c = f.pointer then ⟨'[', bitDigit (f.grid.get c), ']'⟩
        else ⟨' ', bitDigit (f.grid.get c), ' '⟩)) ∧
      (∀ c, (tileAt? lines c).any Tile.isBracketed = true ↔ c = f.pointer) ∧
      (tileAt? lines f.pointer).map Tile.digit = some (bitDigit f.data) ∧
      (Cell.all.countP fun c => (tileAt? lines c).any fun t => t.digit == '1') = f.grid.count) ∧
    (∀ f g : Field, f.pictureText = g.pictureText ↔ f = g) ∧
    ∀ (status : Status) (m : Machine), ∃ rest,
      (Outcome.success (report false status m)).outputText = m.field.pictureText ++ rest := by
  refine ⟨?_, fun f g => pictureText_inj, outputText_report⟩
  intro f lines
  refine ⟨?_, ?_, ?_, f.tileAt?_lines, ?_, ?_, ?_⟩
  · simp only [lines, lines_pictureText, picture, List.length_append, List.length_map,
      List.length_reverse, List.length_finRange, List.length_singleton]
  · intro y
    have hlabel : (rowNumber y ++ [' ']).length = 3 := by
      rw [List.length_append, length_rowNumber, List.length_singleton]
    refine ⟨f.rowPicture y, ?_, ?_, ?_⟩
    · simp only [lines, lines_pictureText, getElem?_picture]
    · exact f.length_rowPicture y
    · rw [toList_rowPicture, List.take_left' hlabel]
      rfl
  · simp only [lines, lines_pictureText]
    exact List.getElem?_concat_length
  · intro c
    simp only [lines, tileAt?_lines, Option.any_some, isBracketed_tile]
  · simp only [lines, tileAt?_lines, Option.map_some, digit_tile]
    rfl
  · rw [Grid.count]
    refine List.countP_congr fun c _ => ?_
    simp only [lines, tileAt?_lines, Option.any_some, digit_tile]
    cases f.grid.get c <;> simp [bitDigit]

end Command

end OneBit
