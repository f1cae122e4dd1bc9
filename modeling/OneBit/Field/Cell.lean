/-
# Cells of the field and steps between them

The field is 16 cells wide and 16 cells high.  A CELL is a pair of coordinates below 16, with
(0, 0), the HOME cell, at the bottom left; `x` grows to the right and `y` grows upwards.

A step takes a cell to its neighbour on one side.  At the edge there is no neighbour: the
target of the step lies off the field and is pulled back onto it, which gives the cell the step
started from (`clamp_target_of_off`).
-/
namespace OneBit

/-! ## 1. Cells -/

/-- A column or a row of the field. -/
abbrev Coordinate := Fin 16

/-- A place on the field: column `x`, row `y`. -/
structure Cell where
  x : Coordinate
  y : Coordinate
deriving DecidableEq, Repr

namespace Cell

/-- The bottom left cell. -/
def home : Cell := ⟨0, 0⟩

/-- The place of the cell when the rows are laid end to end, the bottom row first. -/
def index (c : Cell) : Fin 256 := ⟨16 * c.y + c.x, by omega⟩

/-- Different cells have different places. -/
theorem index_inj {c d : Cell} : c.index = d.index ↔ c = d := by
  constructor
  · intro h
    have hv : 16 * c.y.val + c.x.val = 16 * d.y.val + d.x.val := congrArg Fin.val h
    obtain ⟨cx, cy⟩ := c
    obtain ⟨dx, dy⟩ := d
    simp only [Cell.mk.injEq, Fin.ext_iff]
    simp only at hv
    omega
  · rintro rfl
    rfl

/-- The cells of a row, from left to right. -/
def ofRow (y : Coordinate) : List Cell := (List.finRange 16).map fun x => ⟨x, y⟩

/-- All cells, row by row from the bottom. -/
def all : List Cell := (List.finRange 16).flatMap ofRow

theorem mem_all (c : Cell) : c ∈ all := by
  simp only [all, ofRow, List.mem_flatMap, List.mem_map, List.mem_finRange, true_and]
  exact ⟨c.y, c.x, rfl⟩

end Cell

/-! ## 2. Steps -/

/-- The four sides to which a step can go. -/
inductive Direction
  | right
  | left
  | up
  | down
deriving DecidableEq, Repr

namespace Cell

/-- The coordinates one step from `c`, which may lie off the field. -/
def target (c : Cell) : Direction → Int × Int
  | .right => (c.x + 1, c.y)
  | .left => (c.x - 1, c.y)
  | .up => (c.x, c.y + 1)
  | .down => (c.x, c.y - 1)

end Cell

/-- `v` is the number of a column and of a row. -/
def onField (v : Int) : Bool := 0 ≤ v && v < 16

/-- The coordinate nearest to `v`. -/
def clamp (v : Int) : Coordinate := ⟨min v.toNat 15, by omega⟩

theorem clamp_val {v : Int} (h : onField v = true) : ((clamp v).val : Int) = v := by
  simp only [onField, Bool.and_eq_true, decide_eq_true_eq] at h
  simp only [clamp]
  omega

theorem onField_eq_false_iff {v : Int} : onField v = false ↔ v < 0 ∨ 16 ≤ v := by
  simp only [onField, Bool.and_eq_false_iff, decide_eq_false_iff_not]
  omega

/-- A step off the field, pulled back onto it, ends where it started. -/
theorem clamp_target_of_off {c : Cell} {d : Direction}
    (h : (onField (c.target d).1 && onField (c.target d).2) = false) :
    (⟨clamp (c.target d).1, clamp (c.target d).2⟩ : Cell) = c := by
  obtain ⟨⟨x, hx⟩, ⟨y, hy⟩⟩ := c
  rw [Bool.and_eq_false_iff, onField_eq_false_iff, onField_eq_false_iff] at h
  cases d <;> simp only [Cell.target, clamp, Cell.mk.injEq, Fin.mk.injEq] at h ⊢ <;> omega

end OneBit
