/-
# The grid

A grid gives each of the 256 cells a bit.  It is kept as one word of 256 bits, but all that the
rest of the library knows of it is `get`: two grids that agree at every cell are equal
(`ext_get`), the empty grid is false everywhere (`get_empty`), and a write changes the cell
that it names and no other (`get_set`).
-/
import OneBit.Field.Cell

namespace OneBit

/-- A bit for each cell. -/
structure Grid where
  /-- The bit of a cell stands at the cell's index. -/
  bits : BitVec 256
deriving DecidableEq

namespace Grid

/-- No cell is set. -/
def empty : Grid := ⟨0#256⟩

/-- The bit of cell `c`. -/
def get (g : Grid) (c : Cell) : Bool := g.bits.getLsbD c.index

/-- The grid with bit `v` in cell `c`. -/
def set (g : Grid) (c : Cell) (v : Bool) : Grid :=
  if v then ⟨g.bits ||| BitVec.twoPow 256 c.index⟩ else ⟨g.bits &&& ~~~BitVec.twoPow 256 c.index⟩

@[simp] theorem get_empty (c : Cell) : empty.get c = false := by
  simp [empty, get]

/-- **A write is seen at its own cell only.** -/
theorem get_set (g : Grid) (c d : Cell) (v : Bool) :
    (g.set c v).get d = if d = c then v else g.get d := by
  by_cases h : d = c
  · subst h
    cases v <;> simp [set, get]
  · have hi : d.index.val ≠ c.index.val := fun e => h (Cell.index_inj.mp (Fin.ext e))
    cases v <;> simp [set, get, h, hi]

@[simp] theorem get_set_self (g : Grid) (c : Cell) (v : Bool) : (g.set c v).get c = v := by
  rw [get_set, if_pos rfl]

theorem get_set_of_ne (g : Grid) {c d : Cell} (v : Bool) (h : d ≠ c) :
    (g.set c v).get d = g.get d := by
  rw [get_set, if_neg h]

/-- **A grid is what its cells show.** -/
theorem ext_get {g h : Grid} (hgh : ∀ c, g.get c = h.get c) : g = h := by
  obtain ⟨a⟩ := g
  obtain ⟨b⟩ := h
  congr 1
  apply BitVec.eq_of_getLsbD_eq
  intro i hi
  have hc := hgh ⟨⟨i % 16, by omega⟩, ⟨i / 16, by omega⟩⟩
  have hidx : 16 * (i / 16) + i % 16 = i := by omega
  simpa only [get, Cell.index, hidx] using hc

/-- The bits of row `y`, from left to right. -/
def row (g : Grid) (y : Coordinate) : List Bool := (Cell.ofRow y).map g.get

/-- The rows, the bottom row first. -/
def rows (g : Grid) : List (List Bool) := (List.finRange 16).map g.row

/-- How many cells are set. -/
def count (g : Grid) : Nat := Cell.all.countP g.get

end Grid

end OneBit
