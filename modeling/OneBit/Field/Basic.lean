/-
# The field

The data of the machine: the grid, one more bit called the FLAG, and a POINTER that selects a
cell of the grid.  The bit under the pointer is the DATA bit.  The operations below are the
only ones a program has; each says what it does to the three parts and leaves the others alone.

The pointer is a cell, so it cannot leave the field.  `tryStep` is the one operation that could
take it off: it tells whether the step was made or stopped at the edge.
-/
import OneBit.Field.Grid

namespace OneBit

/-- The grid, the flag and the pointer. -/
structure Field where
  grid : Grid
  flag : Bool
  pointer : Cell
deriving DecidableEq

/-- How a step of the pointer ends, with the cell where it ends. -/
inductive Move
  | moved (cell : Cell)
  | clamped (cell : Cell)
deriving DecidableEq, Repr

namespace Field

/-- Nothing is set and the pointer is at home. -/
def cleared : Field := ⟨.empty, false, .home⟩

/-- The bit under the pointer. -/
def data (f : Field) : Bool := f.grid.get f.pointer

/-- Put `v` under the pointer. -/
def setData (f : Field) (v : Bool) : Field := { f with grid := f.grid.set f.pointer v }

/-- Put `v` into the flag. -/
def setFlag (f : Field) (v : Bool) : Field := { f with flag := v }

/-- Swap the flag and the bit under the pointer. -/
def exchange (f : Field) : Field := (f.setData f.flag).setFlag f.data

/-- Take the pointer to cell `c`. -/
def setPointer (f : Field) (c : Cell) : Field := { f with pointer := c }

/-- Take the pointer home. -/
def goHome (f : Field) : Field := f.setPointer .home

/-- Is the pointer at home? -/
def atHome (f : Field) : Bool := f.pointer == .home

/-- Put `v` into cell `c`. -/
def setCell (f : Field) (c : Cell) (v : Bool) : Field := { f with grid := f.grid.set c v }

/-- Move the pointer one cell, or leave it at the edge of the field. -/
def tryStep (f : Field) (d : Direction) : Move × Field :=
  let t := f.pointer.target d
  let cell : Cell := ⟨clamp t.1, clamp t.2⟩
  (if onField t.1 && onField t.2 then .moved cell else .clamped cell, f.setPointer cell)

/-! ## What each operation does to the data bit, the flag and the pointer -/

@[simp] theorem data_setData (f : Field) (v : Bool) : (f.setData v).data = v := by
  simp [data, setData]

@[simp] theorem flag_setData (f : Field) (v : Bool) : (f.setData v).flag = f.flag := rfl

@[simp] theorem pointer_setData (f : Field) (v : Bool) : (f.setData v).pointer = f.pointer := rfl

@[simp] theorem data_setFlag (f : Field) (v : Bool) : (f.setFlag v).data = f.data := rfl

@[simp] theorem grid_setFlag (f : Field) (v : Bool) : (f.setFlag v).grid = f.grid := rfl

@[simp] theorem pointer_setFlag (f : Field) (v : Bool) : (f.setFlag v).pointer = f.pointer := rfl

@[simp] theorem grid_setPointer (f : Field) (c : Cell) : (f.setPointer c).grid = f.grid := rfl

@[simp] theorem flag_setPointer (f : Field) (c : Cell) : (f.setPointer c).flag = f.flag := rfl

@[simp] theorem data_exchange (f : Field) : f.exchange.data = f.flag := by
  simp [exchange]

@[simp] theorem flag_exchange (f : Field) : f.exchange.flag = f.data := rfl

/-- **A step that stops at the edge changes nothing.** -/
theorem tryStep_of_clamped {f f' : Field} {d : Direction} {c : Cell}
    (h : f.tryStep d = (.clamped c, f')) : c = f.pointer ∧ f' = f := by
  simp only [tryStep, Prod.mk.injEq] at h
  obtain ⟨h1, h2⟩ := h
  split at h1
  · exact absurd h1 (by simp)
  · rename_i hoff
    have hback := clamp_target_of_off (by simpa using hoff)
    injection h1 with h1
    rw [hback] at h1 h2
    exact ⟨h1.symm, by rw [← h2]; rfl⟩

end Field

end OneBit
