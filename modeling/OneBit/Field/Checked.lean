/-
# Access by numbers

A caller outside the machine names cells and rows by numbers of any size.  Each access here
first finds the cell that is meant; a number that is not below 16 is a `RangeError`, and then
nothing is read or written.
-/
import OneBit.Field.Basic

namespace OneBit

/-- A cell or a row that the field does not have. -/
inductive RangeError
  | cell (x y : Nat)
  | row (y : Nat)
deriving DecidableEq, Repr

/-- The wording of a range error. -/
def RangeError.message : RangeError → String
  | .cell x y => s!"Field coordinate ({x}, {y}) out of range (0-15)"
  | .row y => s!"Row {y} out of range (0-15)"

/-- The cell in column `x` and row `y`. -/
def Cell.locate (x y : Nat) : Except RangeError Cell :=
  if h : x < 16 ∧ y < 16 then .ok ⟨⟨x, h.1⟩, ⟨y, h.2⟩⟩ else .error (.cell x y)

/-- A cell is found by its column and its row. -/
theorem Cell.locate_eq_ok_iff {x y : Nat} {c : Cell} :
    Cell.locate x y = .ok c ↔ x = c.x.val ∧ y = c.y.val := by
  unfold Cell.locate
  constructor
  · intro h
    split at h
    · cases h
      exact ⟨rfl, rfl⟩
    · cases h
  · rintro ⟨rfl, rfl⟩
    exact dif_pos ⟨c.x.isLt, c.y.isLt⟩

theorem Cell.locate_val (c : Cell) : Cell.locate c.x.val c.y.val = .ok c :=
  Cell.locate_eq_ok_iff.mpr ⟨rfl, rfl⟩

/-- Exactly the numbers below 16 name a cell. -/
theorem Cell.locate_eq_error_iff {x y : Nat} {e : RangeError} :
    Cell.locate x y = .error e ↔ ¬(x < 16 ∧ y < 16) ∧ e = .cell x y := by
  unfold Cell.locate
  split
  · rename_i h
    simp [h]
  · rename_i h
    simp [h, eq_comm]

namespace Field

/-- The bit in column `x` and row `y`. -/
def bitAt (f : Field) (x y : Nat) : Except RangeError Bool := do
  let c ← Cell.locate x y
  return f.grid.get c

/-- Put `v` into column `x` and row `y`. -/
def setBitAt (f : Field) (x y : Nat) (v : Bool) : Except RangeError Field := do
  let c ← Cell.locate x y
  return f.setCell c v

/-- Take the pointer to column `x` and row `y`. -/
def setPointerAt (f : Field) (x y : Nat) : Except RangeError Field := do
  let c ← Cell.locate x y
  return f.setPointer c

/-- The bits of row `y`, from left to right. -/
def rowAt (f : Field) (y : Nat) : Except RangeError (List Bool) :=
  if h : y < 16 then .ok (f.grid.row ⟨y, h⟩) else .error (.row y)

/-- Set the named bits one after the other.  The first name that is no cell stops the work;
the bits before it stay set. -/
def setBitsAt (f : Field) : List (Nat × Nat) → Option RangeError × Field
  | [] => (none, f)
  | (x, y) :: rest =>
    match f.setBitAt x y true with
    | .error e => (some e, f)
    | .ok g => g.setBitsAt rest

end Field

end OneBit
