/-
# Edits of the field

A caller outside the machine changes the field by EDITS.  Two of them name a cell by numbers of
any size; with a number that is not below 16 the edit fails (`edit_eq_error_iff`), and the field
stays as it is.
-/
import OneBit.Field.Checked

namespace OneBit

/-- One change of a field from outside. -/
inductive Edit
  | setBit (x y : Nat) (value : Bool)
  | setData (value : Bool)
  | setFlag (value : Bool)
  | setPointer (x y : Nat)
  | home
  | tryStep (direction : Direction)
  | exchange
deriving DecidableEq, Repr

/-- The column and the row that the edit names, which may be off the field. -/
def Edit.place? : Edit → Option (Nat × Nat)
  | .setBit x y _ => some (x, y)
  | .setPointer x y => some (x, y)
  | _ => none

namespace Field

/-- Make an edit, if it names no cell that the field does not have. -/
def edit (f : Field) : Edit → Except RangeError Field
  | .setBit x y v => f.setBitAt x y v
  | .setData v => .ok (f.setData v)
  | .setFlag v => .ok (f.setFlag v)
  | .setPointer x y => f.setPointerAt x y
  | .home => .ok f.goHome
  | .tryStep d => .ok (f.tryStep d).2
  | .exchange => .ok f.exchange

/-- The field after an edit, also after one that failed. -/
def after (f : Field) (e : Edit) : Field :=
  match f.edit e with
  | .ok g => g
  | .error _ => f

/-- The field after edits, one after the other. -/
def afterAll (f : Field) (edits : List Edit) : Field := edits.foldl after f

variable {f : Field}

theorem after_setBit (x y : Nat) (v : Bool) :
    f.after (.setBit x y v) =
      match Cell.locate x y with
      | .ok c => f.setCell c v
      | .error _ => f := by
  rw [after, edit, setBitAt]
  cases Cell.locate x y <;> rfl

theorem after_setPointer (x y : Nat) :
    f.after (.setPointer x y) =
      match Cell.locate x y with
      | .ok c => f.setPointer c
      | .error _ => f := by
  rw [after, edit, setPointerAt]
  cases Cell.locate x y <;> rfl

/-- An edit that names a cell is made if the cell is found. -/
theorem edit_of_place {e : Edit} {x y : Nat} (h : e.place? = some (x, y)) :
    f.edit e = (Cell.locate x y).map fun _ => f.after e := by
  cases e with
  | setBit =>
    cases h
    rw [after_setBit, edit, setBitAt]
    cases Cell.locate x y <;> rfl
  | setPointer =>
    cases h
    rw [after_setPointer, edit, setPointerAt]
    cases Cell.locate x y <;> rfl
  | _ => cases h

/-- An edit that names no cell is always made. -/
theorem edit_of_no_place {e : Edit} (h : e.place? = none) : f.edit e = .ok (f.after e) := by
  cases e with
  | setBit => cases h
  | setPointer => cases h
  | _ => rfl

/-- **An edit fails** exactly if it names a cell that the field does not have, and tells which. -/
theorem edit_eq_error_iff {e : Edit} {err : RangeError} :
    f.edit e = .error err ↔
      ∃ x y, e.place? = some (x, y) ∧ ¬(x < 16 ∧ y < 16) ∧ err = .cell x y := by
  cases hplace : e.place? with
  | none => simp [edit_of_no_place hplace]
  | some place =>
    obtain ⟨x, y⟩ := place
    have hlocate : f.edit e = .error err ↔ Cell.locate x y = .error err := by
      rw [edit_of_place hplace]
      cases Cell.locate x y <;> simp [Except.map]
    rw [hlocate, Cell.locate_eq_error_iff]
    constructor
    · intro h
      exact ⟨x, y, rfl, h⟩
    · rintro ⟨_, _, ⟨⟩, h⟩
      exact h

end Field

end OneBit
