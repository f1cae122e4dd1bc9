/-
# The field as a store

A field has three kinds of places: a bit in each cell, the flag, and the pointer.  Each edit writes
to some of them, and where it writes can depend on the field that it finds: the data bit is under
the pointer of that moment.  `WritesBit`, `WritesFlag` and `WritesPointer` put down which edit
writes what; `Accounts` says of such a relation that it tells all that edits do to one place.

From there the argument is about histories alone.  After any edits a place holds what was written
to it LAST, and what it held at the start if nothing was (`Accounts.view_eq_iff`).  The relations
account for the three kinds of places (`accounts_bit`, `accounts_flag`, `accounts_pointer`).

A field can be looked at in more than one way.  `Faithful` puts together what was written last, the
edits that are refused, and that all views tell of the same bits; `WordField.Shows` says that the
table of rows shows a field.  Both hold after any history of a new field (`faithful_afterAll`).
-/
import Mathlib.Data.Fintype.Prod
import OneBit.Proofs.Field.Cells
import OneBit.Proofs.Words.Field

namespace OneBit

namespace Field

/-! ## 1. What was written last -/

section History

variable {α : Type} {view : Field → α} {writes : Field → Edit → α → Prop} {f : Field}
  {edits : List Edit} {v : α}

/-- None of the edits writes, made one after the other. -/
def Unwritten (writes : Field → Edit → α → Prop) : Field → List Edit → Prop
  | _, [] => True
  | f, e :: edits => (∀ v, ¬ writes f e v) ∧ Unwritten writes (f.after e) edits

/-- `v` is what the last edit that writes has written, and `start` if none of them writes. -/
def LastWritten (writes : Field → Edit → α → Prop) (f : Field) (edits : List Edit) (start v : α) :
    Prop :=
  (∃ earlier e later, edits = earlier ++ e :: later ∧ writes (f.afterAll earlier) e v ∧
      Unwritten writes ((f.afterAll earlier).after e) later) ∨
    Unwritten writes f edits ∧ v = start

/-- `writes` tells all that edits do to the place that `view` shows. -/
structure Accounts (view : Field → α) (writes : Field → Edit → α → Prop) : Prop where
  /-- What is written is there. -/
  written : ∀ {f e v}, writes f e v → view (f.after e) = v
  /-- Where nothing is written nothing changes. -/
  kept : ∀ {f e}, (∀ v, ¬ writes f e v) → view (f.after e) = view f

theorem Accounts.view_of_unwritten (h : Accounts view writes) (hedits : Unwritten writes f edits) :
    view (f.afterAll edits) = view f := by
  induction edits generalizing f with
  | nil => rfl
  | cons e edits ih => exact (ih hedits.2).trans (h.kept hedits.1)

theorem Accounts.view_of_lastWritten (h : Accounts view writes)
    (hlast : LastWritten writes f edits (view f) v) : view (f.afterAll edits) = v := by
  rcases hlast with ⟨earlier, e, later, rfl, hwrites, hlater⟩ | ⟨hedits, rfl⟩
  · have hend : f.afterAll (earlier ++ e :: later) =
        ((f.afterAll earlier).after e).afterAll later := by
      simp only [afterAll, List.foldl_append, List.foldl_cons]
    rw [hend, h.view_of_unwritten hlater, h.written hwrites]
  · exact h.view_of_unwritten hedits

/-- Something was written last, or nothing was written. -/
theorem exists_lastWritten (writes : Field → Edit → α → Prop) (f : Field) (edits : List Edit)
    (start : α) : ∃ v, LastWritten writes f edits start v := by
  induction edits generalizing f with
  | nil => exact ⟨start, .inr ⟨trivial, rfl⟩⟩
  | cons e edits ih =>
    obtain ⟨v, ⟨earlier, last, later, rfl, hwrites, hlater⟩ | ⟨hedits, -⟩⟩ := ih (f.after e)
    · exact ⟨v, .inl ⟨e :: earlier, last, later, rfl, hwrites, hlater⟩⟩
    · by_cases hfirst : ∃ v, writes f e v
      · obtain ⟨v, hv⟩ := hfirst
        exact ⟨v, .inl ⟨[], e, edits, rfl, hv, hedits⟩⟩
      · exact ⟨start, .inr ⟨⟨not_exists.mp hfirst, hedits⟩, rfl⟩⟩

/-- **A place holds what was written to it last.** -/
theorem Accounts.view_eq_iff (h : Accounts view writes) :
    view (f.afterAll edits) = v ↔ LastWritten writes f edits (view f) v := by
  constructor
  · rintro rfl
    obtain ⟨v, hv⟩ := exists_lastWritten writes f edits (view f)
    rwa [h.view_of_lastWritten hv]
  · exact h.view_of_lastWritten

end History

/-! ## 2. What an edit writes -/

/-- The edit of `f` puts a bit into cell `c`. -/
inductive WritesBit (c : Cell) (f : Field) : Edit → Bool → Prop
  | setBit (v : Bool) : WritesBit c f (.setBit c.x c.y v) v
  | setData (v : Bool) (h : f.pointer = c) : WritesBit c f (.setData v) v
  | exchange (h : f.pointer = c) : WritesBit c f .exchange f.flag

/-- The edit of `f` puts a bit into the flag. -/
inductive WritesFlag (f : Field) : Edit → Bool → Prop
  | setFlag (v : Bool) : WritesFlag f (.setFlag v) v
  | exchange : WritesFlag f .exchange f.data

/-- The edit of `f` takes the pointer to a cell.  A step without a neighbour to go to does not. -/
inductive WritesPointer (f : Field) : Edit → Cell → Prop
  | setPointer (c : Cell) : WritesPointer f (.setPointer c.x c.y) c
  | home : WritesPointer f .home .home
  | tryStep {d : Direction} {c : Cell} (h : f.pointer.Neighbour d c) :
      WritesPointer f (.tryStep d) c

variable {f : Field}

theorem after_setBit_cell (c : Cell) (v : Bool) : f.after (.setBit c.x c.y v) = f.setCell c v := by
  rw [after_setBit, Cell.locate_val]

theorem after_setPointer_cell (c : Cell) : f.after (.setPointer c.x c.y) = f.setPointer c := by
  rw [after_setPointer, Cell.locate_val]

/-- **The bit of a cell.** -/
theorem accounts_bit (c : Cell) : Accounts (fun f => f.grid.get c) (WritesBit c) where
  written {f e v} h := by
    cases h with
    | setBit =>
      rw [after_setBit_cell]
      exact Grid.get_set_self ..
    | setData _ hc =>
      subst hc
      exact Grid.get_set_self ..
    | exchange hc =>
      subst hc
      exact Grid.get_set_self ..
  kept {f e} h := by
    -- An edit that is no write to `c` writes to another cell, or to none.
    cases e with
    | setBit x y v =>
      rw [after_setBit]
      cases hlocate : Cell.locate x y with
      | error => rfl
      | ok c' =>
        obtain ⟨rfl, rfl⟩ := Cell.locate_eq_ok_iff.mp hlocate
        have hne : c ≠ c' := by
          rintro rfl
          exact h v (.setBit v)
        exact Grid.get_set_of_ne _ v hne
    | setData v => exact Grid.get_set_of_ne _ v fun hc => h v (.setData v hc.symm)
    | exchange => exact Grid.get_set_of_ne _ f.flag fun hc => h f.flag (.exchange hc.symm)
    | setPointer x y =>
      rw [after_setPointer]
      cases Cell.locate x y <;> rfl
    | setFlag v => rfl
    | home => rfl
    | tryStep d => rfl

/-- **The flag.** -/
theorem accounts_flag : Accounts Field.flag WritesFlag where
  written {f e v} h := by
    cases h with
    | setFlag => rfl
    | exchange => rfl
  kept {f e} h := by
    cases e with
    | setFlag v => exact absurd (.setFlag v) (h v)
    | exchange => exact absurd .exchange (h f.data)
    | setBit x y v =>
      rw [after_setBit]
      cases Cell.locate x y <;> rfl
    | setPointer x y =>
      rw [after_setPointer]
      cases Cell.locate x y <;> rfl
    | setData v => rfl
    | home => rfl
    | tryStep d => rfl

/-- **The pointer.** -/
theorem accounts_pointer : Accounts Field.pointer WritesPointer where
  written {f e v} h := by
    cases h with
    | setPointer => rw [after_setPointer_cell]; rfl
    | home => rfl
    | tryStep hside =>
      have hstep := tryStep_eq_moved_iff.mpr ⟨hside, rfl⟩
      rw [after, edit, hstep]
      rfl
  kept {f e} h := by
    cases e with
    | setPointer x y =>
      rw [after_setPointer]
      cases hlocate : Cell.locate x y with
      | error => rfl
      | ok c =>
        obtain ⟨rfl, rfl⟩ := Cell.locate_eq_ok_iff.mp hlocate
        exact absurd (.setPointer c) (h c)
    | home => exact absurd .home (h .home)
    | tryStep d =>
      have hnone : ∀ c, ¬ f.pointer.Neighbour d c := fun c hside => h c (.tryStep hside)
      have hstep := tryStep_eq_clamped_iff.mpr ⟨hnone, rfl, rfl⟩
      rw [after, edit, hstep]
    | setBit x y v =>
      rw [after_setBit]
      cases Cell.locate x y <;> rfl
    | setData v => rfl
    | setFlag v => rfl
    | exchange => rfl

/-! ## 3. The views -/

theorem bitAt_cell (f : Field) (c : Cell) : f.bitAt c.x c.y = .ok (f.grid.get c) := by
  rw [bitAt, Cell.locate_val]
  rfl

/-- A cell of a new field is not set, so a cell is set only if it was written. -/
theorem bitAt_afterAll_iff (edits : List Edit) (c : Cell) (v : Bool) :
    (cleared.afterAll edits).bitAt c.x c.y = .ok v ↔
      LastWritten (WritesBit c) cleared edits false v := by
  have hstart : cleared.grid.get c = false := Grid.get_empty c
  rw [bitAt_cell, Except.ok.injEq, ← hstart]
  exact (accounts_bit c).view_eq_iff

/-- A row has the bits of its cells, in the order of the columns. -/
theorem getElem?_rowAt (f : Field) (c : Cell) :
    (f.rowAt c.y).map (fun row => row[c.x.val]?) = (f.bitAt c.x c.y).map some := by
  have hrow : f.rowAt c.y = .ok (f.grid.row c.y) := dif_pos c.y.isLt
  have hplace : (f.grid.row c.y)[c.x.val]? = some (f.grid.get c) := by
    simp [Grid.row, Cell.ofRow]
  rw [hrow, bitAt_cell, Except.map, Except.map, hplace]

/-- The set bits are counted by looking at each cell. -/
theorem count_eq_card_bitAt (f : Field) :
    f.grid.count =
      (Finset.univ.filter fun p : Coordinate × Coordinate =>
        f.bitAt p.1 p.2 = .ok true).card := by
  rw [Grid.count_eq_card]
  congr 1
  refine Finset.filter_congr fun p _ => ?_
  rw [bitAt_cell f ⟨p.1, p.2⟩, Except.ok.injEq]

/-- **The field after some edits of a new one, as a store.** -/
structure Faithful (edits : List Edit) (f : Field) : Prop where
  /-- Each cell holds what was written to it last, and is not set if nothing was. -/
  bit : ∀ (c : Cell) (v : Bool), f.bitAt c.x c.y = .ok v ↔
    LastWritten (WritesBit c) cleared edits false v
  /-- The flag holds what was written to it last. -/
  flag : ∀ v, f.flag = v ↔ LastWritten WritesFlag cleared edits false v
  /-- The pointer is where it was taken last, and at home if it was not taken anywhere. -/
  pointer : ∀ c, f.pointer = c ↔ LastWritten WritesPointer cleared edits .home c
  /-- Exactly the edits that name a cell off the field are refused. -/
  refused : ∀ e err, f.edit e = .error err ↔
    ∃ x y, e.place? = some (x, y) ∧ ¬(x < 16 ∧ y < 16) ∧ err = .cell x y
  /-- An edit that is refused changes nothing. -/
  kept : ∀ e err, f.edit e = .error err → f.after e = f
  /-- The data bit is the one in the cell under the pointer. -/
  data : f.bitAt f.pointer.x f.pointer.y = .ok f.data
  /-- Place `x` of row `y` is the bit in column `x` and row `y`. -/
  row : ∀ c : Cell, (f.rowAt c.y).map (fun row => row[c.x.val]?) = (f.bitAt c.x c.y).map some
  /-- The number of set bits is that of the columns and rows with a set bit. -/
  count : f.grid.count =
    (Finset.univ.filter fun p : Coordinate × Coordinate => f.bitAt p.1 p.2 = .ok true).card
  /-- A step is made exactly if there is a neighbour on its side, and goes there. -/
  moved : ∀ d c g, f.tryStep d = (.moved c, g) ↔ f.pointer.Neighbour d c ∧ g = f.setPointer c
  /-- A step is stopped exactly if there is none, and then the pointer stays. -/
  clamped : ∀ d c g, f.tryStep d = (.clamped c, g) ↔
    (∀ e, ¬ f.pointer.Neighbour d e) ∧ c = f.pointer ∧ g = f

end Field

/-- **The table shows the field**: what it tells, when it traps, and what an edit makes of it. -/
structure WordField.Shows (w : WordField) (f : Field) : Prop where
  edit : ∀ e : Edit, e.InWords → w.edit e = ofChecked (f.edit e)
  getBit : ∀ x y, w.getBit x y = (f.bitAt x.toNat y.toNat).mapError .range
  flag : w.flag = f.flag
  pointer : w.x = f.pointer.x.word ∧ w.y = f.pointer.y.word
  data : w.data = .ok f.data
  row : ∀ y, (w.row y).map Vector.toList = (f.rowAt y.toNat).mapError .range
  countOnes : w.countOnes = f.grid.count
  tryStep : ∀ d, w.tryStep d =
    .ok (match f.tryStep d with
      | (.moved _, g) => (true, of g)
      | (.clamped _, g) => (false, of g))

theorem WordField.shows_of (f : Field) : (of f).Shows f where
  edit _ := edit_eq_ofChecked f
  getBit := getBit_of f
  flag := rfl
  pointer := ⟨rfl, rfl⟩
  data := data_of f
  row := row_of f
  countOnes := countOnes_of f
  tryStep := tryStep_of f

/-- **A field is a faithful store with views that agree**, whatever was done to it, also if some of
the edits were refused.  The table of rows shows the same, if the edits name words. -/
theorem Field.faithful_afterAll (edits : List Edit) :
    (cleared.afterAll edits).Faithful edits ∧
      ((∀ e ∈ edits, e.InWords) →
        (WordField.cleared.afterAll edits).Shows (cleared.afterAll edits)) := by
  constructor
  · exact {
      bit := bitAt_afterAll_iff edits
      flag := fun _ => accounts_flag.view_eq_iff
      pointer := fun _ => accounts_pointer.view_eq_iff
      refused := fun _ _ => edit_eq_error_iff
      kept := fun _ _ h => by rw [after, h]
      data := bitAt_cell _ _
      row := getElem?_rowAt _
      count := count_eq_card_bitAt _
      moved := fun _ _ _ => tryStep_eq_moved_iff
      clamped := fun _ _ _ => tryStep_eq_clamped_iff }
  · intro hwords
    rw [← WordField.of_cleared, WordField.afterAll_of cleared hwords]
    exact WordField.shows_of _

/-- One cell is written three times, with a bit off the field and a step off the field between. -/
def Edit.overwriting : List Edit :=
  [.setPointer 0 3, .setData true, .setBit 16 3 true, .exchange, .tryStep .left, .setBit 0 3 true,
    .tryStep .up]

/-- The last bit written to the cell came from outside, the flag has the first one, and the pointer
went up from the edge where it had been stopped. -/
theorem Field.faithful_afterAll_of_overwriting :
    (∀ e ∈ Edit.overwriting, e.InWords) ∧
      (WordField.cleared.afterAll Edit.overwriting).Shows (cleared.afterAll Edit.overwriting) ∧
      LastWritten (WritesBit ⟨0, 3⟩) cleared Edit.overwriting false true ∧
      LastWritten WritesFlag cleared Edit.overwriting false true ∧
      LastWritten WritesPointer cleared Edit.overwriting .home ⟨0, 4⟩ := by
  have hwords : ∀ e ∈ Edit.overwriting, e.InWords := by decide
  obtain ⟨hstore, htable⟩ := faithful_afterAll Edit.overwriting
  exact ⟨hwords, htable hwords, (hstore.bit ⟨0, 3⟩ true).mp (by decide),
    (hstore.flag true).mp (by decide), (hstore.pointer ⟨0, 4⟩).mp (by decide)⟩

end OneBit
