/-
# The field in words

The field once more, with a pointer of two words and a table of rows for the grid.  Nothing keeps
the pointer on the field here: each access looks up a row and then a bit of it, and traps if one of
the two is not there.  A step works with signs, since it may go to -1 on the way.

`of` is the field in words that stands for a field.  There no operation of a program traps, and
each comes to what it comes to in the field (`data_of`, `setData_of`, `exchange_of`, `tryStep_of`).
The accesses by numbers, which a caller may get wrong, trap exactly if the number is out of range,
and the trap tells the same as the range error (`getBit_of`, `setBit_of`, `setPointer_of`,
`row_of`).  So each edit whose numbers are words comes to the same (`edit_eq_ofChecked`), and so do
all of them together (`afterAll_of`).
-/
import OneBit.Field.Picture
import OneBit.Proofs.Field.Edit
import OneBit.Proofs.Words.Word

namespace OneBit

/-- The grid, the flag and the pointer, in words. -/
structure WordField where
  /-- The bottom row first, and each row from left to right. -/
  rows : Vector (Vector Bool 16) 16
  flag : Bool
  x : UInt64
  y : UInt64
deriving DecidableEq

/-- A coordinate as a word. -/
def Coordinate.word (c : Coordinate) : UInt64 := UInt64.ofNat c.val

namespace Word

/-- Is the number of a column or of a row meant? -/
def onField (v : Int64) : Bool := 0 ≤ v && v < 16

/-- The coordinate nearest to `v`. -/
def clamp (v : Int64) : UInt64 := (if v < 0 then 0 else if 15 < v then 15 else v).toUInt64

/-- The coordinates one step from `(x, y)`, which may lie off the field. -/
def target (x y : UInt64) : Direction → Except Trap (Int64 × Int64)
  | .right => do return (← Signed.checkedAdd x.toInt64 1, y.toInt64)
  | .left => do return (← Signed.checkedSub x.toInt64 1, y.toInt64)
  | .up => do return (x.toInt64, ← Signed.checkedAdd y.toInt64 1)
  | .down => do return (x.toInt64, ← Signed.checkedSub y.toInt64 1)

end Word

/-- The edit names cells of the field only. -/
def Edit.OnField : Edit → Prop
  | setBit x y _ => x < 16 ∧ y < 16
  | setPointer x y => x < 16 ∧ y < 16
  | _ => True

/-- The numbers that the edit names are words. -/
def Edit.InWords : Edit → Prop
  | setBit x y _ => x < UInt64.size ∧ y < UInt64.size
  | setPointer x y => x < UInt64.size ∧ y < UInt64.size
  | _ => True

namespace Edit

instance : DecidablePred InWords
  | setBit x y _ => inferInstanceAs (Decidable (x < UInt64.size ∧ y < UInt64.size))
  | setPointer x y => inferInstanceAs (Decidable (x < UInt64.size ∧ y < UInt64.size))
  | setData _ | setFlag _ | home | tryStep _ | exchange => inferInstanceAs (Decidable True)

theorem OnField.inWords {e : Edit} (h : e.OnField) : e.InWords := by
  have hsize : 16 ≤ UInt64.size := by decide
  cases e with
  | setBit => exact ⟨Nat.lt_of_lt_of_le h.1 hsize, Nat.lt_of_lt_of_le h.2 hsize⟩
  | setPointer => exact ⟨Nat.lt_of_lt_of_le h.1 hsize, Nat.lt_of_lt_of_le h.2 hsize⟩
  | _ => trivial

end Edit

/-- An edit that names cells of the field only is made. -/
theorem Field.edit_eq_ok {f : Field} {e : Edit} (h : e.OnField) : f.edit e = .ok (f.after e) := by
  cases hedit : f.edit e with
  | ok g => rw [Field.after, hedit]
  | error err =>
    obtain ⟨x, y, hplace, hoff, -⟩ := Field.edit_eq_error_iff.mp hedit
    cases e with
    | setBit => cases hplace; exact absurd h hoff
    | setPointer => cases hplace; exact absurd h hoff
    | _ => cases hplace

namespace WordField

/-! ## 1. Accesses and operations -/

/-- Nothing is set and the pointer is at home. -/
def cleared : WordField := ⟨Vector.replicate 16 (Vector.replicate 16 false), false, 0, 0⟩

/-- The bit at `(x, y)`. -/
def look (f : WordField) (x y : UInt64) : Except Trap Bool := do
  let row ← Word.entry f.rows y
  Word.entry row x

/-- Put `v` at `(x, y)`. -/
def put (f : WordField) (x y : UInt64) (v : Bool) : Except Trap WordField := do
  let row ← Word.replace (← Word.entry f.rows y) x v
  return { f with rows := ← Word.replace f.rows y row }

/-- Insist that `(x, y)` is a cell. -/
def checkCell (x y : UInt64) : Except Trap Unit :=
  if x < 16 ∧ y < 16 then .ok () else .error (.range (.cell x.toNat y.toNat))

/-- The bit in a cell that a caller names. -/
def getBit (f : WordField) (x y : UInt64) : Except Trap Bool := do
  checkCell x y
  f.look x y

/-- Put `v` into a cell that a caller names. -/
def setBit (f : WordField) (x y : UInt64) (v : Bool) : Except Trap WordField := do
  checkCell x y
  f.put x y v

/-- Take the pointer to a cell that a caller names. -/
def setPointer (f : WordField) (x y : UInt64) : Except Trap WordField := do
  checkCell x y
  return { f with x, y }

/-- The bits of a row that a caller names. -/
def row (f : WordField) (y : UInt64) : Except Trap (Vector Bool 16) :=
  if y < 16 then Word.entry f.rows y else .error (.range (.row y.toNat))

/-- How many bits of the table are set. -/
def countOnes (f : WordField) : Nat := (f.rows.toList.flatMap Vector.toList).countP id

def setFlag (f : WordField) (v : Bool) : WordField := { f with flag := v }

def goHome (f : WordField) : WordField := { f with x := 0, y := 0 }

/-- The bit under the pointer. -/
def data (f : WordField) : Except Trap Bool := f.look f.x f.y

/-- Put `v` under the pointer. -/
def setData (f : WordField) (v : Bool) : Except Trap WordField := f.put f.x f.y v

/-- Swap the flag and the bit under the pointer. -/
def exchange (f : WordField) : Except Trap WordField := do
  let d ← f.data
  return (← f.setData f.flag).setFlag d

/-- Move the pointer one cell, or leave it at the edge of the field, and tell which it was. -/
def tryStep (f : WordField) (d : Direction) : Except Trap (Bool × WordField) := do
  let (x, y) ← Word.target f.x f.y d
  return (Word.onField x && Word.onField y, { f with x := Word.clamp x, y := Word.clamp y })

/-- Make an edit. -/
def edit (f : WordField) : Edit → Except Trap WordField
  | .setBit x y v => f.setBit (UInt64.ofNat x) (UInt64.ofNat y) v
  | .setData v => f.setData v
  | .setFlag v => .ok (f.setFlag v)
  | .setPointer x y => f.setPointer (UInt64.ofNat x) (UInt64.ofNat y)
  | .home => .ok f.goHome
  | .tryStep d => do return (← f.tryStep d).2
  | .exchange => f.exchange

/-- The field after an edit, also after one that trapped. -/
def after (f : WordField) (e : Edit) : WordField :=
  match f.edit e with
  | .ok g => g
  | .error _ => f

/-- The field after edits, one after the other. -/
def afterAll (f : WordField) (edits : List Edit) : WordField := edits.foldl after f

/-- The field in words that stands for a field. -/
def of (f : Field) : WordField where
  rows := Vector.ofFn fun y => Vector.ofFn fun x => f.grid.get ⟨x, y⟩
  flag := f.flag
  x := f.pointer.x.word
  y := f.pointer.y.word

end WordField

/-! ## 2. Coordinates -/

namespace Coordinate

theorem toNat_word (c : Coordinate) : c.word.toNat = c.val :=
  Word.toNat_ofNat (Nat.lt_trans c.isLt (by decide))

theorem word_inj {c d : Coordinate} : c.word = d.word ↔ c = d := by
  rw [← UInt64.toNat_inj, toNat_word, toNat_word, Fin.ext_iff]

end Coordinate

namespace Word

/-- **One step from a coordinate fits into a word with a sign**, on both sides. -/
theorem step_word (c : Coordinate) :
    Signed.checkedAdd c.word.toInt64 1 = .ok (Int64.ofInt (c + 1)) ∧
      Signed.checkedSub c.word.toInt64 1 = .ok (Int64.ofInt (c - 1)) ∧
      c.word.toInt64 = Int64.ofInt c := by
  revert c
  decide

/-- Where a step can lead, a word with a sign is on the field, and is pulled back onto it, as its
number is. -/
theorem onField_clamp_ofInt {v : Int} (h : -1 ≤ v ∧ v ≤ 16) :
    onField (Int64.ofInt v) = OneBit.onField v ∧
      clamp (Int64.ofInt v) = (OneBit.clamp v).word := by
  have hall : ∀ n : Fin 18, onField (Int64.ofInt (n - 1)) = OneBit.onField (n - 1) ∧
      clamp (Int64.ofInt (n - 1)) = (OneBit.clamp (n - 1)).word := by
    decide
  have hv : v = ((⟨(v + 1).toNat, by omega⟩ : Fin 18) : Int) - 1 := by
    simp only
    omega
  rw [hv]
  exact hall _

/-- A step leads at most one place off the field. -/
theorem target_bounds (c : Cell) (d : Direction) :
    (-1 ≤ (c.target d).1 ∧ (c.target d).1 ≤ 16) ∧ -1 ≤ (c.target d).2 ∧ (c.target d).2 ≤ 16 := by
  cases d <;> simp only [Cell.target] <;> omega

/-- **The place where a step leads** is found without an overflow. -/
theorem target_word (c : Cell) (d : Direction) :
    target c.x.word c.y.word d =
      .ok (Int64.ofInt (c.target d).1, Int64.ofInt (c.target d).2) := by
  obtain ⟨hxAdd, hxSub, hx⟩ := step_word c.x
  obtain ⟨hyAdd, hySub, hy⟩ := step_word c.y
  cases d with
  | right => rw [target, hxAdd, hy]; rfl
  | left => rw [target, hxSub, hy]; rfl
  | up => rw [target, hx, hyAdd]; rfl
  | down => rw [target, hx, hySub]; rfl

end Word

/-! ## 3. The field in words does what the field does -/

namespace WordField

variable (f : Field)

theorem of_cleared : of Field.cleared = cleared := by
  decide

theorem setFlag_of (v : Bool) : (of f).setFlag v = of (f.setFlag v) := rfl

/-- **Every cell has its bit in the table.** -/
theorem look_of (c : Cell) : (of f).look c.x.word c.y.word = .ok (f.grid.get c) := by
  simp only [look, Coordinate.word, Word.entry_ofNat c.y.isLt (by decide), bind, Except.bind,
    Word.entry_ofNat c.x.isLt (by decide), of, Vector.getElem_ofFn]

/-- **Every cell can be written**, and nothing else is. -/
theorem put_of (c : Cell) (v : Bool) :
    (of f).put c.x.word c.y.word v = .ok (of (f.setCell c v)) := by
  simp only [put, Coordinate.word, Word.entry_ofNat c.y.isLt (by decide), bind, Except.bind,
    Word.replace_ofNat c.x.isLt (by decide), Word.replace_ofNat c.y.isLt (by decide), pure,
    Except.pure, Except.ok.injEq]
  refine WordField.mk.injEq .. |>.mpr ⟨?_, rfl, rfl, rfl⟩
  ext y hy x hx
  simp only [of, Field.setCell, Grid.get_set, Vector.getElem_set, Vector.getElem_ofFn]
  by_cases hrow : c.y.val = y
  · subst hrow
    by_cases hcolumn : c.x.val = x
    · subst hcolumn
      simp
    · have hne : (⟨⟨x, hx⟩, c.y⟩ : Cell) ≠ c := by
        intro hc
        exact hcolumn (congrArg (fun c => c.x.val) hc).symm
      simp [hcolumn, hne]
  · have hne : (⟨⟨x, hx⟩, ⟨y, hy⟩⟩ : Cell) ≠ c := by
      intro hc
      exact hrow (congrArg (fun c => c.y.val) hc).symm
    simp [hrow, hne]

theorem data_of : (of f).data = .ok f.data := look_of f f.pointer

theorem setData_of (v : Bool) : (of f).setData v = .ok (of (f.setData v)) := put_of f f.pointer v

theorem exchange_of : (of f).exchange = .ok (of f.exchange) := by
  simp only [exchange, data_of, bind, Except.bind, setData_of]
  rfl

/-- **A step fits into words with a sign**, and ends as in the field. -/
theorem tryStep_of (d : Direction) :
    (of f).tryStep d =
      .ok (match f.tryStep d with
        | (.moved _, g) => (true, of g)
        | (.clamped _, g) => (false, of g)) := by
  obtain ⟨hx, hy⟩ := Word.target_bounds f.pointer d
  obtain ⟨hxOn, hxClamp⟩ := Word.onField_clamp_ofInt hx
  obtain ⟨hyOn, hyClamp⟩ := Word.onField_clamp_ofInt hy
  have htarget : Word.target (of f).x (of f).y d = _ := Word.target_word f.pointer d
  simp only [tryStep, htarget, bind, Except.bind, pure, Except.pure, hxOn, hyOn, hxClamp, hyClamp,
    Field.tryStep]
  cases OneBit.onField (f.pointer.target d).1 && OneBit.onField (f.pointer.target d).2 with
  | true => rfl
  | false => rfl

/-! ## 4. Access by numbers -/

/-- What a caller learns when the numbers are checked. -/
def ofChecked (r : Except RangeError Field) : Except Trap WordField :=
  (r.mapError .range).map of

/-- A cell that was found by two words is the one that they name. -/
theorem word_of_locate {x y : UInt64} {c : Cell} (h : Cell.locate x.toNat y.toNat = .ok c) :
    c.x.word = x ∧ c.y.word = y := by
  obtain ⟨hx, hy⟩ := Cell.locate_eq_ok_iff.mp h
  rw [Coordinate.word, Coordinate.word, ← hx, ← hy]
  exact ⟨UInt64.ofNat_toNat, UInt64.ofNat_toNat⟩

theorem checkCell_eq (x y : UInt64) :
    checkCell x y = ((Cell.locate x.toNat y.toNat).mapError .range).map fun _ => () := by
  have hx : x < 16 ↔ x.toNat < 16 := UInt64.lt_iff_toNat_lt
  have hy : y < 16 ↔ y.toNat < 16 := UInt64.lt_iff_toNat_lt
  unfold checkCell Cell.locate
  by_cases h : x.toNat < 16 ∧ y.toNat < 16
  · rw [if_pos (by rwa [hx, hy]), dif_pos h]
    rfl
  · rw [if_neg (by rwa [hx, hy]), dif_neg h]
    rfl

/-- **A cell that a caller names** is written if it is one; if not, the trap is the range error. -/
theorem setBit_of (x y : UInt64) (v : Bool) :
    (of f).setBit x y v = ofChecked (f.setBitAt x.toNat y.toNat v) := by
  rw [setBit, checkCell_eq, Field.setBitAt]
  cases hc : Cell.locate x.toNat y.toNat with
  | error e => rfl
  | ok c =>
    obtain ⟨hx, hy⟩ := word_of_locate hc
    rw [← hx, ← hy]
    exact put_of f c v

/-- **A cell that a caller names** is read under the same condition. -/
theorem getBit_of (x y : UInt64) :
    (of f).getBit x y = (f.bitAt x.toNat y.toNat).mapError .range := by
  rw [getBit, checkCell_eq, Field.bitAt]
  cases hc : Cell.locate x.toNat y.toNat with
  | error e => rfl
  | ok c =>
    obtain ⟨hx, hy⟩ := word_of_locate hc
    rw [← hx, ← hy]
    exact look_of f c

theorem setPointer_of (x y : UInt64) :
    (of f).setPointer x y = ofChecked (f.setPointerAt x.toNat y.toNat) := by
  rw [setPointer, checkCell_eq, Field.setPointerAt]
  cases hc : Cell.locate x.toNat y.toNat with
  | error e => rfl
  | ok c =>
    obtain ⟨hx, hy⟩ := word_of_locate hc
    rw [← hx, ← hy]
    rfl

/-- **A row that a caller names** is there if it is one; if not, the trap is the range error. -/
theorem row_of (y : UInt64) :
    ((of f).row y).map Vector.toList = (f.rowAt y.toNat).mapError .range := by
  have hy : y < 16 ↔ y.toNat < 16 := UInt64.lt_iff_toNat_lt
  rw [row, Field.rowAt]
  by_cases h : y.toNat < 16
  · rw [if_pos (hy.mpr h), dif_pos h, Word.entry, dif_pos h]
    simp only [Except.map, of, Vector.getElem_ofFn, Except.mapError, Vector.toList_ofFn, Grid.row,
      Cell.ofRow, List.finRange, List.map_ofFn]
    rfl
  · rw [if_neg (mt hy.mp h), dif_neg h]
    rfl

/-- A cell of the field is written without a trap. -/
theorem setBit_word (c : Cell) (v : Bool) :
    (of f).setBit c.x.word c.y.word v = .ok (of (f.setCell c v)) := by
  rw [setBit_of, Coordinate.toNat_word, Coordinate.toNat_word, Field.setBitAt, Cell.locate_val]
  rfl

/-- The pointer is taken to a cell of the field without a trap. -/
theorem setPointer_word (c : Cell) :
    (of f).setPointer c.x.word c.y.word = .ok (of (f.setPointer c)) := by
  rw [setPointer_of, Coordinate.toNat_word, Coordinate.toNat_word, Field.setPointerAt, Cell.locate_val]
  rfl

/-! ## 5. Views and edits of the table -/

/-- **The set bits of the table** are those of the grid. -/
theorem countOnes_of : (of f).countOnes = f.grid.count := by
  have hrows : (of f).rows.toList.flatMap Vector.toList = Cell.all.map f.grid.get := by
    simp only [of, Vector.toList_ofFn, Cell.all, Cell.ofRow, List.finRange, List.flatMap_def,
      List.map_flatten, List.map_ofFn, Function.comp_def]
  rw [countOnes, hrows, List.countP_map]
  rfl

/-- **An edit whose numbers are words** comes to the same; if it fails, the trap is the range
error. -/
theorem edit_eq_ofChecked {e : Edit} (h : e.InWords) : (of f).edit e = ofChecked (f.edit e) := by
  cases e with
  | setBit x y v =>
    obtain ⟨hx, hy⟩ := h
    rw [edit, setBit_of, Word.toNat_ofNat hx, Word.toNat_ofNat hy, Field.edit]
  | setPointer x y =>
    obtain ⟨hx, hy⟩ := h
    rw [edit, setPointer_of, Word.toNat_ofNat hx, Word.toNat_ofNat hy, Field.edit]
  | tryStep d =>
    rw [edit, tryStep_of, Field.edit]
    rcases f.tryStep d with ⟨moved | clamped, g⟩
    · rfl
    · rfl
  | setData v => exact setData_of f v
  | exchange => exact exchange_of f
  | setFlag v => rfl
  | home => rfl

/-- **Edits whose numbers are words** leave the table as they leave the field. -/
theorem afterAll_of {edits : List Edit} (h : ∀ e ∈ edits, e.InWords) :
    (of f).afterAll edits = of (f.afterAll edits) := by
  induction edits generalizing f with
  | nil => rfl
  | cons e edits ih =>
    obtain ⟨he, hedits⟩ := List.forall_mem_cons.mp h
    have hafter : (of f).after e = of (f.after e) := by
      rw [after, edit_eq_ofChecked f he, Field.after]
      cases f.edit e <;> rfl
    rw [afterAll, List.foldl_cons, hafter]
    exact ih (f.after e) hedits

/-- **An edit with coordinates that the field has** does not trap. -/
theorem edit_of {e : Edit} (h : e.OnField) : (of f).edit e = .ok (of (f.after e)) := by
  rw [edit_eq_ofChecked f h.inWords, Field.edit_eq_ok h]
  rfl

end WordField

end OneBit
