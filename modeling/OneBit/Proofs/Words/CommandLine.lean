/-
# The command line in words

What a command line says of cells comes from texts.  A text is read as two words (`parseCoords`),
and both are below 16 if the reading succeeds; it is that test alone which keeps the insistence of
`WordField.setBit` and `WordField.setPointer` on cells from trapping.  `parseCoords_eq` says that
the reading agrees with that of the library, where a cell cannot be off the field.

So the field before a run is built without a trap (`startField_of`), and the picture of a field,
which looks up its rows one by one, is drawn without one (`picture_of`).

`never_traps` puts together what is known of traps: no sequence of sound actions has one, no search
from any word, and no command line whose cells are accepted.
-/
import OneBit.Command.Perform
import OneBit.Proofs.Text.Numeral
import OneBit.Proofs.Words.Machine

namespace OneBit

/-! ## 1. Texts that name cells -/

namespace Command

/-- The coordinate that a text spells, as a word. -/
def coordinateWord (text : List Char) : Except CellError UInt64 :=
  match Text.readBelow UInt64.size (Text.trim text) with
  | .ok n =>
    if UInt64.ofNat n < 16 then .ok (UInt64.ofNat n)
    else .error (.badCoordinate (String.ofList (Text.trim text)))
  | .error _ => .error (.badCoordinate (String.ofList (Text.trim text)))

/-- The two coordinates that a text spells, as words. -/
def parseCoords (text : String) : Except CellError (UInt64 × UInt64) :=
  match Text.splitAt? ',' text.toList with
  | none => .error (.noComma text)
  | some (left, right) => do
    let x ← coordinateWord left
    let y ← coordinateWord right
    return (x, y)

/-- **A coordinate is read as the library reads it.** -/
theorem coordinateWord_eq (text : List Char) :
    coordinateWord text =
      match coordinate? text with
      | some c => .ok c.word
      | none => .error (.badCoordinate (String.ofList (Text.trim text))) := by
  have hpos : 0 < UInt64.size := by decide
  cases hread : Text.readBelow UInt64.size (Text.trim text) with
  | ok n =>
    obtain ⟨hn, hsize⟩ := (Text.readBelow_eq_ok_iff hpos).mp hread
    have hlt : UInt64.ofNat n < 16 ↔ n < 16 := UInt64.ofNat_lt_iff_lt hsize (by decide)
    simp only [coordinateWord, coordinate?, hread, hn]
    by_cases h : n < 16
    · rw [if_pos (hlt.mpr h), dif_pos h]
      rfl
    · rw [if_neg (mt hlt.mp h), dif_neg h]
  | error e =>
    -- A number that does not fit into a word is no coordinate either.
    have hbig : ∀ n, Text.unsigned? (Text.trim text) = some n → ¬ n < 16 := by
      intro n hn hlt
      have hok := (Text.readBelow_eq_ok_iff hpos).mpr ⟨hn, Nat.lt_trans hlt (by decide)⟩
      rw [hread] at hok
      cases hok
    simp only [coordinateWord, coordinate?, hread]
    cases hn : Text.unsigned? (Text.trim text) with
    | none => rfl
    | some n => simp only [dif_neg (hbig n hn)]

/-- **A cell is read as the library reads it**, with the same mistakes. -/
theorem parseCoords_eq (text : String) :
    parseCoords text = (parseCell text).map fun c => (c.x.word, c.y.word) := by
  unfold parseCoords parseCell
  cases Text.splitAt? ',' text.toList with
  | none => rfl
  | some parts =>
    obtain ⟨left, right⟩ := parts
    simp only [coordinateWord_eq]
    cases coordinate? left with
    | none => rfl
    | some x =>
      cases coordinate? right with
      | none => rfl
      | some y => rfl

end Command

/-! ## 2. The field before a run -/

namespace WordField

/-- The field before a run. -/
def start (set : List (UInt64 × UInt64)) (flag : Bool) (pointer : Option (UInt64 × UInt64)) :
    Except Trap WordField := do
  let f ← set.foldlM (fun f c => f.setBit c.1 c.2 true) cleared
  match pointer with
  | some c => (f.setFlag flag).setPointer c.1 c.2
  | none => return f.setFlag flag

/-- Cells of the field are set one after the other without a trap. -/
theorem foldlM_setBit_of (f : Field) (cells : List Cell) :
    (cells.map fun c => (c.x.word, c.y.word)).foldlM (fun g c => g.setBit c.1 c.2 true) (of f) =
      Except.ok (ε := Trap) (of (cells.foldl (fun g c => g.setCell c true) f)) := by
  induction cells generalizing f with
  | nil => rfl
  | cons c cells ih =>
    simp only [List.map_cons, List.foldlM_cons, setBit_word]
    exact ih (f.setCell c true)

/-- **The field before a run is built without a trap**, and is the one that the library builds. -/
theorem start_of (o : Command.RunOptions) :
    start (o.set.map fun c => (c.x.word, c.y.word)) o.flag
      (o.pointer.map fun c => (c.x.word, c.y.word)) = .ok (of o.field) := by
  simp only [start, ← of_cleared, foldlM_setBit_of, bind, Except.bind, Command.RunOptions.field,
    setFlag_of]
  cases o.pointer with
  | none => rfl
  | some c => exact setPointer_word _ c

/-! ## 3. The picture -/

/-- A cell in the picture, with its bit. -/
def cellPicture (f : WordField) (y x : UInt64) (bit : Bool) : String :=
  if f.x = x ∧ f.y = y then String.ofList ['[', bitDigit bit, ']']
  else String.ofList [' ', bitDigit bit, ' ']

/-- A row in the picture. -/
def rowPicture (f : WordField) (y : UInt64) : Except Trap String := do
  let bits ← f.row y
  return Text.padStart 2 ' ' (toString y.toNat) ++ " " ++
    String.join (bits.toList.zipIdx.map fun b => f.cellPicture y (UInt64.ofNat b.2) b.1)

/-- The line below the rows. -/
def legend (f : WordField) : String :=
  "FLAG=" ++ String.singleton (bitDigit f.flag) ++ "  POINTER=(" ++ toString f.x.toNat ++ ", " ++
    toString f.y.toNat ++ ")"

/-- The lines of the picture. -/
def picture (f : WordField) : Except Trap (List String) := do
  let rows ← (List.range 16).reverse.mapM fun y => f.rowPicture (UInt64.ofNat y)
  return rows ++ [f.legend]

theorem cellPicture_of (f : Field) (c : Cell) :
    (of f).cellPicture c.y.word c.x.word (f.grid.get c) = f.cellPicture c := by
  have hhere : ((of f).x = c.x.word ∧ (of f).y = c.y.word) ↔ f.pointer = c := by
    rw [of, Coordinate.word_inj, Coordinate.word_inj]
    constructor
    · rintro ⟨hx, hy⟩
      exact Cell.mk.injEq .. |>.mpr ⟨hx, hy⟩
    · rintro rfl
      exact ⟨rfl, rfl⟩
  simp only [cellPicture, Field.cellPicture, hhere]

theorem rowPicture_of (f : Field) (y : Coordinate) :
    (of f).rowPicture y.word = .ok (f.rowPicture y) := by
  have hrow := row_of f y.word
  rw [Coordinate.toNat_word, Field.rowAt, dif_pos y.isLt] at hrow
  cases hbits : (of f).row y.word with
  | error t =>
    rw [hbits] at hrow
    cases hrow
  | ok bits =>
    rw [hbits] at hrow
    have hlist : bits.toList = f.grid.row y := Except.ok.inj hrow
    have hcells : (bits.toList.zipIdx.map fun b =>
        (of f).cellPicture y.word (UInt64.ofNat b.2) b.1) = (Cell.ofRow y).map f.cellPicture := by
      rw [hlist]
      refine List.ext_getElem (by simp [Grid.row]) ?_
      intro x h1 h2
      have hx : x < 16 := by simpa [Cell.ofRow] using h2
      simp only [Grid.row, Cell.ofRow, List.getElem_map, List.getElem_zipIdx, List.getElem_finRange,
        Nat.zero_add]
      exact cellPicture_of f ⟨⟨x, hx⟩, y⟩
    simp only [rowPicture, hbits, bind, Except.bind, hcells, Coordinate.toNat_word]
    rfl

theorem legend_of (f : Field) : (of f).legend = f.legend := by
  simp only [legend, Field.legend, of, Coordinate.toNat_word]

/-- **The picture is drawn without a trap**, and is the picture of the field. -/
theorem picture_of (f : Field) : (of f).picture = .ok f.picture := by
  have hrange : (List.range 16).reverse = (List.finRange 16).reverse.map Fin.val := by
    decide
  have hrows : ((List.range 16).reverse.mapM fun y => (of f).rowPicture (UInt64.ofNat y)) =
      Except.ok (ε := Trap) ((List.finRange 16).reverse.map f.rowPicture) := by
    rw [hrange, List.mapM_map]
    have hrow : (fun y : Coordinate => (of f).rowPicture (UInt64.ofNat y.val)) =
        fun y => pure (f.rowPicture y) := funext (rowPicture_of f)
    exact (congrArg (List.mapM · _) hrow).trans List.mapM_pure
  rw [picture, hrows, Field.picture, ← legend_of]
  rfl

end WordField

/-! ## 4. Nothing traps -/

namespace Command

/-- Texts that are accepted as words are cells for the library too. -/
theorem mapM_parseCoords_eq_ok {texts : List String} {words : List (UInt64 × UInt64)}
    (h : texts.mapM parseCoords = .ok words) :
    ∃ cells : List Cell, texts.mapM parseCell = .ok cells ∧
      words = cells.map fun c => (c.x.word, c.y.word) := by
  induction texts generalizing words with
  | nil =>
    cases h
    exact ⟨[], rfl, rfl⟩
  | cons text texts ih =>
    rw [List.mapM_cons, parseCoords_eq] at h
    cases hcell : parseCell text with
    | error e =>
      rw [hcell] at h
      cases h
    | ok c =>
      cases hrest : texts.mapM parseCoords with
      | error e =>
        rw [hcell, hrest] at h
        cases h
      | ok rest =>
        obtain ⟨cells, hcells, rfl⟩ := ih hrest
        rw [hcell, hrest] at h
        cases h
        refine ⟨c :: cells, ?_, rfl⟩
        rw [List.mapM_cons, hcell, hcells]
        rfl

/-- The same of a text that need not be there. -/
theorem optionMapM_parseCoords_eq_ok {text : Option String} {words : Option (UInt64 × UInt64)}
    (h : text.mapM parseCoords = .ok words) :
    ∃ cell : Option Cell, text.mapM parseCell = .ok cell ∧
      words = cell.map fun c => (c.x.word, c.y.word) := by
  cases text with
  | none =>
    cases h
    exact ⟨none, rfl, rfl⟩
  | some text =>
    rw [Option.mapM_some, parseCoords_eq] at h
    cases hcell : parseCell text with
    | error e =>
      rw [hcell] at h
      cases h
    | ok c =>
      rw [hcell] at h
      cases h
      refine ⟨some c, ?_, rfl⟩
      rw [Option.mapM_some, hcell]
      rfl

end Command

open Command in
/-- **Nothing traps.**  Let a host do anything with a machine in words, as long as it names cells of
the field when it edits, and brings programs with at most `Program.maxLength` instructions.  What
comes of it is never a trap, but the words for a machine that the host can reach.  Each further call
answers as on that machine, and so it does not trap on the way; a tick always finds the instruction
that it looks up; the counter does not wrap; and all rows can be printed.  A search from any word
stays in the program.  Cells of a command line that are accepted as words are cells of the field,
and setting them before a run does not trap. -/
theorem never_traps :
    (∀ e, WordMachine.Reached e →
      ∃ m : Machine, m.Reached ∧ e = .ok (.of m) ∧
        (∀ c, Option.Rel (Agree WordMachine.StandsFor) (m.call c) (WordMachine.system.call e c)) ∧
        m.status ≠ .fault .undefinedOpcode ∧
        (WordMachine.of m).counterNumber.toInt = m.counterNumber ∧
        (m.counterNumber = -1 ∨ 0 ≤ m.counterNumber) ∧
        m.counterNumber ≤ m.program.length + 1 ∧
        (WordField.of m.field).picture = .ok m.field.picture) ∧
    (∀ p : Program, p.length ≤ Program.maxLength → ∀ start id side,
      p.findTagWord start id side = .ok ((p.findTag start.toNat id side).map UInt64.ofNat)) ∧
    (∀ (sets : List String) (flag : Bool) (pointer : Option String) (cells : List _) (place),
      sets.mapM parseCoords = .ok cells → pointer.mapM parseCoords = .ok place →
      ∃ o : RunOptions, sets.mapM parseCell = .ok o.set ∧ pointer.mapM parseCell = .ok o.pointer ∧
        o.flag = flag ∧ WordField.start cells flag place = .ok (.of o.field)) := by
  refine ⟨?_, ?_, ?_⟩
  · intro e he
    obtain ⟨m, hm, hstands⟩ := WordMachine.exists_standsFor he
    obtain ⟨hnumber, hsign, hle⟩ :=
      WordMachine.counterNumber_of hstands.placed hstands.length_le
    refine ⟨m, hm, hstands.eq_ok, WordMachine.call_standsFor hstands, ?_, hnumber, hsign, hle,
      WordField.picture_of m.field⟩
    intro hstatus
    have hfits := (Machine.Settled.of_reached hm).fits
    rw [hstatus] at hfits
    exact hfits
  · intro p hp start id side
    exact Program.findTag_word hp start id side
  · intro sets flag pointer cells place hsets hpointer
    obtain ⟨set, hset, rfl⟩ := mapM_parseCoords_eq_ok hsets
    obtain ⟨home, hhome, rfl⟩ := optionMapM_parseCoords_eq_ok hpointer
    have hstart := WordField.start_of ⟨false, none, set, flag, home, false⟩
    exact ⟨⟨false, none, set, flag, home, false⟩, hset, hhome, rfl, hstart⟩

open Command in
/-- A machine that has skipped out of its program, a search from the greatest word, and two cells
that are written with a sign, zeros and blanks. -/
theorem never_traps_of_skippedOut :
    WordMachine.Reached (.ok (.of Machine.skippedOut)) ∧
      (∃ m : Machine, m.Reached ∧ Except.ok (.of Machine.skippedOut) =
          Except.ok (ε := Trap) (WordMachine.of m) ∧
        m.counterNumber ≤ m.program.length + 1) ∧
      Program.findTagWord ⟨[.tag 3, .tag 200]⟩ 18446744073709551615 3 .backward = .ok (some 0) ∧
      ["15,15", "+3 , 007"].mapM parseCoords = .ok [(15, 15), (3, 7)] ∧
      ∃ f, WordField.start [(15, 15), (3, 7)] true none = .ok (.of f) := by
  have hlength : 1 ≤ Program.maxLength := by decide
  have hreached : WordMachine.Reached (.ok (.of Machine.skippedOut)) :=
    .act (.call (.runLimited 0)) trivial
      (.act (.call .step) trivial
        (.act (.install ⟨[.guarded .always .skip]⟩) hlength .new rfl) rfl) rfl
  have hsets : ["15,15", "+3 , 007"].mapM parseCoords = .ok [(15, 15), (3, 7)] := by decide
  obtain ⟨hmachine, hsearch, hcells⟩ := never_traps
  obtain ⟨m, hm, heq, -, -, -, -, hle, -⟩ := hmachine _ hreached
  obtain ⟨o, -, -, -, hstart⟩ := hcells _ true none _ _ hsets rfl
  refine ⟨hreached, ⟨m, hm, heq, hle⟩, ?_, hsets, o.field, hstart⟩
  exact hsearch ⟨[.tag 3, .tag 200]⟩ (by decide) 18446744073709551615 3 .backward

end OneBit
