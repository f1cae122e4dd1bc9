/-
# A program that looks for a set cell

`Program.scan` takes the pointer to the right until it stands on a set cell, and changes nothing
else.  `run_scan` says that it does so on every field: it comes to its end on the first set cell at
or behind the pointer, and if there is none, the edge of the field stops it with a fault.

One round of its loop makes four ticks and takes the pointer one cell further (`runFor_round`).  So
while the cells are not set the machine stands at the top of the program again and again, each time
four ticks and one cell further (`runFor_rounds`).  The cell that it comes to decides how this
ends: on a set cell the program leaves its loop (`runFor_found`), and in the last column the move
fails (`runFor_edge`).
-/
import Mathlib.Data.Fin.Basic
import Mathlib.Order.Bounds.Defs
import Mathlib.Order.WellFounded
import OneBit.Proofs.Field.Cells
import OneBit.Proofs.Machine.Halting
import OneBit.Proofs.Text.Lines

namespace OneBit

/-! ## 1. The program and its source -/

/-- Go to the right until the data bit is set. -/
def Program.scan : Program :=
  ⟨[.tag 0, .guarded (.data false) .skip, .advance 1, .guarded .always (.move .right),
    .retreat 0, .tag 1]⟩

/-- The lines of the source of that program. -/
def scanLines : List String :=
  ["# Advance the data pointer to the right until a \"1\" bit is found.",
   "# If there is no \"1\" in the row the pointer runs off the field and",
   "# the machine faults.",
   "tag,0    # start of the search loop",
   "ifd0,sk  # current bit is 0? skip the exit jump",
   "adv,1    # found a 1: leave the loop",
   "exec,r   # move right (faults at the right edge)",
   "ret,0    # try again",
   "tag,1    # exit point"]

/-- The source, with a line feed behind each line. -/
def scanSource : String := String.join (scanLines.map fun line => line ++ "\n")

/-- The source compiles to the program. -/
theorem compile_scanSource : Assembly.compile scanSource = ⟨.scan, 9, none⟩ := by
  have hlines : Text.lines scanSource = scanLines := by
    have hinline : ∀ line ∈ scanLines, Text.Inline line.toList := by
      simp [scanLines, Text.Inline]
    exact Text.lines_join fun line hline => (hinline line hline).unbroken
  rw [Assembly.compile, hlines]
  decide +kernel

/-! ## 2. The row of the pointer -/

namespace Field

variable {f : Field} {x : Coordinate}

/-- The columns at the pointer and behind it whose cells in the row of the pointer are set. -/
def setAhead (f : Field) : Set Coordinate :=
  {x | f.pointer.x ≤ x ∧ f.grid.get ⟨x, f.pointer.y⟩ = true}

/-- The field with the pointer in column `x` of its row. -/
def inColumn (f : Field) (x : Coordinate) : Field := { f with pointer := ⟨x, f.pointer.y⟩ }

/-- A step to the right that stays on the field is made. -/
theorem tryStep_right (hx : x.val = f.pointer.x.val + 1) :
    f.tryStep .right = (.moved ⟨x, f.pointer.y⟩, f.inColumn x) :=
  tryStep_eq_moved_iff.mpr ⟨⟨hx, rfl⟩, rfl⟩

/-- In the last column it is stopped. -/
theorem tryStep_right_edge (hx : f.pointer.x = 15) :
    f.tryStep .right = (.clamped f.pointer, f) := by
  refine tryStep_eq_clamped_iff.mpr ⟨fun e hside => ?_, rfl, rfl⟩
  have hcolumn : e.x.val = f.pointer.x.val + 1 := hside.1
  have hlast : f.pointer.x.val = 15 := congrArg Fin.val hx
  omega

/-- Where there is a set cell ahead there is a first one. -/
theorem exists_isLeast_setAhead (h : f.setAhead.Nonempty) : ∃ x, IsLeast f.setAhead x :=
  ⟨wellFounded_lt.min f.setAhead h, wellFounded_lt.min_mem f.setAhead h,
    fun _ hc => not_lt.mp (wellFounded_lt.not_lt_min f.setAhead hc)⟩

end Field

namespace Machine

/-! ## 3. Ticks -/

variable {f g : Field} {x : Coordinate} {t : Nat}

/-- The machine at a place of the program, after `t` ticks. -/
def scanning (f : Field) (place t : Nat) : Machine := ⟨f, .scan, some place, .ok, t⟩

/-- A tick is known from what the instruction at the place does. -/
theorem tick_scanning (place : Nat) (i : Instruction) {control : Control} {s : Status} {c : Nat}
    (hi : Program.scan.get? place = some i)
    (hexecute : Program.scan.execute place f i = (control, g))
    (hsettle : control.settle Program.scan.length place = (s, c)) :
    (scanning f place t).tick = (s, scanning g c (t + 1)) := by
  have hlt : place < Program.scan.length := (List.getElem?_eq_some_iff.mp hi).1
  rw [tick_of_get? (here?_of_lt rfl hlt) hi]
  simp only [scanning, hexecute, hsettle]

theorem tick_scanning_top : (scanning f 0 t).tick = (.ok, scanning f 1 (t + 1)) :=
  tick_scanning 0 (.tag 0) rfl rfl rfl

/-- A cell that is not set leads over the way out of the loop. -/
theorem tick_scanning_stay (h : f.data = false) :
    (scanning f 1 t).tick = (.ok, scanning f 3 (t + 1)) :=
  tick_scanning 1 (.guarded (.data false) .skip) rfl (if_pos (by simp [Guard.holds, h])) rfl

/-- A set cell leads to it. -/
theorem tick_scanning_leave (h : f.data = true) :
    (scanning f 1 t).tick = (.ok, scanning f 2 (t + 1)) :=
  tick_scanning 1 (.guarded (.data false) .skip) rfl (if_neg (by simp [Guard.holds, h])) rfl

theorem tick_scanning_out : (scanning f 2 t).tick = (.ok, scanning f 5 (t + 1)) :=
  tick_scanning 2 (.advance 1) rfl rfl rfl

theorem tick_scanning_move (hx : x.val = f.pointer.x.val + 1) :
    (scanning f 3 t).tick = (.ok, scanning (f.inColumn x) 4 (t + 1)) := by
  have hperform : (Operation.move .right).perform f 3 = (.goto 4, f.inColumn x) := by
    simp only [Operation.perform, Field.tryStep_right hx]
  exact tick_scanning 3 (.guarded .always (.move .right)) rfl hperform rfl

theorem tick_scanning_edge (hx : f.pointer.x = 15) :
    (scanning f 3 t).tick = (.fault .pointerOutOfRange, scanning f 3 (t + 1)) := by
  have hperform : (Operation.move .right).perform f 3 = (.fault .pointerOutOfRange, f) := by
    simp only [Operation.perform, Field.tryStep_right_edge hx]
  exact tick_scanning 3 (.guarded .always (.move .right)) rfl hperform rfl

theorem tick_scanning_back : (scanning f 4 t).tick = (.ok, scanning f 0 (t + 1)) :=
  tick_scanning 4 (.retreat 0) rfl rfl rfl

theorem tick_scanning_end : (scanning f 5 t).tick = (.terminated, scanning f 6 (t + 1)) :=
  tick_scanning 5 (.tag 1) rfl rfl rfl

/-! ## 4. Rounds of the loop -/

/-- **One round**: the cell is not set, and the pointer goes to the next one. -/
theorem runFor_round (hdata : f.data = false) (hx : x.val = f.pointer.x.val + 1) :
    runFor 4 (scanning f 0 t) = (.ok, scanning (f.inColumn x) 0 (t + 4)) := by
  rw [runFor_succ_of_ok tick_scanning_top, runFor_succ_of_ok (tick_scanning_stay hdata),
    runFor_succ_of_ok (tick_scanning_move hx), runFor_succ_of_ok tick_scanning_back, runFor_zero]

/-- The last round on a set cell. -/
theorem runFor_found (hdata : f.data = true) :
    runFor 4 (scanning f 0 t) = (.terminated, scanning f 6 (t + 4)) := by
  rw [runFor_succ_of_ok tick_scanning_top, runFor_succ_of_ok (tick_scanning_leave hdata),
    runFor_succ_of_ok tick_scanning_out, runFor_succ_of_stop (by simp [tick_scanning_end]),
    tick_scanning_end]

/-- The last round in the last column. -/
theorem runFor_edge (hdata : f.data = false) (hx : f.pointer.x = 15) :
    runFor 3 (scanning f 0 t) = (.fault .pointerOutOfRange, scanning f 3 (t + 3)) := by
  rw [runFor_succ_of_ok tick_scanning_top, runFor_succ_of_ok (tick_scanning_stay hdata),
    runFor_succ_of_stop (by simp [tick_scanning_edge hx]), tick_scanning_edge hx]

/-- **As many rounds as there are columns on the way**, none of them with a set cell.  By induction
on their number: each round leaves one less. -/
theorem runFor_rounds {n : Nat} (hx : x.val = f.pointer.x.val + n)
    (hcells : ∀ c, f.pointer.x ≤ c → c < x → f.grid.get ⟨c, f.pointer.y⟩ = false) :
    runFor (4 * n) (scanning f 0 t) = (.ok, scanning (f.inColumn x) 0 (t + 4 * n)) := by
  induction n generalizing f t with
  | zero =>
    obtain rfl : x = f.pointer.x := Fin.ext hx
    rfl
  | succ n ih =>
    have hlt : f.pointer.x.val + 1 < 16 := by omega
    have hdata : f.data = false := hcells f.pointer.x le_rfl (Fin.lt_def.mpr (by omega))
    have hround := runFor_round (t := t) hdata (x := ⟨f.pointer.x.val + 1, hlt⟩) rfl
    have hrest := ih (f := f.inColumn ⟨f.pointer.x.val + 1, hlt⟩) (t := t + 4)
      (by simp only [Field.inColumn]; omega)
      fun c hc hcx => hcells c (Fin.le_def.mpr (Nat.le_of_succ_le hc)) hcx
    rw [Nat.mul_succ, Nat.add_comm (4 * n), runFor_add hround, hrest, Nat.add_assoc t]
    rfl

/-! ## 5. The run -/

/-- The run from the top of the program, if there is a set cell ahead. -/
theorem run_scanning_of_isLeast (h : IsLeast f.setAhead x) :
    (scanning f 0 0).run = some (.terminated,
      ⟨⟨f.grid, f.flag, ⟨x, f.pointer.y⟩⟩, .scan, some 6, .terminated,
        4 * (x.val - f.pointer.x.val) + 4⟩) := by
  obtain ⟨⟨hle, hset⟩, hleast⟩ := h
  have hx : x.val = f.pointer.x.val + (x.val - f.pointer.x.val) :=
    (Nat.add_sub_cancel' (Fin.le_def.mp hle)).symm
  have hway := runFor_rounds (t := 0) hx fun c hc hcx => by
    by_contra hne
    exact absurd (hleast ⟨hc, by simpa using hne⟩) (not_le.mpr hcx)
  have hrun := (runFor_add hway 4).trans (runFor_found (f := f.inColumn x) hset)
  rw [run_of_runFor (by rw [hrun]; simp), hrun, Nat.zero_add]
  rfl

/-- The run from the top of the program, if there is none. -/
theorem run_scanning_of_empty (h : f.setAhead = ∅) :
    (scanning f 0 0).run = some (.fault .pointerOutOfRange,
      ⟨⟨f.grid, f.flag, ⟨15, f.pointer.y⟩⟩, .scan, some 3, .fault .pointerOutOfRange,
        4 * (15 - f.pointer.x.val) + 3⟩) := by
  have hunset : ∀ c, f.pointer.x ≤ c → f.grid.get ⟨c, f.pointer.y⟩ = false := by
    intro c hc
    by_contra hne
    exact absurd (show c ∈ f.setAhead from ⟨hc, by simpa using hne⟩) (by simp [h])
  have hx : (15 : Coordinate).val = f.pointer.x.val + (15 - f.pointer.x.val) :=
    (Nat.add_sub_cancel' (Nat.le_of_lt_succ f.pointer.x.isLt)).symm
  have hway := runFor_rounds (t := 0) hx fun c hc _ => hunset c hc
  have hlast : (f.inColumn 15).data = false := hunset 15 (Fin.le_last _)
  have hrun := (runFor_add hway 3).trans (runFor_edge hlast rfl)
  rw [run_of_runFor (by rw [hrun]; simp), hrun, Nat.zero_add]
  rfl

/-- **The scan finds the first set cell.**  On any machine the source of the program is loaded
without an error, and the run that follows has an answer.  If a cell in the row of the pointer is
set, at the pointer or behind it, the program comes to its end with the pointer on the first of
these cells, after four ticks for each cell before it and four for itself.  If there is none, the
move of the pointer fails in the last column, after three ticks there and four for each cell before
it.  Grid and flag are as they were. -/
theorem run_scan (m : Machine) :
    (m.load scanSource).1 = .ok 9 ∧ (m.load scanSource).2.program = .scan ∧
    (∀ x, IsLeast m.field.setAhead x →
      (m.load scanSource).2.run = some (.terminated,
        ⟨⟨m.field.grid, m.field.flag, ⟨x, m.field.pointer.y⟩⟩, .scan, some 6, .terminated,
          4 * (x.val - m.field.pointer.x.val) + 4⟩)) ∧
    (m.field.setAhead.Nonempty → ∃ x, IsLeast m.field.setAhead x) ∧
    (m.field.setAhead = ∅ →
      (m.load scanSource).2.run = some (.fault .pointerOutOfRange,
        ⟨⟨m.field.grid, m.field.flag, ⟨15, m.field.pointer.y⟩⟩, .scan, some 3,
          .fault .pointerOutOfRange, 4 * (15 - m.field.pointer.x.val) + 3⟩) ∧
      Program.scan.get? 3 = some (.guarded .always (.move .right))) := by
  have hload : (m.load scanSource).2 = scanning m.field 0 0 := by
    rw [load, compile_scanSource]
    rfl
  rw [hload]
  refine ⟨by rw [load, compile_scanSource], rfl, ?_, Field.exists_isLeast_setAhead, ?_⟩
  · exact fun x h => run_scanning_of_isLeast h
  · exact fun h => ⟨run_scanning_of_empty h, rfl⟩

end Machine

end OneBit
