/-
# The reference machine

The tick of the machine told as a procedure, the way its written description has it.  The
counter is an integer, -1 while there is no program.  A tick works in stages on it:

1. A counter that is past the end of the program is taken back to 0.
2. The instruction does its work.  It leaves the counter at itself, unless it is to go elsewhere:
   a skip adds one, and a search that has found its tag at place `k` sets the counter to `k - 1`.
3. One EPILOGUE for all instructions adds one to the counter, but not after a fault.  If the
   counter is then past the end, the program has come to its end.

So the counter on the way may be -1 although there is a program: when a tag at place 0 is found.

None of the stages is taken over from the machine.  A guard is looked up in the grid or in the flag,
a move asks for the neighbour of the pointer's cell, and a search goes from place to place.
`passes_eq_holds`, `move_eq`, `scanForward_eq` and `scanBackward_eq` say that these are the guards,
the steps and the searches of the machine.

There are two readings of "past the end" (`EndTest`), which differ behind the end only.
-/
import OneBit.Proofs.Field.Cells
import OneBit.Proofs.Machine.Drive

namespace OneBit

/-- How a counter is seen to be past the end of the program. -/
inductive EndTest
  /-- It is at the end or behind it. -/
  | reached
  /-- It is at the end. -/
  | exact
deriving DecidableEq

/-- Is the counter past the end? -/
def EndTest.past (length counter : Int) : EndTest → Bool
  | reached => length ≤ counter
  | exact => counter == length

/-- The state of the reference machine. -/
structure Reference where
  field : Field
  program : Program
  /-- The number of the next instruction, -1 without a program. -/
  counter : Int
deriving DecidableEq

namespace Reference

/-! ## 1. Searches from place to place -/

/-- Look for a tag at `i` and the places after it. -/
def scanForward (p : Program) (id : UInt8) (i : Nat) : Option Nat :=
  if i < p.length then
    if p.get? i = some (.tag id) then some i else scanForward p id (i + 1)
  else none
termination_by p.length - i

/-- Look for a tag at the places before `i`, the nearest first. -/
def scanBackward (p : Program) (id : UInt8) : Nat → Option Nat
  | 0 => none
  | i + 1 => if p.get? i = some (.tag id) then some i else scanBackward p id i

/-! ## 2. Guards and neighbours -/

/-- Is an operation under this guard carried out? -/
def passes (f : Field) : Guard → Bool
  | .always => true
  | .data false => !f.grid.get f.pointer
  | .data true => f.grid.get f.pointer
  | .flag false => !f.flag
  | .flag true => f.flag

/-- The next number up to 15. -/
def next? (v : Coordinate) : Option Coordinate :=
  if h : v.val < 15 then some ⟨v.val + 1, by omega⟩ else none

/-- The number before, down to 0. -/
def previous? (v : Coordinate) : Option Coordinate :=
  if 0 < v.val then some ⟨v.val - 1, by omega⟩ else none

/-- The cell that is next on a side, if the field does not end there. -/
def neighbour? (c : Cell) : Direction → Option Cell
  | .right => (next? c.x).map fun x => ⟨x, c.y⟩
  | .left => (previous? c.x).map fun x => ⟨x, c.y⟩
  | .up => (next? c.y).map fun y => ⟨c.x, y⟩
  | .down => (previous? c.y).map fun y => ⟨c.x, y⟩

/-- The last cell on a side, in the same row or column. -/
def boundary (c : Cell) : Direction → Cell
  | .right => ⟨⟨15, by omega⟩, c.y⟩
  | .left => ⟨⟨0, by omega⟩, c.y⟩
  | .up => ⟨c.x, ⟨15, by omega⟩⟩
  | .down => ⟨c.x, ⟨0, by omega⟩⟩

/-! ## 3. One tick -/

/-- What an instruction has come to before the epilogue. -/
structure Pending where
  outcome : Status
  counter : Int
  field : Field

/-- Move the pointer one cell.  A move off the field is a fault, and the pointer is put on the
boundary all the same. -/
def move (f : Field) (counter : Int) (d : Direction) : Pending :=
  match neighbour? f.pointer d with
  | some c => ⟨.ok, counter, { f with pointer := c }⟩
  | none => ⟨.fault .pointerOutOfRange, counter, { f with pointer := boundary f.pointer d }⟩

/-- Carry out an operation.  The counter stands at its instruction. -/
def operate (f : Field) (counter : Int) : Operation → Pending
  | .move d => move f counter d
  | .home => ⟨.ok, counter, { f with pointer := .home }⟩
  | .halt => ⟨.halted, counter, f⟩
  | .skip => ⟨.ok, counter + 1, f⟩
  | .exchange =>
    ⟨.ok, counter, { f with grid := f.grid.set f.pointer f.flag, flag := f.grid.get f.pointer }⟩
  | .loadData => ⟨.ok, counter, { f with grid := f.grid.set f.pointer f.flag }⟩
  | .complementData =>
    ⟨.ok, counter, { f with grid := f.grid.set f.pointer (!f.grid.get f.pointer) }⟩
  | .setData v => ⟨.ok, counter, { f with grid := f.grid.set f.pointer v }⟩
  | .loadFlag => ⟨.ok, counter, { f with flag := f.grid.get f.pointer }⟩
  | .complementFlag => ⟨.ok, counter, { f with flag := !f.flag }⟩
  | .setFlag v => ⟨.ok, counter, { f with flag := v }⟩

/-- Go to the tag that a search has found: to the place before it, since the epilogue adds one. -/
def jump (f : Field) (counter : Int) : Option Nat → Pending
  | some k => ⟨.ok, k - 1, f⟩
  | none => ⟨.fault .tagNotFound, counter, f⟩

/-- Carry out an instruction.  The counter stands at it. -/
def dispatch (p : Program) (counter : Int) (f : Field) : Instruction → Pending
  | .tag _ => ⟨.ok, counter, f⟩
  | .advance id => jump f counter (scanForward p id (counter.toNat + 1))
  | .retreat id => jump f counter (scanBackward p id counter.toNat)
  | .guarded guard op => if passes f guard then operate f counter op else ⟨.ok, counter, f⟩

/-- Let the counter go on after `ok` and a halt, and notice the end of the program. -/
def epilogue (test : EndTest) (length : Int) (e : Pending) : Status × Int :=
  let counter := if e.outcome = .ok ∨ e.outcome = .halted then e.counter + 1 else e.counter
  (if test.past length counter then .terminated else e.outcome, counter)

/-- The instruction at the counter. -/
def fetch (p : Program) : Int → Option Instruction
  | .ofNat i => p.get? i
  | .negSucc _ => none

/-- Carry out the next instruction. -/
def tick (test : EndTest) (r : Reference) : Status × Reference :=
  if r.counter = -1 then (.fault .noProgramLoaded, r)
  else
    let counter := if test.past r.program.length r.counter then 0 else r.counter
    match fetch r.program counter with
    | none => (.fault .undefinedOpcode, r)
    | some i =>
      let e := dispatch r.program counter r.field i
      let (status, counter) := epilogue test r.program.length e
      (status, { r with field := e.field, counter := counter })

/-- The reference machine with a field and a program, at its top. -/
def start (f : Field) (p : Program) : Reference := ⟨f, p, if p.isEmpty then -1 else 0⟩

/-- The reference machine, as a system.  It keeps no status. -/
def system (test : EndTest) : System Reference := ⟨tick test, fun _ r => r⟩

/-- The answers to calls that a reference machine gets one after the other. -/
noncomputable def history (test : EndTest) (r : Reference) (cs : List Call) :
    List (Status × Reference) :=
  answers (system test).call r cs

/-! ## 4. The guards and the moves are those of the machine -/

theorem passes_eq_holds (f : Field) (guard : Guard) : passes f guard = guard.holds f := by
  cases guard with
  | always => rfl
  | data v => cases v <;> simp [passes, Guard.holds, Field.data]
  | flag v => cases v <;> simp [passes, Guard.holds]

theorem next?_eq_some_iff {v w : Coordinate} : next? v = some w ↔ w.val = v.val + 1 := by
  unfold next?
  split
  · rw [Option.some.injEq, Fin.ext_iff]
    exact eq_comm
  · simp only [reduceCtorEq, false_iff]
    omega

theorem previous?_eq_some_iff {v w : Coordinate} : previous? v = some w ↔ w.val + 1 = v.val := by
  unfold previous?
  split
  · simp only [Option.some.injEq, Fin.ext_iff]
    omega
  · simp only [reduceCtorEq, false_iff]
    omega

theorem next?_eq_none_iff {v : Coordinate} : next? v = none ↔ ⟨15, by omega⟩ = v := by
  simp only [next?, dite_eq_right_iff, reduceCtorEq, imp_false, Fin.ext_iff]
  omega

theorem previous?_eq_none_iff {v : Coordinate} : previous? v = none ↔ ⟨0, by omega⟩ = v := by
  simp only [previous?, ite_eq_right_iff, reduceCtorEq, imp_false, Fin.ext_iff]
  omega

/-- **The reference machine looks for the neighbour** on a side. -/
theorem neighbour?_eq_some_iff {c e : Cell} {d : Direction} :
    neighbour? c d = some e ↔ c.Neighbour d e := by
  obtain ⟨x, y⟩ := e
  cases d <;>
    simp only [neighbour?, Option.map_eq_some_iff, next?_eq_some_iff, previous?_eq_some_iff,
      Cell.mk.injEq, Cell.Neighbour, ↓existsAndEq, true_and, and_true]
  case right | left => exact and_congr_right' eq_comm
  case up | down => exact and_comm.trans (and_congr_left' eq_comm)

/-- A cell without a neighbour on a side is the last one there. -/
theorem boundary_of_neighbour?_eq_none {c : Cell} {d : Direction} (h : neighbour? c d = none) :
    boundary c d = c := by
  cases d <;>
    simp only [neighbour?, Option.map_eq_none_iff, next?_eq_none_iff, previous?_eq_none_iff] at h <;>
    rw [boundary, h]

/-- **A move** is a step of the pointer, and a fault if the step is stopped at the edge. -/
theorem move_eq (f : Field) (counter : Int) (d : Direction) :
    move f counter d =
      match f.tryStep d with
      | (.moved _, g) => ⟨.ok, counter, g⟩
      | (.clamped _, g) => ⟨.fault .pointerOutOfRange, counter, g⟩ := by
  rcases hstep : f.tryStep d with ⟨c | c, g⟩
  · obtain ⟨hside, rfl⟩ := Field.tryStep_eq_moved_iff.mp hstep
    simp only [move, neighbour?_eq_some_iff.mpr hside]
    rfl
  · obtain ⟨hnone, -, rfl⟩ := Field.tryStep_eq_clamped_iff.mp hstep
    have hlast : neighbour? g.pointer d = none :=
      Option.eq_none_iff_forall_ne_some.mpr fun e he => hnone e (neighbour?_eq_some_iff.mp he)
    simp only [move, hlast, boundary_of_neighbour?_eq_none hlast]

/-! ## 5. The searches find the nearest tag -/

/-- The instructions of the program with their numbers, from place `i` on. -/
theorem drop_zipIdx {p : Program} {i : Nat} (h : i < p.length) :
    ∃ ins, p.get? i = some ins ∧
      p.instructions.zipIdx.drop i = (ins, i) :: p.instructions.zipIdx.drop (i + 1) := by
  have hi : i < p.instructions.zipIdx.length := by rwa [List.length_zipIdx]
  refine ⟨p.instructions[i], List.getElem?_eq_getElem h, ?_⟩
  rw [List.drop_eq_getElem_cons hi, List.getElem_zipIdx, Nat.zero_add]
  rfl

theorem scanForward_eq_find (p : Program) (id : UInt8) (i : Nat) :
    scanForward p id i =
      ((p.instructions.zipIdx.drop i).find? fun entry => entry.1 == .tag id).map
        fun entry => entry.2 := by
  fun_induction scanForward p id i with
  | case1 i hlt htag =>
    obtain ⟨ins, hins, hdrop⟩ := drop_zipIdx hlt
    cases hins.symm.trans htag
    rw [hdrop, List.find?_cons_of_pos (by simp), Option.map_some]
  | case2 i hlt htag ih =>
    obtain ⟨ins, hins, hdrop⟩ := drop_zipIdx hlt
    have hne : ins ≠ .tag id := by
      rintro rfl
      exact htag hins
    rw [hdrop, List.find?_cons_of_neg (by simpa using hne), ih]
  | case3 i hge =>
    rw [List.drop_eq_nil_of_le (by rw [List.length_zipIdx]; exact Nat.le_of_not_lt hge)]
    rfl

/-- **The search forward** finds the nearest tag after a place. -/
theorem scanForward_eq (p : Program) (id : UInt8) (here : Nat) :
    scanForward p id (here + 1) = p.findTag here id .forward :=
  scanForward_eq_find p id (here + 1)

/-- **The search backward** finds the nearest tag before a place. -/
theorem scanBackward_eq (p : Program) (id : UInt8) (here : Nat) :
    scanBackward p id here = p.findTag here id .backward := by
  simp only [Program.findTag, Program.onSide]
  induction here with
  | zero => rfl
  | succ i ih =>
    rw [scanBackward, ih]
    cases hi : p.get? i with
    | none =>
      have hle : p.instructions.zipIdx.length ≤ i := by
        rw [List.length_zipIdx]
        exact List.getElem?_eq_none_iff.mp hi
      rw [if_neg (by simp), List.take_of_length_le hle, List.take_of_length_le (by omega)]
    | some ins =>
      have htake : p.instructions.zipIdx.take (i + 1) =
          p.instructions.zipIdx.take i ++ [(ins, i)] := by
        have hzip : p.instructions.zipIdx[i]? = some (ins, i) := by
          rw [List.getElem?_zipIdx, show p.instructions[i]? = some ins from hi]
          simp
        rw [List.take_add_one, hzip, Option.toList_some]
      rw [htake, List.reverse_append, List.reverse_singleton, List.singleton_append]
      by_cases heq : ins = .tag id
      · rw [heq, if_pos rfl, List.find?_cons_of_pos (by simp), Option.map_some]
      · rw [if_neg (by simpa using heq), List.find?_cons_of_neg (by simpa using heq)]

end Reference

end OneBit
