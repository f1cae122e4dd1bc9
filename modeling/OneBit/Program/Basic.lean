/-
# Programs and the search for tags

A program is a list of instructions; its first instruction is number 0.

Control moves by SEARCH: an instruction that goes to a tag names an ID and a side, and the
nearest tag with that ID on that side is meant.  Nearest is strict: the place where the search
starts is on neither side.  A search may start anywhere, also beyond the end of the program,
which then lies before it as a whole.
-/
import OneBit.Instruction.Basic

namespace OneBit

/-- A list of instructions. -/
structure Program where
  instructions : List Instruction
deriving DecidableEq, Repr

/-- The side on which a tag is searched. -/
inductive Search
  | forward
  | backward
deriving DecidableEq, Repr

namespace Program

/-- How many instructions the program has. -/
def length (p : Program) : Nat := p.instructions.length

/-- Does the program have no instruction? -/
def isEmpty (p : Program) : Bool := p.instructions.isEmpty

/-- Instruction number `i`. -/
def get? (p : Program) (i : Nat) : Option Instruction := p.instructions[i]?

/-- The instructions on one side of `start` with their numbers, the nearest first. -/
def onSide (p : Program) (start : Nat) : Search → List (Instruction × Nat)
  | .forward => p.instructions.zipIdx.drop (start + 1)
  | .backward => (p.instructions.zipIdx.take start).reverse

/-- The number of the nearest tag with an ID on one side of `start`. -/
def findTag (p : Program) (start : Nat) (id : UInt8) (side : Search) : Option Nat :=
  ((p.onSide start side).find? fun entry => entry.1 == .tag id).map fun entry => entry.2

/-- What a search looks at is an instruction of the program, under its own number. -/
theorem get?_of_mem_onSide {p : Program} {start : Nat} {side : Search}
    {i : Instruction} {k : Nat} (h : (i, k) ∈ p.onSide start side) : p.get? k = some i := by
  have hmem : (i, k) ∈ p.instructions.zipIdx := by
    cases side with
    | forward => exact List.mem_of_mem_drop h
    | backward => exact List.mem_of_mem_take (List.mem_reverse.mp h)
  exact List.mk_mem_zipIdx_iff_getElem?.mp hmem

/-- **A search that succeeds has found a tag with the ID.** -/
theorem get?_of_findTag {p : Program} {start : Nat} {id : UInt8} {side : Search} {k : Nat}
    (h : p.findTag start id side = some k) : p.get? k = some (.tag id) := by
  unfold findTag at h
  obtain ⟨⟨i, n⟩, hfind, rfl⟩ := Option.map_eq_some_iff.mp h
  have htag : i = .tag id := by simpa using List.find?_some hfind
  rw [← htag]
  exact get?_of_mem_onSide (List.mem_of_find?_eq_some hfind)

/-- A tag that was found lies in the program. -/
theorem lt_of_findTag {p : Program} {start : Nat} {id : UInt8} {side : Search} {k : Nat}
    (h : p.findTag start id side = some k) : k < p.length :=
  (List.getElem?_eq_some_iff.mp (get?_of_findTag h)).1

end Program

end OneBit
