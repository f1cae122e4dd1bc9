/-
# One tick

A tick carries out one instruction.  What the instruction does to the field and where it sends
control are worked out together by `execute`; `Control.settle` then makes a status and a new
counter of the second.

* Control that goes to a place in the program goes on there.  A place at or behind the end
  means that the program has come to its end, also if the instruction asked for a halt.
* A fault leaves the counter at the instruction that failed.
-/
import OneBit.Machine.Basic

namespace OneBit

/-- Where an instruction sends control. -/
inductive Control
  /-- On to a place. -/
  | goto (place : Nat)
  /-- To a place, after a halt. -/
  | pause (place : Nat)
  /-- Nowhere. -/
  | fault (fault : Fault)
deriving DecidableEq, Repr

/-- The status and the counter after the instruction at `here`, in a program with `length`
instructions. -/
def Control.settle (length here : Nat) : Control → Status × Nat
  | goto place => (if place < length then .ok else .terminated, place)
  | pause place => (if place < length then .halted else .terminated, place)
  | fault f => (.fault f, here)

/-- Carry out an operation in the instruction at `here`. -/
def Operation.perform (f : Field) (here : Nat) : Operation → Control × Field
  | move d =>
    match f.tryStep d with
    | (.moved _, g) => (.goto (here + 1), g)
    | (.clamped _, g) => (.fault .pointerOutOfRange, g)
  | home => (.goto (here + 1), f.goHome)
  | halt => (.pause (here + 1), f)
  | skip => (.goto (here + 2), f)
  | exchange => (.goto (here + 1), f.exchange)
  | loadData => (.goto (here + 1), f.setData f.flag)
  | complementData => (.goto (here + 1), f.setData !f.data)
  | setData v => (.goto (here + 1), f.setData v)
  | loadFlag => (.goto (here + 1), f.setFlag f.data)
  | complementFlag => (.goto (here + 1), f.setFlag !f.flag)
  | setFlag v => (.goto (here + 1), f.setFlag v)

/-- Send control to the nearest tag with an ID on one side of `here`. -/
def Program.seek (p : Program) (here : Nat) (id : UInt8) (side : Search) : Control :=
  match p.findTag here id side with
  | some place => .goto place
  | none => .fault .tagNotFound

/-- Carry out the instruction at `here`. -/
def Program.execute (p : Program) (here : Nat) (f : Field) : Instruction → Control × Field
  | .tag _ => (.goto (here + 1), f)
  | .advance id => (p.seek here id .forward, f)
  | .retreat id => (p.seek here id .backward, f)
  | .guarded guard op => if guard.holds f then op.perform f here else (.goto (here + 1), f)

namespace Machine

/-- Carry out the next instruction. -/
def tick (m : Machine) : Status × Machine :=
  match m.here? with
  | none => (.fault .noProgramLoaded, m)
  | some here =>
    match m.program.get? here with
    | none => (.fault .undefinedOpcode, m)
    | some instruction =>
      let (control, field) := m.program.execute here m.field instruction
      let (status, counter) := control.settle m.program.length here
      (status, { m with field, counter := some counter, ticks := m.ticks + 1 })

/-- Without a program there is nothing to do. -/
theorem tick_of_here?_none {m : Machine} (h : m.here? = none) :
    m.tick = (.fault .noProgramLoaded, m) := by
  simp [tick, h]

/-- **The next place always has an instruction**, and a tick carries it out. -/
theorem tick_of_here?_some {m : Machine} {n : Nat} (h : m.here? = some n) :
    ∃ i, m.program.get? n = some i ∧
      m.tick =
        (((m.program.execute n m.field i).1.settle m.program.length n).1,
          { m with
            field := (m.program.execute n m.field i).2
            counter := some ((m.program.execute n m.field i).1.settle m.program.length n).2
            ticks := m.ticks + 1 }) := by
  have hlt := lt_of_here? h
  have hget : m.program.get? n = some (m.program.instructions.get ⟨n, hlt⟩) :=
    List.getElem?_eq_getElem hlt
  refine ⟨m.program.instructions.get ⟨n, hlt⟩, hget, ?_⟩
  simp only [tick, h, hget]

/-- A tick keeps the program. -/
theorem program_tick (m : Machine) : m.tick.2.program = m.program := by
  unfold tick
  split
  · rfl
  · split <;> rfl

end Machine

end OneBit
