/-
# What one tick can do

An instruction either does its work and goes on to the next place, or it is one of five special
cases: it skips, it halts, it jumps to a tag, it finds no tag, or it is a move that the edge of
the field stops.  `Effect` lists the six with all that is known of control and field in each of
them, and `execute_effect` says that there is no other.  Every later statement about ticks
starts from this list and does not open `execute` again.
-/
import OneBit.Machine.Tick

namespace OneBit

/-- The search that an instruction makes for a tag. -/
def Instruction.search? : Instruction → Option (UInt8 × Search)
  | advance id => some (id, .forward)
  | retreat id => some (id, .backward)
  | _ => none

/-- A move leaves the field that the pointer's step leaves, whether it is stopped or not. -/
theorem Operation.field_perform_move (d : Direction) (f : Field) (here : Nat) :
    ((Operation.move d).perform f here).2 = (f.tryStep d).2 := by
  simp only [Operation.perform]
  split <;> rename_i h <;> rw [h]

namespace Program

/-- What the instruction `i` at `here` can come to on the field `f`: where it sends control, and
the field after it. -/
inductive Effect (p : Program) (here : Nat) (f : Field) (i : Instruction) :
    Control → Field → Prop
  | next (g : Field) : Effect p here f i (.goto (here + 1)) g
  | skip (hop : i.operation? = some .skip) : Effect p here f i (.goto (here + 2)) f
  | halt (hop : i.operation? = some .halt) : Effect p here f i (.pause (here + 1)) f
  | jump {id : UInt8} {side : Search} {place : Nat} (hsearch : i.search? = some (id, side))
      (hfound : p.findTag here id side = some place) : Effect p here f i (.goto place) f
  | noTag {id : UInt8} {side : Search} (hsearch : i.search? = some (id, side))
      (hnone : p.findTag here id side = none) : Effect p here f i (.fault .tagNotFound) f
  | edge {d : Direction} (hop : i.operation? = some (.move d)) :
      Effect p here f i (.fault .pointerOutOfRange) f

/-- An operation that is carried out has one of the effects. -/
theorem perform_effect {p : Program} {here : Nat} {f : Field} {i : Instruction} {op : Operation}
    (hop : i.operation? = some op) :
    p.Effect here f i (op.perform f here).1 (op.perform f here).2 := by
  cases op with
  | move d =>
    rcases ht : f.tryStep d with ⟨moved | clamped, g⟩
    · simp only [Operation.perform, ht]
      exact .next g
    · simp only [Operation.perform, ht, (Field.tryStep_of_clamped ht).2]
      exact .edge hop
  | halt => exact .halt hop
  | skip => exact .skip hop
  | _ => exact .next _

/-- A search has one of the effects. -/
theorem seek_effect {p : Program} {here : Nat} {f : Field} {i : Instruction} {id : UInt8}
    {side : Search} (hsearch : i.search? = some (id, side)) :
    p.Effect here f i (p.seek here id side) f := by
  unfold seek
  split
  · rename_i hfound
    exact .jump hsearch hfound
  · rename_i hnone
    exact .noTag hsearch hnone

/-- An instruction that makes a search does nothing else. -/
theorem execute_of_search {p : Program} {here : Nat} {f : Field} {i : Instruction} {id : UInt8}
    {side : Search} (hsearch : i.search? = some (id, side)) :
    p.execute here f i = (p.seek here id side, f) := by
  cases i with
  | advance id' =>
    cases hsearch
    rfl
  | retreat id' =>
    cases hsearch
    rfl
  | tag id' => cases hsearch
  | guarded guard op => cases hsearch

/-- **There is no other effect.** -/
theorem execute_effect (p : Program) (here : Nat) (f : Field) (i : Instruction) :
    p.Effect here f i (p.execute here f i).1 (p.execute here f i).2 := by
  cases i with
  | tag id => exact .next f
  | advance id => exact seek_effect rfl
  | retreat id => exact seek_effect rfl
  | guarded guard op =>
    by_cases hg : guard.holds f
    · simp only [execute, if_pos hg]
      exact perform_effect rfl
    · simp only [execute, if_neg hg]
      exact .next f

end Program

namespace Machine

/-- The instruction that the next tick carries out, if there is one. -/
def instruction? (m : Machine) : Option Instruction := m.here?.bind m.program.get?

/-- A tick carries out the instruction that stands at the next place. -/
theorem tick_of_get? {m : Machine} {here : Nat} {i : Instruction} (hhere : m.here? = some here)
    (hi : m.program.get? here = some i) :
    m.tick =
      (((m.program.execute here m.field i).1.settle m.program.length here).1,
        { m with
          field := (m.program.execute here m.field i).2
          counter := some ((m.program.execute here m.field i).1.settle m.program.length here).2
          ticks := m.ticks + 1 }) := by
  obtain ⟨i', hi', ht⟩ := tick_of_here?_some hhere
  cases hi.symm.trans hi'
  exact ht

/-- **A tick either finds no program, or carries out the instruction at `here?`.** -/
theorem tick_cases (m : Machine) :
    (m.here? = none ∧ m.tick = (.fault .noProgramLoaded, m)) ∨
      ∃ here i control field, m.here? = some here ∧ m.program.get? here = some i ∧
        m.program.Effect here m.field i control field ∧
        m.tick = ((control.settle m.program.length here).1,
          { m with
            field := field
            counter := some (control.settle m.program.length here).2
            ticks := m.ticks + 1 }) := by
  cases hhere : m.here? with
  | none => exact .inl ⟨rfl, tick_of_here?_none hhere⟩
  | some here =>
    obtain ⟨i, hi, ht⟩ := tick_of_here?_some hhere
    exact .inr ⟨here, i, _, _, rfl, hi, Program.execute_effect _ _ _ _, ht⟩

end Machine

end OneBit
