/-
# The complement

Exchange 0 and 1 everywhere: in all cells and in the flag, in the guards that ask for a bit, and in
the operations that write one.  Then nothing else changes: the machine takes the same way through
the program and over the field, and every bit it leaves is the opposite (`history_complement`).
So the two values of a bit have equal rights; no instruction prefers one of them.

The complement is a symmetry, and what has to be shown is that each operation agrees with it
(`perform_complement`).  Only four operations have another one as their complement; all others
read, copy, swap or negate bits, or do not touch them.
-/
import OneBit.Proofs.Machine.Symmetry

namespace OneBit

/-! ## 1. Fields -/

/-- The grid with every bit negated. -/
def Grid.complement (g : Grid) : Grid := ⟨~~~g.bits⟩

@[simp] theorem Grid.get_complement (g : Grid) (c : Cell) : g.complement.get c = !g.get c := by
  simp [complement, get]

theorem Grid.set_complement (g : Grid) (c : Cell) (v : Bool) :
    g.complement.set c (!v) = (g.set c v).complement := by
  refine ext_get fun d => ?_
  rw [get_set, get_complement, get_complement, get_set]
  split <;> rfl

namespace Field

/-- The field with every bit of the grid and the flag negated. -/
def complement (f : Field) : Field := ⟨f.grid.complement, !f.flag, f.pointer⟩

@[simp] theorem data_complement (f : Field) : f.complement.data = !f.data :=
  Grid.get_complement _ _

@[simp] theorem flag_complement (f : Field) : f.complement.flag = !f.flag := rfl

theorem setData_complement (f : Field) (v : Bool) :
    f.complement.setData (!v) = (f.setData v).complement := by
  simp only [setData, complement, Grid.set_complement]

theorem setFlag_complement (f : Field) (v : Bool) :
    f.complement.setFlag (!v) = (f.setFlag v).complement := rfl

theorem exchange_complement (f : Field) : f.complement.exchange = f.exchange.complement := by
  simp only [exchange, data_complement, flag_complement, setData_complement, setFlag_complement]

theorem tryStep_complement (f : Field) (d : Direction) :
    f.complement.tryStep d = ((f.tryStep d).1, (f.tryStep d).2.complement) := rfl

end Field

/-! ## 2. Programs -/

/-- The guard that asks for the opposite bit. -/
def Guard.complement : Guard → Guard
  | always => .always
  | data v => .data (!v)
  | flag v => .flag (!v)

theorem Guard.holds_complement (g : Guard) (f : Field) :
    g.complement.holds f.complement = g.holds f := by
  cases g with
  | always => rfl
  | data v => simp [complement, holds]
  | flag v => simp [complement, holds]

/-- The operation that writes the opposite bit. -/
def Operation.complement : Operation → Operation
  | setData v => .setData (!v)
  | setFlag v => .setFlag (!v)
  | op => op

/-- **Every operation agrees with the complement.** -/
theorem Operation.perform_complement (op : Operation) (f : Field) (here : Nat) :
    op.complement.perform f.complement here =
      ((op.perform f here).1, (op.perform f here).2.complement) := by
  cases op with
  | move d =>
    simp only [complement, perform, Field.tryStep_complement]
    rcases f.tryStep d with ⟨moved | clamped, g⟩ <;> rfl
  | home => rfl
  | halt => rfl
  | skip => rfl
  | exchange => exact Prod.ext rfl f.exchange_complement
  | loadData => exact Prod.ext rfl (f.setData_complement f.flag)
  | complementData =>
    simp only [complement, perform, Field.data_complement, Field.setData_complement]
  | setData v => exact Prod.ext rfl (f.setData_complement v)
  | loadFlag =>
    simp only [complement, perform, Field.data_complement, Field.setFlag_complement]
  | complementFlag => rfl
  | setFlag v => rfl

/-! ## 3. Machines -/

/-- The exchange of 0 and 1.  It leaves the IDs alone. -/
def complement : Symmetry where
  tagId := id
  guard := Guard.complement
  operation := Operation.complement
  field := Field.complement
  tagId_inj := Function.injective_id
  holds_guard := Guard.holds_complement
  perform_operation := Operation.perform_complement

namespace Machine

/-- **The exchange of 0 and 1 is seen in the bits only.**  Let the guards and the writes of a
program ask for and write the opposite bits, and let all bits of the field be negated.  Then all
calls return the same statuses, and after each of them the counter, the number of ticks and the
pointer are the same, and the flag and all cells hold the opposite bits. -/
theorem history_complement (m : Machine) (cs : List Call) :
    List.Forall₂
      (fun a b =>
        b.1 = a.1 ∧ b.2.counter = a.2.counter ∧ b.2.ticks = a.2.ticks ∧
          b.2.field.pointer = a.2.field.pointer ∧ b.2.field.flag = !a.2.field.flag ∧
          ∀ c, b.2.field.grid.get c = !a.2.field.grid.get c)
      (m.history cs) ((complement.machine m).history cs) := by
  rw [complement.history_machine, List.forall₂_map_right_iff, List.forall₂_same]
  intro r _
  exact ⟨rfl, rfl, rfl, rfl, rfl, fun c => Grid.get_complement _ c⟩

end Machine

end OneBit
