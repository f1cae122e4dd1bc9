/-
# The two axes

Exchange columns and rows everywhere: in the grid, in the pointer, and in the operations that move
it, so that right becomes up and left becomes down.  Then nothing else changes: the machine takes
the same way through the program, and what it does to the field is mirrored along the diagonal
(`history_transpose`).  So the two axes have equal rights.  Each is bounded by the same two edges,
and home lies on the diagonal.

Like the complement this is a symmetry, and `perform_transpose` is what has to be shown.  All
operations but the moves work at the pointer, wherever that is, so they need no other one as their
mirror image.
-/
import OneBit.Proofs.Machine.Symmetry

namespace OneBit

/-! ## 1. Cells and steps -/

/-- The cell on the other side of the diagonal. -/
def Cell.swap (c : Cell) : Cell := ⟨c.y, c.x⟩

@[simp] theorem Cell.swap_swap (c : Cell) : c.swap.swap = c := rfl

theorem Cell.swap_inj {c d : Cell} : c.swap = d.swap ↔ c = d := by
  constructor
  · intro h
    rw [← c.swap_swap, h, d.swap_swap]
  · rintro rfl
    rfl

/-- The side that lies across the diagonal. -/
def Direction.swap : Direction → Direction
  | right => .up
  | left => .down
  | up => .right
  | down => .left

/-- The step across the diagonal has its target across the diagonal, on the field or not. -/
theorem Cell.target_swap (c : Cell) (d : Direction) : c.swap.target d.swap = (c.target d).swap := by
  cases d <;> rfl

/-- The end of a step, across the diagonal. -/
def Move.swap : Move → Move
  | moved c => .moved c.swap
  | clamped c => .clamped c.swap

/-! ## 2. Fields -/

namespace Grid

/-- The grid whose bits are given cell by cell.  All that is known of it is `get_ofBits`. -/
@[irreducible]
def ofBits (bit : Cell → Bool) : Grid := Cell.all.foldl (fun g c => g.set c (bit c)) .empty

/-- Writes into several cells are seen at these cells, whatever their order is. -/
theorem get_foldl_set (bit : Cell → Bool) (cs : List Cell) (g : Grid) (d : Cell) :
    (cs.foldl (fun g c => g.set c (bit c)) g).get d = if d ∈ cs then bit d else g.get d := by
  induction cs generalizing g with
  | nil => simp
  | cons c cs ih =>
    rw [List.foldl_cons, ih, get_set]
    by_cases hcs : d ∈ cs
    · rw [if_pos hcs, if_pos (List.mem_cons_of_mem c hcs)]
    · by_cases hc : d = c
      · subst hc
        rw [if_neg hcs, if_pos rfl, if_pos List.mem_cons_self]
      · rw [if_neg hcs, if_neg hc, if_neg (by simp [hc, hcs])]

@[simp] theorem get_ofBits (bit : Cell → Bool) (c : Cell) : (ofBits bit).get c = bit c := by
  unfold ofBits
  exact (get_foldl_set bit Cell.all empty c).trans (if_pos (Cell.mem_all c))

/-- The grid with columns and rows exchanged. -/
def transpose (g : Grid) : Grid := ofBits fun c => g.get c.swap

@[simp] theorem get_transpose (g : Grid) (c : Cell) : g.transpose.get c = g.get c.swap := by
  rw [transpose, get_ofBits]

theorem set_transpose (g : Grid) (c : Cell) (v : Bool) :
    g.transpose.set c.swap v = (g.set c v).transpose := by
  refine ext_get ?_
  intro d
  have hd : d = c.swap ↔ d.swap = c := by rw [← Cell.swap_inj, Cell.swap_swap]
  simp only [get_set, get_transpose, hd]

end Grid

namespace Field

/-- The field mirrored along the diagonal. -/
def transpose (f : Field) : Field := ⟨f.grid.transpose, f.flag, f.pointer.swap⟩

@[simp] theorem data_transpose (f : Field) : f.transpose.data = f.data := by
  simp only [data, transpose, Grid.get_transpose, Cell.swap_swap]

@[simp] theorem flag_transpose (f : Field) : f.transpose.flag = f.flag := rfl

theorem setData_transpose (f : Field) (v : Bool) :
    f.transpose.setData v = (f.setData v).transpose := by
  simp only [setData, transpose, Grid.set_transpose]

theorem setFlag_transpose (f : Field) (v : Bool) :
    f.transpose.setFlag v = (f.setFlag v).transpose := rfl

theorem goHome_transpose (f : Field) : f.transpose.goHome = f.goHome.transpose := rfl

theorem exchange_transpose (f : Field) : f.transpose.exchange = f.exchange.transpose := by
  simp only [exchange, data_transpose, flag_transpose, setData_transpose, setFlag_transpose]

/-- **A step across the diagonal** ends at the edge exactly if the step does. -/
theorem tryStep_transpose (f : Field) (d : Direction) :
    f.transpose.tryStep d.swap = ((f.tryStep d).1.swap, (f.tryStep d).2.transpose) := by
  have htarget : f.transpose.pointer.target d.swap = (f.pointer.target d).swap :=
    f.pointer.target_swap d
  simp only [tryStep, htarget, Prod.fst_swap, Prod.snd_swap]
  -- The two coordinates of the target change places, and both have to be on the field.
  rw [Bool.and_comm]
  refine Prod.ext ?_ rfl
  split
  · rfl
  · rfl

end Field

/-! ## 3. Programs -/

theorem Guard.holds_transpose (g : Guard) (f : Field) : g.holds f.transpose = g.holds f := by
  cases g with
  | always => rfl
  | data v => simp only [holds, Field.data_transpose]
  | flag v => rfl

/-- The operation that moves the pointer across the diagonal. -/
def Operation.transpose : Operation → Operation
  | move d => .move d.swap
  | op => op

/-- **Every operation agrees with the exchange of the axes.** -/
theorem Operation.perform_transpose (op : Operation) (f : Field) (here : Nat) :
    op.transpose.perform f.transpose here =
      ((op.perform f here).1, (op.perform f here).2.transpose) := by
  cases op with
  | move d =>
    simp only [transpose, perform, Field.tryStep_transpose]
    rcases f.tryStep d with ⟨moved | clamped, g⟩ <;> rfl
  | home => exact Prod.ext rfl f.goHome_transpose
  | halt => rfl
  | skip => rfl
  | exchange => exact Prod.ext rfl f.exchange_transpose
  | loadData => exact Prod.ext rfl (f.setData_transpose f.flag)
  | complementData =>
    simp only [transpose, perform, Field.data_transpose, Field.setData_transpose]
  | setData v => exact Prod.ext rfl (f.setData_transpose v)
  | loadFlag =>
    simp only [transpose, perform, Field.data_transpose, Field.setFlag_transpose]
  | complementFlag => rfl
  | setFlag v => rfl

/-! ## 4. Machines -/

/-- The exchange of the axes.  It leaves the IDs and the guards alone. -/
def transposition : Symmetry where
  tagId := id
  guard := id
  operation := Operation.transpose
  field := Field.transpose
  tagId_inj := Function.injective_id
  holds_guard := Guard.holds_transpose
  perform_operation := Operation.perform_transpose

namespace Machine

/-- **The exchange of the axes is seen in the cells only.**  Let the moves of a program go right
where they went up and left where they went down, and the other way round, and let the field be
mirrored along the diagonal.  Then all calls return the same statuses, and after each of them the
counter, the number of ticks and the flag are the same, and the pointer and the bits of all cells
are found across the diagonal. -/
theorem history_transpose (m : Machine) (cs : List Call) :
    List.Forall₂
      (fun a b =>
        b.1 = a.1 ∧ b.2.counter = a.2.counter ∧ b.2.ticks = a.2.ticks ∧
          b.2.field.flag = a.2.field.flag ∧ b.2.field.pointer = a.2.field.pointer.swap ∧
          ∀ x y, b.2.field.grid.get ⟨x, y⟩ = a.2.field.grid.get ⟨y, x⟩)
      (m.history cs) ((transposition.machine m).history cs) := by
  rw [transposition.history_machine, List.forall₂_map_right_iff, List.forall₂_same]
  intro r _
  refine ⟨rfl, rfl, rfl, rfl, rfl, ?_⟩
  intro x y
  exact Grid.get_transpose _ _

end Machine

end OneBit
