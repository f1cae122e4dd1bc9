/-
# Symmetries of the machine

A SYMMETRY renames the IDs, the guards and the operations of a program and makes another field of
each field, in such a way that the machine cannot tell: a renamed guard holds on the new field
when the old one holds on the old field, and a renamed operation sends control to the same place
and leaves the new field of what the old one leaves.  IDs that differ must stay different.

That is all it takes.  A search in the renamed program finds the same place (`findTag_program`),
since it only asks which IDs are equal.  So a tick of the renamed machine ends with the same
status, in the renamed machine of what a tick leaves (`tick_machine`), and the same holds of all
calls (`history_machine`).
-/
import OneBit.Proofs.Machine.Session
import OneBit.Proofs.Program.Nearest

namespace OneBit

/-- A renaming of programs and fields that the machine does not notice. -/
structure Symmetry where
  tagId : UInt8 → UInt8
  guard : Guard → Guard
  operation : Operation → Operation
  field : Field → Field
  tagId_inj : Function.Injective tagId
  holds_guard : ∀ g f, (guard g).holds (field f) = g.holds f
  perform_operation : ∀ op f here,
    (operation op).perform (field f) here =
      ((op.perform f here).1, field (op.perform f here).2)

namespace Symmetry

variable (σ : Symmetry)

/-! ## 1. Programs -/

/-- The instruction with new names. -/
def instruction : Instruction → Instruction
  | .tag id => .tag (σ.tagId id)
  | .advance id => .advance (σ.tagId id)
  | .retreat id => .retreat (σ.tagId id)
  | .guarded guard op => .guarded (σ.guard guard) (σ.operation op)

/-- The program with new names. -/
def program (p : Program) : Program := ⟨p.instructions.map σ.instruction⟩

@[simp] theorem length_program (p : Program) : (σ.program p).length = p.length :=
  List.length_map _

@[simp] theorem isEmpty_program (p : Program) : (σ.program p).isEmpty = p.isEmpty :=
  List.isEmpty_map

theorem get?_program (p : Program) (i : Nat) :
    (σ.program p).get? i = (p.get? i).map σ.instruction :=
  List.getElem?_map

/-- Tags, and only tags, become tags, and IDs that differ stay different. -/
theorem instruction_eq_tag_iff {i : Instruction} {id : UInt8} :
    σ.instruction i = .tag (σ.tagId id) ↔ i = .tag id := by
  cases i with
  | tag id' => simp [instruction, σ.tagId_inj.eq_iff]
  | _ => simp [instruction]

/-- **A search with the new names finds the same place.** -/
theorem findTag_program (p : Program) (start : Nat) (id : UInt8) (side : Search) :
    (σ.program p).findTag start (σ.tagId id) side = p.findTag start id side := by
  refine Program.findTag_congr ?_ start side
  intro k
  rw [get?_program, Option.map_eq_some_iff]
  constructor
  · rintro ⟨i, hi, heq⟩
    rw [hi, σ.instruction_eq_tag_iff.mp heq]
  · intro hi
    exact ⟨_, hi, rfl⟩

theorem seek_program (p : Program) (here : Nat) (id : UInt8) (side : Search) :
    (σ.program p).seek here (σ.tagId id) side = p.seek here id side := by
  simp only [Program.seek, findTag_program]

/-- **An instruction with new names does to the new field what the old one does to the old field**,
and sends control to the same place. -/
theorem execute_program (p : Program) (here : Nat) (f : Field) (i : Instruction) :
    (σ.program p).execute here (σ.field f) (σ.instruction i) =
      ((p.execute here f i).1, σ.field (p.execute here f i).2) := by
  cases i with
  | tag id => rfl
  | advance id => exact Prod.ext (σ.seek_program p here id .forward) rfl
  | retreat id => exact Prod.ext (σ.seek_program p here id .backward) rfl
  | guarded guard op =>
    simp only [instruction, Program.execute, σ.holds_guard]
    by_cases hg : guard.holds f
    · rw [if_pos hg, if_pos hg, σ.perform_operation]
    · rw [if_neg hg, if_neg hg]

/-! ## 2. Machines -/

/-- The machine with new names and a new field. -/
def machine (m : Machine) : Machine :=
  { m with field := σ.field m.field, program := σ.program m.program }

theorem here?_machine (m : Machine) : (σ.machine m).here? = m.here? := by
  simp only [Machine.here?, machine, isEmpty_program, length_program]

/-- **A tick does not notice the new names.** -/
theorem tick_machine (m : Machine) :
    (σ.machine m).tick = (m.tick.1, σ.machine m.tick.2) := by
  cases hhere : m.here? with
  | none =>
    have hhere' : (σ.machine m).here? = none := (σ.here?_machine m).trans hhere
    rw [Machine.tick_of_here?_none hhere, Machine.tick_of_here?_none hhere']
  | some n =>
    obtain ⟨i, hi, ht⟩ := Machine.tick_of_here?_some hhere
    have hi' : (σ.machine m).program.get? n = some (σ.instruction i) := by
      rw [machine, get?_program, hi, Option.map_some]
    rw [ht, Machine.tick_of_get? ((σ.here?_machine m).trans hhere) hi']
    simp only [machine, execute_program, length_program]

/-- The machine and the renamed one are in lockstep. -/
theorem lockstep :
    Lockstep Machine.system Machine.system (fun _ => True) fun m m' => m' = σ.machine m where
  tick m m' h _ := by
    subst h
    have ht := σ.tick_machine m
    exact ⟨(congrArg Prod.fst ht).symm, congrArg Prod.snd ht⟩
  keep status m m' h := by
    subst h
    rfl

/-- **Calls do not notice the new names.** -/
theorem history_machine (m : Machine) (cs : List Call) :
    (σ.machine m).history cs = (m.history cs).map fun r => (r.1, σ.machine r.2) := by
  rw [eq_comm, ← List.forall₂_eq_eq_eq, List.forall₂_map_left_iff]
  refine (Machine.history_of_lockstep σ.lockstep rfl cs).imp ?_
  rintro a b ⟨hstatus, hmachine⟩
  exact Prod.ext hstatus hmachine.symm

end Symmetry

end OneBit
