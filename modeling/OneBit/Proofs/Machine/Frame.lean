/-
# The frame of a tick

A tick does little to the field.  It leaves the field as it is, or it carries out one operation
(`field_tick_cases`), and an operation does one of three things: it writes the bit under the
pointer, it writes the flag, or it moves the pointer.  Only an exchange does the first two together,
and then the set bits and the flag together stay as many as they were.

`tick_frame` puts this down for every machine and every tick, whatever it ends with.  A run visits
no more cells than it makes ticks, and so it changes no more.
-/
import OneBit.Proofs.Field.Cells
import OneBit.Proofs.Machine.Retry
import OneBit.Proofs.Machine.Visits

namespace OneBit

/-! ## 1. Operations -/

namespace Operation

variable {f : Field} {here : Nat}

/-- **An operation that takes the pointer elsewhere** takes it home or to a neighbour of its cell,
and does nothing else. -/
theorem pointer_perform {op : Operation} (h : (op.perform f here).2.pointer ≠ f.pointer) :
    (op.perform f here).2.grid = f.grid ∧ (op.perform f here).2.flag = f.flag ∧
      ((op.perform f here).2.pointer = .home ∨
        f.pointer.Adjacent (op.perform f here).2.pointer) := by
  cases op with
  | move d =>
    rcases ht : f.tryStep d with ⟨c | c, g⟩
    · obtain ⟨hadjacent, rfl⟩ := Field.adjacent_of_moved ht
      simp only [perform, ht]
      exact ⟨rfl, rfl, .inr hadjacent⟩
    · obtain ⟨-, rfl⟩ := Field.tryStep_of_clamped ht
      simp only [perform, ht] at h
      exact absurd rfl h
  | home => exact ⟨rfl, rfl, .inl rfl⟩
  | _ => exact absurd rfl h

/-- **Only an exchange** writes both the bit under the pointer and the flag. -/
theorem eq_exchange_of_perform {op : Operation}
    (hdata : (op.perform f here).2.grid.get f.pointer ≠ f.data)
    (hflag : (op.perform f here).2.flag ≠ f.flag) : op = .exchange := by
  cases op with
  | exchange => rfl
  | move d =>
    rw [field_perform_move] at hflag
    exact absurd rfl hflag
  | loadFlag => exact absurd rfl hdata
  | complementFlag => exact absurd rfl hdata
  | setFlag v => exact absurd rfl hdata
  | _ => exact absurd rfl hflag

end Operation

/-- An instruction that leaves this field as it is: it works with tags, its guard does not hold, or
its operation is for the control only. -/
inductive Instruction.Idle (f : Field) : Instruction → Prop
  | tag (id : UInt8) : Idle f (.tag id)
  | advance (id : UInt8) : Idle f (.advance id)
  | retreat (id : UInt8) : Idle f (.retreat id)
  | guard {guard : Guard} (operation : Operation) (h : guard.holds f = false) :
    Idle f (.guarded guard operation)
  | halt (guard : Guard) : Idle f (.guarded guard .halt)
  | skip (guard : Guard) : Idle f (.guarded guard .skip)

namespace Machine

/-! ## 2. Ticks -/

variable {m : Machine}

/-- **A tick leaves the field alone or carries out one operation**, whose guard holds. -/
theorem field_tick_cases (m : Machine) :
    m.tick.2.field = m.field ∨
      ∃ here guard op, m.instruction? = some (.guarded guard op) ∧
        guard.holds m.field = true ∧ m.tick.2.field = (op.perform m.field here).2 := by
  cases hhere : m.here? with
  | none => exact .inl (by rw [tick_of_here?_none hhere])
  | some here =>
    obtain ⟨i, hi, ht⟩ := tick_of_here?_some hhere
    rw [ht]
    cases i with
    | guarded guard op =>
      by_cases hg : guard.holds m.field = true
      · refine .inr ⟨here, guard, op, ?_, hg, ?_⟩
        · rw [instruction?, hhere, Option.bind_some, hi]
        · simp only [Program.execute, if_pos hg]
      · exact .inl (by simp only [Program.execute, if_neg hg])
    | _ => exact .inl rfl

/-- An idle instruction leaves the field as it is. -/
theorem field_tick_of_idle {i : Instruction} (hi : m.instruction? = some i)
    (hidle : i.Idle m.field) : m.tick.2.field = m.field := by
  rcases m.field_tick_cases with hsame | ⟨here, guard, op, hop, hg, hfield⟩
  · exact hsame
  · rw [hi, Option.some.injEq] at hop
    subst hop
    cases hidle with
    | guard _ hnot =>
      rw [hnot] at hg
      cases hg
    | halt => exact hfield
    | skip => exact hfield

/-- A tick that raises a fault leaves the field as it is. -/
theorem field_tick_of_fault {k : Fault} (h : m.tick.1 = .fault k) : m.tick.2.field = m.field := by
  rcases fault_cases h with ⟨-, -, ht⟩ | ⟨_, _, -, -, -, -, ht⟩
  · rw [ht]
  · rw [ht]

/-! ## 3. Runs -/

/-- A run visits at most as many cells as it may make ticks. -/
theorem length_visits_le (n : Nat) (m : Machine) : (visits n m).length ≤ n := by
  fun_induction visits n m with
  | case1 m => exact Nat.le_refl 0
  | case2 n m hhere => exact Nat.zero_le _
  | case3 n m hhere hok ih => exact Nat.succ_le_succ ih
  | case4 n m hhere hstop => exact Nat.succ_le_succ (Nat.zero_le n)

/-- **The frame of a tick.**  Every tick, whatever it ends with, keeps the program, and every cell
but the one under the pointer.  If it takes the pointer elsewhere, then it goes home or to a
neighbour, and neither a bit nor the flag changes.  The whole field stays if the instruction works
with tags, if its guard does not hold, if it halts or skips, and if the tick raises a fault.  If the
bit under the pointer and the flag both change, then they were exchanged, and the set bits and the
flag together are as many as before.  A step does the same to field and program.  So a run with
limit `n` changes at most `n` cells. -/
theorem tick_frame (m : Machine) :
    m.tick.2.program = m.program ∧
    (∀ c, c ≠ m.field.pointer → m.tick.2.field.grid.get c = m.field.grid.get c) ∧
    (m.tick.2.field.pointer ≠ m.field.pointer →
      m.tick.2.field.grid = m.field.grid ∧ m.tick.2.field.flag = m.field.flag ∧
        (m.tick.2.field.pointer = .home ∨ m.field.pointer.Adjacent m.tick.2.field.pointer)) ∧
    (∀ i, m.instruction? = some i → i.Idle m.field → m.tick.2.field = m.field) ∧
    (∀ k, m.tick.1 = .fault k → m.tick.2.field = m.field) ∧
    (m.tick.2.field.grid.get m.field.pointer ≠ m.field.data →
      m.tick.2.field.flag ≠ m.field.flag →
        (∃ guard, m.instruction? = some (.guarded guard .exchange)) ∧
          m.tick.2.field.grid.count + m.tick.2.field.flag.toNat =
            m.field.grid.count + m.field.flag.toNat) ∧
    (m.step.2.field = m.tick.2.field ∧ m.step.2.program = m.tick.2.program) ∧
    ∀ n, (m.runLimited n).2.field.grid.distance m.field.grid ≤ n := by
  refine ⟨m.program_tick, fun c => get_tick_of_ne, ?_, fun i => field_tick_of_idle,
    fun k => field_tick_of_fault, ?_, ?_, fun n => ?_⟩
  · intro hpointer
    rcases m.field_tick_cases with hsame | ⟨here, guard, op, -, -, hfield⟩
    · exact absurd (congrArg Field.pointer hsame) hpointer
    · rw [hfield] at hpointer ⊢
      exact Operation.pointer_perform hpointer
  · intro hdata hflag
    rcases m.field_tick_cases with hsame | ⟨here, guard, op, hop, -, hfield⟩
    · exact absurd (congrArg Field.flag hsame) hflag
    · rw [hfield] at hdata hflag ⊢
      obtain rfl := Operation.eq_exchange_of_perform hdata hflag
      exact ⟨⟨guard, hop⟩, m.field.count_exchange⟩
  · rw [step_eq]
    exact ⟨rfl, rfl⟩
  · have hchanged : (runFor n m).2.field.grid.distance m.field.grid ≤ (visits n m).length :=
      Grid.distance_le_length fun c hc => get_runFor_of_notMem hc
    exact hchanged.trans (length_visits_le n m)

end Machine

end OneBit
