/-
# The machine refines the reference machine

The two tell one tick in different ways.  The machine knows of every instruction the place where
control goes, and settles counter and status from it; the reference machine moves an integer
counter in two stages, and learns of the end of the program last.  What an instruction comes to
is the same all the same: the reference machine is then pending one place before the place where
control goes (`dispatch_eq`), and its epilogue settles as the machine does (`epilogue_pending`).

So the two are in lockstep (`reference_lockstep`), and `history_view` follows: for all programs,
fields and sequences of calls they return the same statuses and show the same counter and field.

A reference machine that looks for the end by equality only misses it when the counter has
jumped over it.  That takes a skip in the last instruction (`SkipsOut`), and without one it
agrees as well.
-/
import OneBit.Proofs.Machine.Halting
import OneBit.Proofs.Machine.Reference

namespace OneBit

/-! ## 1. One instruction -/

/-- What is pending in the reference machine where the machine has this control. -/
def Control.pending (here : Nat) (f : Field) : Control → Reference.Pending
  | goto place => ⟨.ok, place - 1, f⟩
  | pause place => ⟨.halted, place - 1, f⟩
  | fault k => ⟨.fault k, here, f⟩

/-- Up to the end of the program, both tests see the end where it is. -/
theorem EndTest.ite_past {α : Type} {test : EndTest} {length counter : Nat}
    (h : test = .exact → counter ≤ length) (a b : α) :
    (if test.past length counter then a else b) = if counter < length then b else a := by
  have hpast : test.past length counter = true ↔ ¬ counter < length := by
    cases test with
    | reached => simp [EndTest.past]
    | exact =>
      have hle := h rfl
      simp only [EndTest.past, beq_iff_eq, Nat.cast_inj]
      omega
  by_cases hlt : counter < length
  · rw [if_neg fun htest => hpast.mp htest hlt, if_pos hlt]
  · rw [if_pos (hpast.mpr hlt), if_neg hlt]

namespace Control

/-- Control that goes on to the next place leaves the reference machine where it is. -/
theorem pending_goto_succ (here : Nat) (f : Field) :
    (goto (here + 1)).pending here f = ⟨.ok, here, f⟩ := by
  simp only [pending, Nat.cast_add, Nat.cast_one, add_sub_cancel_right]

theorem pending_pause_succ (here : Nat) (f : Field) :
    (pause (here + 1)).pending here f = ⟨.halted, here, f⟩ := by
  simp only [pending, Nat.cast_add, Nat.cast_one, add_sub_cancel_right]

/-- A skip goes one place further. -/
theorem pending_goto_skip (here : Nat) (f : Field) :
    (goto (here + 2)).pending here f = ⟨.ok, here + 1, f⟩ := by
  simp only [pending, Reference.Pending.mk.injEq, true_and, and_true]
  omega

end Control

namespace Reference

theorem operate_eq (f : Field) (here : Nat) (op : Operation) :
    operate f here op = (op.perform f here).1.pending here (op.perform f here).2 := by
  cases op with
  | move d =>
    rw [operate, move_eq, Operation.perform]
    rcases f.tryStep d with ⟨moved | clamped, g⟩
    · exact (Control.pending_goto_succ here g).symm
    · rfl
  | halt => exact (Control.pending_pause_succ here f).symm
  | skip => exact (Control.pending_goto_skip here f).symm
  | _ => exact (Control.pending_goto_succ here _).symm

theorem jump_eq (p : Program) (f : Field) (here : Nat) (id : UInt8) (side : Search) :
    jump f here (p.findTag here id side) = (p.seek here id side).pending here f := by
  unfold Program.seek
  cases p.findTag here id side with
  | some k => rfl
  | none => rfl

/-- **An instruction comes to the same** in both machines. -/
theorem dispatch_eq (p : Program) (here : Nat) (f : Field) (i : Instruction) :
    dispatch p here f i = (p.execute here f i).1.pending here (p.execute here f i).2 := by
  cases i with
  | tag id => exact (Control.pending_goto_succ here f).symm
  | advance id =>
    simp only [dispatch, Int.toNat_natCast, scanForward_eq]
    exact jump_eq p f here id .forward
  | retreat id =>
    simp only [dispatch, Int.toNat_natCast, scanBackward_eq]
    exact jump_eq p f here id .backward
  | guarded guard op =>
    by_cases hg : guard.holds f
    · simp only [dispatch, passes_eq_holds, Program.execute, if_pos hg]
      exact operate_eq f here op
    · simp only [dispatch, passes_eq_holds, Program.execute, if_neg hg, Control.pending_goto_succ]

/-- **The epilogue settles what is pending.** -/
theorem epilogue_pending {test : EndTest} {length here : Nat} {control : Control} (f : Field)
    (hlt : here < length) (h : test = .exact → (control.settle length here).2 ≤ length) :
    epilogue test length (control.pending here f) =
      ((control.settle length here).1, ((control.settle length here).2 : Int)) := by
  cases control with
  | goto place =>
    simp only [Control.settle] at h ⊢
    simp only [epilogue, Control.pending, true_or, if_true, sub_add_cancel, EndTest.ite_past h]
  | pause place =>
    simp only [Control.settle] at h ⊢
    simp only [epilogue, Control.pending, or_true, if_true, sub_add_cancel, EndTest.ite_past h]
  | fault k =>
    -- The instruction that failed is in the program, so its place is not past the end.
    have hle : test = .exact → here ≤ length := fun _ => Nat.le_of_lt hlt
    simp only [epilogue, Control.pending, reduceCtorEq, or_self, if_false, EndTest.ite_past hle,
      if_pos hlt, Control.settle]

end Reference

/-! ## 2. One tick -/

namespace Machine

/-- The next tick makes a skip in the last instruction. -/
def SkipsOut (m : Machine) : Prop :=
  ∃ here guard, m.here? = some here ∧ here + 1 = m.program.length ∧
    m.program.get? here = some (.guarded guard .skip) ∧ guard.holds m.field = true

/-- Only such a tick takes the counter behind the end. -/
theorem counter_le_of_not_skipsOut {m : Machine} {here : Nat} {i : Instruction}
    (h : ¬ m.SkipsOut) (hhere : m.here? = some here) (hi : m.program.get? here = some i) :
    ((m.program.execute here m.field i).1.settle m.program.length here).2 ≤
      m.program.length := by
  have heff := m.program.execute_effect here m.field i
  rcases heff.counter_le (lt_of_here? hhere) with hle | ⟨hcounter, hlast, hskip⟩
  · exact hle
  · cases i with
    | guarded guard op =>
      cases hskip
      by_cases hg : guard.holds m.field
      · exact absurd ⟨here, guard, hhere, hlast, hi, hg⟩ h
      · simp only [Program.execute, if_neg hg, Control.settle]
        omega
    | tag id => exact absurd hskip (by simp [Instruction.operation?])
    | advance id => exact absurd hskip (by simp [Instruction.operation?])
    | retreat id => exact absurd hskip (by simp [Instruction.operation?])

/-- The reference machine stands where the machine stands. -/
structure Matches (test : EndTest) (m : Machine) (r : Reference) : Prop where
  field : m.field = r.field
  program : m.program = r.program
  counter : m.counterNumber = r.counter
  counter_none_iff : m.counter = none ↔ m.program.isEmpty = true
  /-- The equality test needs a counter that has not jumped over the end. -/
  counter_le : test = .exact → ∀ c, m.counter = some c → c ≤ m.program.length

namespace Matches

variable {test : EndTest} {m : Machine} {r : Reference}

/-- A reference machine that starts with the program of a machine matches it. -/
theorem start (test : EndTest) (m : Machine) (p : Program) :
    (m.install p).Matches test (Reference.start m.field p) := by
  cases hp : p.isEmpty with
  | true => constructor <;> simp [install, Reference.start, counterNumber, hp]
  | false => constructor <;> simp [install, Reference.start, counterNumber, hp]

/-- Without a counter both find no program. -/
theorem tick_of_none (h : m.Matches test r) (hnone : m.counter = none) :
    m.tick = (.fault .noProgramLoaded, m) ∧ r.tick test = (.fault .noProgramLoaded, r) := by
  have hhere : m.here? = none := by simp only [here?, hnone]
  have hcounter : r.counter = -1 := by rw [← h.counter, counterNumber, hnone]
  exact ⟨tick_of_here?_none hhere, by rw [Reference.tick, if_pos hcounter]⟩

/-- With a counter both go to the same place. -/
theorem here_of_some (h : m.Matches test r) {c : Nat} (hc : m.counter = some c) :
    ∃ here : Nat, m.here? = some here ∧ r.counter ≠ -1 ∧
      (if test.past r.program.length r.counter then 0 else r.counter) = (here : Int) := by
  have hcounter : r.counter = (c : Int) := by rw [← h.counter, counterNumber, hc]
  refine ⟨_, here?_of_counter h.counter_none_iff hc, by omega, ?_⟩
  rw [← h.program, hcounter, EndTest.ite_past fun htest => h.counter_le htest c hc]
  split <;> rfl

/-- **Matching machines end a tick with the same status**, and match again. -/
theorem tick (h : m.Matches test r) (hskip : test = .exact → ¬ m.SkipsOut) :
    Agree (Matches test) m.tick (r.tick test) := by
  cases hc : m.counter with
  | none =>
    obtain ⟨hm, hr⟩ := h.tick_of_none hc
    rw [hm, hr]
    exact ⟨rfl, h⟩
  | some c =>
    obtain ⟨here, hhere, hne, hgo⟩ := h.here_of_some hc
    obtain ⟨i, hi, ht⟩ := tick_of_here?_some hhere
    have hlt := lt_of_here? hhere
    have hle : test = .exact →
        ((m.program.execute here m.field i).1.settle m.program.length here).2 ≤
          m.program.length := fun htest =>
      counter_le_of_not_skipsOut (hskip htest) hhere hi
    have hr : r.tick test =
        (((m.program.execute here m.field i).1.settle m.program.length here).1,
          { r with
            field := (m.program.execute here m.field i).2
            counter := ((m.program.execute here m.field i).1.settle m.program.length here).2 }) := by
      have hfetch : Reference.fetch r.program (here : Int) = some i := by
        rw [← h.program]
        exact hi
      simp only [Reference.tick, if_neg hne, hgo, hfetch]
      rw [← h.program, ← h.field, Reference.dispatch_eq, Reference.epilogue_pending _ hlt hle]
      cases (m.program.execute here m.field i).1 <;> rfl
    rw [ht, hr]
    refine ⟨rfl, rfl, h.program, rfl, ?_, ?_⟩
    · simp only [reduceCtorEq, false_iff, Program.isEmpty_iff]
      omega
    · intro htest c' hc'
      cases hc'
      exact hle htest

end Matches

/-- **The machine and the reference machine are in lockstep.** -/
theorem reference_lockstep (test : EndTest) :
    Lockstep system (Reference.system test) (fun m => test = .exact → ¬ m.SkipsOut)
      (Matches test) where
  tick _ _ h hskip := h.tick hskip
  keep _ _ _ h := ⟨h.field, h.program, h.counter, h.counter_none_iff, h.counter_le⟩

/-! ## 3. Sequences of calls -/

/-- What a caller sees of an answer of the machine. -/
def view (a : Status × Machine) : Status × Int × Field := (a.1, a.2.counterNumber, a.2.field)

end Machine

/-- What a caller sees of an answer of the reference machine. -/
def Reference.view (a : Status × Reference) : Status × Int × Field :=
  (a.1, a.2.counter, a.2.field)

namespace Machine

/-- Answers that agree look the same. -/
theorem view_eq {test : EndTest} {a : Status × Machine} {b : Status × Reference}
    (h : Agree (Matches test) a b) : view a = Reference.view b := by
  obtain ⟨hstatus, hstate⟩ := h
  rw [view, Reference.view, hstatus, hstate.counter, hstate.field]

/-- What a caller sees of matching machines is the same, as long as the calls make no tick at
which the tests for the end differ. -/
theorem Matches.history_view {test : EndTest} {m : Machine} {r : Reference}
    (h : m.Matches test r) {cs : List Call}
    (hskip : ∀ last, system.TicksAt m cs last → test = .exact → ¬ last.SkipsOut) :
    (m.history cs).map view = (r.history test cs).map Reference.view := by
  rw [history_eq_answers, Reference.history, ← List.forall₂_eq_eq_eq,
    List.forall₂_map_left_iff, List.forall₂_map_right_iff]
  exact ((reference_lockstep test).answers h hskip).imp fun _ _ hab => view_eq hab

/-- **The machine does what its written description says.**  After a program was installed, let
a host make any calls.  The machine and the reference machine, which sees the end where the
counter is at it or behind it, return the same statuses, and show the same counter, grid, flag
and pointer after every call; a run ends on both or on neither.  A reference machine that looks
for the end by equality does so as well, if no tick of these calls makes a skip in the last
instruction. -/
theorem refines_reference (m : Machine) (p : Program) (cs : List Call) :
    ((m.install p).history cs).map view =
        ((Reference.start m.field p).history .reached cs).map Reference.view ∧
      ((∀ last, system.TicksAt (m.install p) cs last → ¬ last.SkipsOut) →
        ((m.install p).history cs).map view =
          ((Reference.start m.field p).history .exact cs).map Reference.view) := by
  refine ⟨?_, fun hskip => ?_⟩
  · refine (Matches.start .reached m p).history_view fun last _ htest => ?_
    exact absurd htest (by decide)
  · exact (Matches.start .exact m p).history_view fun last hlast _ => hskip last hlast

/-- The condition is needed: after a skip in the last instruction the equality test sees no end. -/
example :
    ((new.install ⟨[.guarded .always .skip]⟩).history [.step]).map view ≠
      ((Reference.start new.field ⟨[.guarded .always .skip]⟩).history .exact [.step]).map
        Reference.view := by
  decide

end Machine

end OneBit
