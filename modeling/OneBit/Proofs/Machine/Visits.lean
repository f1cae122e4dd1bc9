/-
# What a run sees of the grid

Of the 256 cells an instruction sees one, the cell under the pointer, and it writes no other.  So a
run sees and touches only the cells that it VISITS, where the pointer stands at the start of one of
its ticks.  It leaves all others as they are (`get_runFor_of_notMem`), and it does the same on every
grid that agrees with the first one at the visited cells (`AgreeOn.runFor`).

Which cells are visited may depend on what was read before, and need not be known in advance: the
second run visits the same cells as the first, since up to each tick the two have seen the same.
-/
import OneBit.Proofs.Machine.Session

namespace OneBit

variable {V : Cell → Prop}

/-! ## 1. Operations -/

namespace Field

/-- The two fields differ at most in cells outside `V`. -/
structure AgreeOn (V : Cell → Prop) (f g : Field) : Prop where
  flag : f.flag = g.flag
  pointer : f.pointer = g.pointer
  cells : ∀ c, V c → f.grid.get c = g.grid.get c

namespace AgreeOn

variable {f g : Field}

theorem data (h : f.AgreeOn V g) (hV : V f.pointer) : f.data = g.data := by
  rw [Field.data, h.cells _ hV, h.pointer, Field.data]

/-- A write leaves the same bit on both sides, whatever was there before. -/
theorem setData (h : f.AgreeOn V g) (v : Bool) : (f.setData v).AgreeOn V (g.setData v) where
  flag := h.flag
  pointer := h.pointer
  cells := by
    intro c hc
    simp only [Field.setData, Grid.get_set, h.pointer, h.cells c hc]

theorem setFlag (h : f.AgreeOn V g) (v : Bool) : (f.setFlag v).AgreeOn V (g.setFlag v) :=
  ⟨rfl, h.pointer, h.cells⟩

theorem setPointer (h : f.AgreeOn V g) (c : Cell) : (f.setPointer c).AgreeOn V (g.setPointer c) :=
  ⟨h.flag, rfl, h.cells⟩

/-- A step needs the pointer only. -/
theorem tryStep (h : f.AgreeOn V g) (d : Direction) :
    (f.tryStep d).1 = (g.tryStep d).1 ∧ (f.tryStep d).2.AgreeOn V (g.tryStep d).2 := by
  simp only [Field.tryStep, h.pointer]
  exact ⟨trivial, h.setPointer _⟩

end AgreeOn

end Field

namespace Operation

/-- An operation writes no cell but the one under the pointer. -/
theorem get_perform_of_ne {f : Field} {c : Cell} (hc : c ≠ f.pointer) (op : Operation)
    (here : Nat) : (op.perform f here).2.grid.get c = f.grid.get c := by
  have hset : ∀ v, (f.setData v).grid.get c = f.grid.get c := by
    intro v
    exact Grid.get_set_of_ne _ v hc
  cases op with
  | move d =>
    rw [field_perform_move]
    rfl
  | exchange => exact hset f.flag
  | loadData => exact hset f.flag
  | complementData => exact hset (!f.data)
  | setData v => exact hset v
  | _ => rfl

/-- **An operation reads no cell but the one under the pointer.** -/
theorem perform_agreeOn {f g : Field} (h : f.AgreeOn V g) (hV : V f.pointer) (op : Operation)
    (here : Nat) :
    (op.perform f here).1 = (op.perform g here).1 ∧
      (op.perform f here).2.AgreeOn V (op.perform g here).2 := by
  cases op with
  | move d =>
    obtain ⟨hmove, hfield⟩ := h.tryStep d
    rcases hf : f.tryStep d with ⟨move, f'⟩
    rcases hg : g.tryStep d with ⟨move', g'⟩
    rw [hf, hg] at hmove hfield
    cases hmove
    cases move with
    | moved c =>
      simp only [perform, hf, hg]
      exact ⟨trivial, hfield⟩
    | clamped c =>
      simp only [perform, hf, hg]
      exact ⟨trivial, hfield⟩
  | home => exact ⟨rfl, h.setPointer .home⟩
  | halt => exact ⟨rfl, h⟩
  | skip => exact ⟨rfl, h⟩
  | exchange =>
    simp only [perform, Field.exchange, h.data hV, h.flag]
    exact ⟨trivial, (h.setData _).setFlag _⟩
  | loadData =>
    simp only [perform, h.flag]
    exact ⟨trivial, h.setData _⟩
  | complementData =>
    simp only [perform, h.data hV]
    exact ⟨trivial, h.setData _⟩
  | setData v => exact ⟨rfl, h.setData v⟩
  | loadFlag =>
    simp only [perform, h.data hV]
    exact ⟨trivial, h.setFlag _⟩
  | complementFlag =>
    simp only [perform, h.flag]
    exact ⟨trivial, h.setFlag _⟩
  | setFlag v => exact ⟨rfl, h.setFlag v⟩

end Operation

/-! ## 2. Instructions and ticks -/

theorem Guard.holds_agreeOn {f g : Field} (h : f.AgreeOn V g) (hV : V f.pointer) (guard : Guard) :
    guard.holds f = guard.holds g := by
  cases guard with
  | always => rfl
  | data v => simp only [holds, h.data hV]
  | flag v => simp only [holds, h.flag]

namespace Program

/-- An instruction writes no cell but the one under the pointer. -/
theorem get_execute_of_ne (p : Program) (here : Nat) {f : Field} {c : Cell} (hc : c ≠ f.pointer)
    (i : Instruction) :
    (p.execute here f i).2.grid.get c = f.grid.get c := by
  cases i with
  | guarded guard op =>
    by_cases hg : guard.holds f
    · simp only [execute, if_pos hg]
      exact op.get_perform_of_ne hc here
    · simp only [execute, if_neg hg]
  | _ => rfl

/-- **An instruction goes the same way** on fields that agree under the pointer, and leaves them
alike. -/
theorem execute_agreeOn (p : Program) (here : Nat) {f g : Field} (h : f.AgreeOn V g)
    (hV : V f.pointer) (i : Instruction) :
    (p.execute here f i).1 = (p.execute here g i).1 ∧
      (p.execute here f i).2.AgreeOn V (p.execute here g i).2 := by
  cases i with
  | guarded guard op =>
    simp only [execute, guard.holds_agreeOn h hV]
    by_cases hg : guard.holds g
    · simp only [if_pos hg]
      exact op.perform_agreeOn h hV here
    · simp only [if_neg hg]
      exact ⟨trivial, h⟩
  | _ => exact ⟨rfl, h⟩

end Program

namespace Machine

/-- The two machines differ at most in cells outside `V`, and in the kept status. -/
structure AgreeOn (V : Cell → Prop) (m m' : Machine) : Prop where
  field : m.field.AgreeOn V m'.field
  program : m.program = m'.program
  counter : m.counter = m'.counter
  ticks : m.ticks = m'.ticks

/-- A tick leaves all cells but the one under the pointer as they are. -/
theorem get_tick_of_ne {m : Machine} {c : Cell} (hc : c ≠ m.field.pointer) :
    m.tick.2.field.grid.get c = m.field.grid.get c := by
  cases hhere : m.here? with
  | none => rw [tick_of_here?_none hhere]
  | some here =>
    obtain ⟨i, -, ht⟩ := tick_of_here?_some hhere
    rw [ht]
    exact m.program.get_execute_of_ne here hc i

/-- Such machines have the same next place. -/
theorem AgreeOn.here?_eq {m m' : Machine} (h : AgreeOn V m m') : m'.here? = m.here? :=
  (here?_congr h.program h.counter).symm

/-- **A tick does the same** to machines that agree under the pointer. -/
theorem AgreeOn.tick {m m' : Machine} (h : AgreeOn V m m')
    (hV : m.here? ≠ none → V m.field.pointer) : Agree (AgreeOn V) m.tick m'.tick := by
  cases hhere : m.here? with
  | none =>
    rw [tick_of_here?_none hhere, tick_of_here?_none (h.here?_eq.trans hhere)]
    exact ⟨rfl, h⟩
  | some here =>
    obtain ⟨i, hi, ht⟩ := tick_of_here?_some hhere
    have ht' := tick_of_get? (h.here?_eq.trans hhere) (h.program ▸ hi)
    rw [← h.program] at ht'
    obtain ⟨hcontrol, hfield⟩ :=
      m.program.execute_agreeOn here h.field (hV (by simp [hhere])) i
    rw [ht, ht', ← hcontrol]
    exact ⟨rfl, hfield, rfl, rfl, by rw [h.ticks]⟩

/-! ## 3. Runs -/

/-- The cells that a run with limit `n` visits, one for each tick that it makes: the places of the
pointer when the tick starts. -/
def visits : Nat → Machine → List Cell
  | 0, _ => []
  | n + 1, m =>
    if m.here? = none then []
    else if m.tick.1 = .ok then m.field.pointer :: visits n m.tick.2
    else [m.field.pointer]

/-- A tick that has an instruction to carry out is counted. -/
theorem ticks_tick_of_here? {m : Machine} (h : m.here? ≠ none) :
    m.tick.2.ticks = m.ticks + 1 := by
  rcases tick_cases m with ⟨hnone, -⟩ | ⟨_, _, _, _, -, -, -, ht⟩
  · exact absurd hnone h
  · rw [ht]

/-- Without an instruction a run ends at once. -/
theorem runFor_succ_of_here?_none {m : Machine} (h : m.here? = none) (n : Nat) :
    runFor (n + 1) m = (.fault .noProgramLoaded, m) := by
  rw [runFor_succ_of_stop (by simp [tick_of_here?_none h]), tick_of_here?_none h]

/-- As many cells are visited as ticks are counted. -/
theorem ticks_runFor (n : Nat) (m : Machine) :
    (runFor n m).2.ticks = m.ticks + (visits n m).length := by
  fun_induction visits n m with
  | case1 m => rfl
  | case2 n m hhere =>
    rw [runFor_succ_of_here?_none hhere]
    rfl
  | case3 n m hhere hok ih =>
    rw [runFor_succ_of_tick_ok hok, ih, ticks_tick_of_here? hhere, List.length_cons]
    omega
  | case4 n m hhere hstop =>
    rw [runFor_succ_of_stop hstop, ticks_tick_of_here? hhere]
    rfl

/-- **A run leaves the cells alone that it does not visit.** -/
theorem get_runFor_of_notMem {n : Nat} {m : Machine} {c : Cell} (hc : c ∉ visits n m) :
    (runFor n m).2.field.grid.get c = m.field.grid.get c := by
  fun_induction visits n m with
  | case1 m => rfl
  | case2 n m hhere => rw [runFor_succ_of_here?_none hhere]
  | case3 n m hhere hok ih =>
    rw [List.mem_cons, not_or] at hc
    rw [runFor_succ_of_tick_ok hok, ih hc.2, get_tick_of_ne hc.1]
  | case4 n m hhere hstop =>
    rw [List.mem_singleton] at hc
    rw [runFor_succ_of_stop hstop, get_tick_of_ne hc]

/-- **Runs of machines that agree at the visited cells** end alike, and visit the same cells. -/
theorem AgreeOn.runFor {n : Nat} {m m' : Machine} (h : AgreeOn V m m')
    (hV : ∀ c ∈ visits n m, V c) :
    Agree (AgreeOn V) (runFor n m) (runFor n m') ∧ visits n m' = visits n m := by
  fun_induction visits n m generalizing m' with
  | case1 m => exact ⟨⟨rfl, h⟩, rfl⟩
  | case2 n m hhere =>
    have hhere' : m'.here? = none := h.here?_eq.trans hhere
    rw [runFor_succ_of_here?_none hhere, runFor_succ_of_here?_none hhere', visits, if_pos hhere']
    exact ⟨⟨rfl, h⟩, rfl⟩
  | case3 n m hhere hok ih =>
    have hhere' : m'.here? ≠ none := h.here?_eq ▸ hhere
    obtain ⟨hstatus, hnext⟩ := h.tick fun _ => hV _ List.mem_cons_self
    have hok' : m'.tick.1 = .ok := hstatus ▸ hok
    obtain ⟨hrun, hvisits⟩ := ih hnext fun c hc => hV c (List.mem_cons_of_mem _ hc)
    rw [runFor_succ_of_tick_ok hok, runFor_succ_of_tick_ok hok', visits, if_neg hhere', if_pos hok',
      hvisits, h.field.pointer]
    exact ⟨hrun, rfl⟩
  | case4 n m hhere hstop =>
    have hhere' : m'.here? ≠ none := h.here?_eq ▸ hhere
    have htick := h.tick fun _ => hV _ List.mem_cons_self
    have hstop' : m'.tick.1 ≠ .ok := htick.1 ▸ hstop
    rw [runFor_succ_of_stop hstop, runFor_succ_of_stop hstop', visits, if_neg hhere', if_neg hstop',
      h.field.pointer]
    exact ⟨htick, rfl⟩

/-- **A run sees and touches only the cells that it visits.**  Let another field have the same flag
and the same pointer, and the same bits in all cells that a run with a limit visits.  Then the run
of the machine with this field has the same status, and leaves the same counter, flag and pointer,
the same number of ticks, and the same bits in the visited cells.  All other cells have after each
of the two runs the bits that they had before. -/
theorem runLimited_agree_of_visits {m : Machine} {n : Nat} {g : Field}
    (hflag : g.flag = m.field.flag) (hpointer : g.pointer = m.field.pointer)
    (hcells : ∀ c ∈ visits n m, g.grid.get c = m.field.grid.get c) :
    ((m.withField g).runLimited n).1 = (m.runLimited n).1 ∧
      ((m.withField g).runLimited n).2.counter = (m.runLimited n).2.counter ∧
      ((m.withField g).runLimited n).2.field.flag = (m.runLimited n).2.field.flag ∧
      ((m.withField g).runLimited n).2.field.pointer = (m.runLimited n).2.field.pointer ∧
      ((m.withField g).runLimited n).2.ticks = (m.runLimited n).2.ticks ∧
      (m.runLimited n).2.ticks = m.ticks + (visits n m).length ∧
      (∀ c ∈ visits n m, ((m.withField g).runLimited n).2.field.grid.get c =
        (m.runLimited n).2.field.grid.get c) ∧
      ∀ c ∉ visits n m, (m.runLimited n).2.field.grid.get c = m.field.grid.get c ∧
        ((m.withField g).runLimited n).2.field.grid.get c = g.grid.get c := by
  have hstart : AgreeOn (· ∈ visits n m) m (m.withField g) :=
    ⟨⟨hflag.symm, hpointer.symm, fun c hc => (hcells c hc).symm⟩, rfl, rfl, rfl⟩
  obtain ⟨⟨hstatus, hend⟩, hvisits⟩ := hstart.runFor fun _ hc => hc
  refine ⟨hstatus.symm, hend.counter.symm, hend.field.flag.symm, hend.field.pointer.symm,
    hend.ticks.symm, ticks_runFor n m, ?_, ?_⟩
  · intro c hc
    exact (hend.field.cells c hc).symm
  · intro c hc
    refine ⟨get_runFor_of_notMem hc, ?_⟩
    rw [← hvisits] at hc
    exact get_runFor_of_notMem hc

/-- A machine that goes to the right as far as the first bit that is set, and sets the bits on its
way.  It will find one in column 2. -/
def seeking : Machine :=
  (new.install ⟨[.tag 0, .guarded (.data true) .halt, .guarded .always .complementData,
    .guarded .always (.move .right), .retreat 0]⟩).withField (Field.cleared.after (.setBit 2 0 true))

/-- Its field with another bit set behind the one that it finds. -/
def seekingFurther : Field := seeking.field.after (.setBit 3 0 true)

/-- The machine does not come to the other bit, and leaves it set. -/
theorem runLimited_agree_of_seeking :
    (∀ c ∈ visits 20 seeking, seekingFurther.grid.get c = seeking.field.grid.get c) ∧
      ((seeking.withField seekingFurther).runLimited 20).1 = .halted ∧
      ((seeking.withField seekingFurther).runLimited 20).2.field.pointer = ⟨2, 0⟩ ∧
      ((seeking.withField seekingFurther).runLimited 20).2.field.grid.get ⟨1, 0⟩ = true ∧
      ((seeking.withField seekingFurther).runLimited 20).2.field.grid.get ⟨3, 0⟩ = true := by
  have hcells : ∀ c ∈ visits 20 seeking, seekingFurther.grid.get c = seeking.field.grid.get c := by
    decide
  have hmem : (⟨1, 0⟩ : Cell) ∈ visits 20 seeking := by decide
  have hnot : (⟨3, 0⟩ : Cell) ∉ visits 20 seeking := by decide
  obtain ⟨hstatus, -, -, hpointer, -, -, hvisited, hothers⟩ :=
    runLimited_agree_of_visits (n := 20) (g := seekingFurther) rfl rfl hcells
  refine ⟨hcells, hstatus, hpointer, ?_, ?_⟩
  · rw [hvisited _ hmem]
    decide
  · rw [(hothers _ hnot).2]
    decide

end Machine

end OneBit
