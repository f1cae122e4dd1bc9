/-
# What a program does not let out

Let a part of the field be SECRET, the flag or the grid.  A program tells the secret if it asks for
it in a guard, or if it copies it into another part of the field; a program that does neither is
BLIND to it (`Program.isBlind`).  Then nothing of the secret comes out: on fields that differ in it
only, all calls return the same statuses, and leave the same counter, the same number of ticks and
the same rest of the field (`history_of_isBlind`).  The program may still write the secret, and may
compute the new secret from the old one.

The reason is one statement for each kind of instruction (`execute_agreeBut`): from fields that
differ in the secret only, a blind instruction sends control to the same place, and leaves fields
that differ in the secret only.
-/
import OneBit.Proofs.Machine.Session

namespace OneBit

/-- A part of the field that is to be kept secret. -/
inductive Secret
  | flag
  | grid
deriving DecidableEq

/-! ## 1. Blind programs -/

/-- Does the guard ask for the secret? -/
def Guard.asks : Secret → Guard → Bool
  | .flag, flag _ => true
  | .grid, data _ => true
  | _, _ => false

/-- Does the operation copy the secret into another part of the field? -/
def Operation.tells : Secret → Operation → Bool
  | _, exchange => true
  | .flag, loadData => true
  | .grid, loadFlag => true
  | _, _ => false

/-- The instruction neither asks for the secret nor copies it. -/
def Instruction.isBlind (s : Secret) : Instruction → Bool
  | guarded guard op => !guard.asks s && !op.tells s
  | _ => true

/-- No instruction asks for the secret or copies it. -/
def Program.isBlind (s : Secret) (p : Program) : Bool := p.instructions.all fun i => i.isBlind s

theorem Program.isBlind_of_get? {s : Secret} {p : Program} (h : p.isBlind s = true) {n : Nat}
    {i : Instruction} (hi : p.get? n = some i) : i.isBlind s = true :=
  List.all_eq_true.mp h i (List.mem_of_getElem? hi)

/-! ## 2. Fields that differ in the secret only -/

namespace Field

/-- The two fields differ at most in the secret. -/
structure AgreeBut (s : Secret) (f g : Field) : Prop where
  flag : s ≠ .flag → f.flag = g.flag
  grid : s ≠ .grid → f.grid = g.grid
  pointer : f.pointer = g.pointer

namespace AgreeBut

variable {s : Secret} {f g : Field}

theorem data (h : f.AgreeBut s g) (hs : s ≠ .grid) : f.data = g.data := by
  rw [Field.data, h.grid hs, h.pointer, Field.data]

/-- Different bits may be written where the grid is the secret. -/
theorem setData (h : f.AgreeBut s g) {v w : Bool} (hvw : s ≠ .grid → v = w) :
    (f.setData v).AgreeBut s (g.setData w) where
  flag := h.flag
  grid := by
    intro hs
    simp only [Field.setData, h.grid hs, h.pointer, hvw hs]
  pointer := h.pointer

theorem setFlag (h : f.AgreeBut s g) {v w : Bool} (hvw : s ≠ .flag → v = w) :
    (f.setFlag v).AgreeBut s (g.setFlag w) :=
  ⟨hvw, h.grid, h.pointer⟩

theorem setPointer (h : f.AgreeBut s g) (c : Cell) :
    (f.setPointer c).AgreeBut s (g.setPointer c) :=
  ⟨h.flag, h.grid, rfl⟩

/-- A step depends on the pointer only, which is never the secret. -/
theorem tryStep (h : f.AgreeBut s g) (d : Direction) :
    (f.tryStep d).1 = (g.tryStep d).1 ∧ (f.tryStep d).2.AgreeBut s (g.tryStep d).2 := by
  simp only [Field.tryStep, h.pointer]
  exact ⟨trivial, h.setPointer _⟩

end AgreeBut

end Field

/-! ## 3. One instruction -/

section Instruction

variable {s : Secret} {f g : Field}

theorem Guard.holds_agreeBut (h : f.AgreeBut s g) {guard : Guard} (hblind : guard.asks s = false) :
    guard.holds f = guard.holds g := by
  cases guard with
  | always => rfl
  | data v =>
    have hs : s ≠ .grid := by
      rintro rfl
      exact absurd hblind (by simp [asks])
    simp only [holds, h.data hs]
  | flag v =>
    have hs : s ≠ .flag := by
      rintro rfl
      exact absurd hblind (by simp [asks])
    simp only [holds, h.flag hs]

/-- **An operation that does not copy the secret** does the same to the rest of the field. -/
theorem Operation.perform_agreeBut (h : f.AgreeBut s g) {op : Operation}
    (hblind : op.tells s = false) (here : Nat) :
    (op.perform f here).1 = (op.perform g here).1 ∧
      (op.perform f here).2.AgreeBut s (op.perform g here).2 := by
  cases op with
  | move d =>
    obtain ⟨hmove, hfield⟩ := h.tryStep d
    rcases hf : f.tryStep d with ⟨move, f'⟩
    rcases hg : g.tryStep d with ⟨move', g'⟩
    rw [hf, hg] at hmove hfield
    cases hmove
    cases move with
    | moved c =>
      simp only [perform, hf, hg]
      exact ⟨trivial, hfield⟩
    | clamped c =>
      simp only [perform, hf, hg]
      exact ⟨trivial, hfield⟩
  | home => exact ⟨rfl, h.setPointer .home⟩
  | halt => exact ⟨rfl, h⟩
  | skip => exact ⟨rfl, h⟩
  | exchange => exact absurd hblind (by simp [tells])
  | loadData =>
    -- The flag goes into the grid, so it is not the secret.
    refine ⟨rfl, h.setData fun _ => h.flag ?_⟩
    rintro rfl
    exact absurd hblind (by simp [tells])
  | complementData => exact ⟨rfl, h.setData fun hs => by rw [h.data hs]⟩
  | setData v => exact ⟨rfl, h.setData fun _ => rfl⟩
  | loadFlag =>
    refine ⟨rfl, h.setFlag fun _ => h.data ?_⟩
    rintro rfl
    exact absurd hblind (by simp [tells])
  | complementFlag => exact ⟨rfl, h.setFlag fun hs => by rw [h.flag hs]⟩
  | setFlag v => exact ⟨rfl, h.setFlag fun _ => rfl⟩

/-- **A blind instruction lets nothing out**, neither to the rest of the field nor to the way that
the program takes. -/
theorem Program.execute_agreeBut (p : Program) (here : Nat) (h : f.AgreeBut s g) {i : Instruction}
    (hblind : i.isBlind s = true) :
    (p.execute here f i).1 = (p.execute here g i).1 ∧
      (p.execute here f i).2.AgreeBut s (p.execute here g i).2 := by
  cases i with
  | guarded guard op =>
    simp only [Instruction.isBlind, Bool.and_eq_true, Bool.not_eq_true'] at hblind
    simp only [execute, guard.holds_agreeBut h hblind.1]
    by_cases hg : guard.holds g
    · simp only [if_pos hg]
      exact op.perform_agreeBut h hblind.2 here
    · simp only [if_neg hg]
      exact ⟨trivial, h⟩
  | _ => exact ⟨rfl, h⟩

end Instruction

/-! ## 4. Machines with a blind program -/

namespace Machine

variable {s : Secret} {m m' : Machine}

/-- Two machines with the same blind program that differ at most in the secret and in the kept
status. -/
structure AgreeBut (s : Secret) (m m' : Machine) : Prop where
  field : m.field.AgreeBut s m'.field
  program : m.program = m'.program
  counter : m.counter = m'.counter
  ticks : m.ticks = m'.ticks
  blind : m.program.isBlind s = true

/-- **A tick lets nothing out.** -/
theorem AgreeBut.tick (h : AgreeBut s m m') : Agree (AgreeBut s) m.tick m'.tick := by
  have hsame : m'.here? = m.here? := (here?_congr h.program h.counter).symm
  cases hhere : m.here? with
  | none =>
    rw [tick_of_here?_none hhere, tick_of_here?_none (hsame.trans hhere)]
    exact ⟨rfl, h⟩
  | some here =>
    obtain ⟨i, hi, ht⟩ := tick_of_here?_some hhere
    have ht' := tick_of_get? (hsame.trans hhere) (h.program ▸ hi)
    rw [← h.program] at ht'
    obtain ⟨hcontrol, hfield⟩ :=
      m.program.execute_agreeBut here h.field (Program.isBlind_of_get? h.blind hi)
    rw [ht, ht', ← hcontrol]
    exact ⟨rfl, hfield, rfl, rfl, by rw [h.ticks], h.blind⟩

theorem secret_lockstep (s : Secret) :
    Lockstep system system (fun _ => True) (AgreeBut s) where
  tick _ _ h _ := h.tick
  keep _ _ _ h := ⟨h.field, h.program, h.counter, h.ticks, h.blind⟩

/-- Calls let nothing out. -/
theorem history_of_isBlind (hblind : m.program.isBlind s = true) {g : Field}
    (hg : m.field.AgreeBut s g) (cs : List Call) :
    List.Forall₂ (Agree (AgreeBut s)) (m.history cs) ((m.withField g).history cs) := by
  have hstart : AgreeBut s m (m.withField g) := ⟨hg, rfl, rfl, rfl, hblind⟩
  exact history_of_lockstep (secret_lockstep s) hstart cs

/-- **A program that never asks for the flag and never copies it into the grid does not let it
out**: for any other flag, all calls return the same statuses and leave the same counter, the same
number of ticks, the same grid and the same pointer.  **The same holds of the grid**, for a program
that never asks for a data bit and never copies one into the flag: then it is the flag and the
pointer that stay the same, for any other grid. -/
theorem history_secret (m : Machine) (cs : List Call) :
    (m.program.isBlind .flag = true → ∀ flag : Bool,
      List.Forall₂
        (fun a b =>
          b.1 = a.1 ∧ b.2.counter = a.2.counter ∧ b.2.ticks = a.2.ticks ∧
            b.2.field.grid = a.2.field.grid ∧ b.2.field.pointer = a.2.field.pointer)
        (m.history cs) ((m.withField { m.field with flag }).history cs)) ∧
    (m.program.isBlind .grid = true → ∀ grid : Grid,
      List.Forall₂
        (fun a b =>
          b.1 = a.1 ∧ b.2.counter = a.2.counter ∧ b.2.ticks = a.2.ticks ∧
            b.2.field.flag = a.2.field.flag ∧ b.2.field.pointer = a.2.field.pointer)
        (m.history cs) ((m.withField { m.field with grid }).history cs)) := by
  constructor
  · intro hblind flag
    have hfield : m.field.AgreeBut .flag { m.field with flag } :=
      ⟨fun hs => absurd rfl hs, fun _ => rfl, rfl⟩
    refine (history_of_isBlind hblind hfield cs).imp ?_
    rintro a b ⟨hstatus, h⟩
    exact ⟨hstatus.symm, h.counter.symm, h.ticks.symm, (h.field.grid (by decide)).symm,
      h.field.pointer.symm⟩
  · intro hblind grid
    have hfield : m.field.AgreeBut .grid { m.field with grid } :=
      ⟨fun _ => rfl, fun hs => absurd rfl hs, rfl⟩
    refine (history_of_isBlind hblind hfield cs).imp ?_
    rintro a b ⟨hstatus, h⟩
    exact ⟨hstatus.symm, h.counter.symm, h.ticks.symm, (h.field.flag (by decide)).symm,
      h.field.pointer.symm⟩

/-- A machine that negates the flag and the data bit, halts, and goes up until the edge stops it.
It is blind to both secrets. -/
def unseeing : Machine :=
  new.install ⟨[.guarded .always .complementFlag, .guarded .always .complementData,
    .guarded .always .halt, .tag 3, .guarded .always (.move .up), .retreat 3]⟩

/-- The calls that find the halt and the edge, with the flag set and with another grid. -/
theorem history_secret_unseeing :
    unseeing.program.isBlind .flag = true ∧ unseeing.program.isBlind .grid = true ∧
      ∀ m ∈ [unseeing.withField { unseeing.field with flag := true },
          unseeing.withField { unseeing.field with grid := ⟨5#256⟩ }],
        (m.history [.runLimited 9, .step, .runLimited 60]).map (fun r => (r.1, r.2.ticks)) =
          [(.halted, 3), (.stepped, 4), (.fault .pointerOutOfRange, 50)] := by
  have hflag : unseeing.program.isBlind .flag = true := by decide
  have hgrid : unseeing.program.isBlind .grid = true := by decide
  have hseen : ∀ {log log' : List (Status × Machine)},
      List.Forall₂ (fun a b => b.1 = a.1 ∧ b.2.ticks = a.2.ticks) log log' →
        log'.map (fun r => (r.1, r.2.ticks)) = log.map (fun r => (r.1, r.2.ticks)) := by
    intro log log' h
    rw [eq_comm, ← List.forall₂_eq_eq_eq, List.forall₂_map_left_iff, List.forall₂_map_right_iff]
    exact h.imp fun a b hab => Prod.ext hab.1.symm hab.2.symm
  obtain ⟨hsameFlag, hsameGrid⟩ := history_secret unseeing [.runLimited 9, .step, .runLimited 60]
  refine ⟨hflag, hgrid, ?_⟩
  intro m hm
  simp only [List.mem_cons, List.not_mem_nil, or_false] at hm
  rcases hm with rfl | rfl
  · rw [hseen ((hsameFlag hflag true).imp fun _ _ h => ⟨h.1, h.2.2.1⟩)]
    decide
  · rw [hseen ((hsameGrid hgrid ⟨5#256⟩).imp fun _ _ h => ⟨h.1, h.2.2.1⟩)]
    decide

end Machine

end OneBit
