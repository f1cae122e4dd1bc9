/-
# The machine in words

The machine once more, in words, and told step by step: a tick takes the counter back to the top if
it is not in the program, looks up the instruction, adds one to the counter, lets the instruction do
its work, and settles the counter in the end.  Every look-up and every sum on the way may trap.

`of` is the machine in words that stands for a machine.  If its program has at most
`Program.maxLength` instructions, no tick of it traps, and each comes to what it comes to in the
machine (`tick_of`).  What is needed for that is what `Machine.Placed` says of the counter: it is at
most one place behind the end, so a search, the next place and a skip stay far below the greatest
word.

A trap ends every call.  The machine and the machine in words are in lockstep (`words_lockstep`), so
no call of any kind traps either.
-/
import OneBit.Proofs.Machine.Halting
import OneBit.Proofs.Machine.Settled
import OneBit.Proofs.Words.Field
import OneBit.Proofs.Words.Search

namespace OneBit

/-- The state of the machine, in words. -/
structure WordMachine where
  field : WordField
  program : Program
  counter : Option UInt64
  status : Status
  ticks : Nat

/-- What an instruction has come to: a status, the place to go on at, and the field. -/
structure WordStep where
  status : Status
  next : UInt64
  field : WordField

/-! ## 1. One tick -/

/-- Does the guard hold on this field? -/
def Guard.holdsWord (f : WordField) : Guard → Except Trap Bool
  | always => .ok true
  | data value => do return (← f.data) == value
  | flag value => .ok (f.flag == value)

/-- Carry out an operation.  The place behind its instruction is `next`. -/
def Operation.performWord (f : WordField) (next : UInt64) : Operation → Except Trap WordStep
  | move d => do
    let (moved, g) ← f.tryStep d
    return ⟨if moved then .ok else .fault .pointerOutOfRange, next, g⟩
  | home => .ok ⟨.ok, next, f.goHome⟩
  | halt => .ok ⟨.halted, next, f⟩
  | skip => do return ⟨.ok, ← Word.checkedAdd next 1, f⟩
  | exchange => do return ⟨.ok, next, ← f.exchange⟩
  | loadData => do return ⟨.ok, next, ← f.setData f.flag⟩
  | complementData => do return ⟨.ok, next, ← f.setData !(← f.data)⟩
  | setData v => do return ⟨.ok, next, ← f.setData v⟩
  | loadFlag => do return ⟨.ok, next, f.setFlag (← f.data)⟩
  | complementFlag => .ok ⟨.ok, next, f.setFlag !f.flag⟩
  | setFlag v => .ok ⟨.ok, next, f.setFlag v⟩

namespace Program

/-- Go to the nearest tag with an ID on one side of the instruction at `pc`. -/
def seekWord (p : Program) (pc next : UInt64) (f : WordField) (id : UInt8) (side : Search) :
    Except Trap WordStep := do
  match ← p.findTagWord pc id side with
  | some place => return ⟨.ok, place, f⟩
  | none => return ⟨.fault .tagNotFound, next, f⟩

/-- Carry out the instruction at `pc`. -/
def executeWord (p : Program) (pc : UInt64) (f : WordField) (i : Instruction) :
    Except Trap WordStep := do
  let next ← Word.checkedAdd pc 1
  match i with
  | .tag _ => return ⟨.ok, next, f⟩
  | .advance id => p.seekWord pc next f id .forward
  | .retreat id => p.seekWord pc next f id .backward
  | .guarded guard op =>
    if ← guard.holdsWord f then op.performWord f next else return ⟨.ok, next, f⟩

end Program

/-- The status and the counter after the instruction at `pc`, in a program of this size. -/
def WordStep.settle (size pc : UInt64) (s : WordStep) : Status × UInt64 :=
  if s.status = .ok ∨ s.status = .halted then
    (if size ≤ s.next then .terminated else s.status, s.next)
  else (s.status, pc)

namespace WordMachine

/-- Carry out the next instruction. -/
def tick (m : WordMachine) : Except Trap (Status × WordMachine) :=
  match m.counter with
  | none => .ok (.fault .noProgramLoaded, m)
  | some c =>
    if 0 < m.program.size then do
      let pc := if m.program.size ≤ c then 0 else c
      let i ← m.program.instructionAt pc
      let s ← m.program.executeWord pc m.field i
      let (status, counter) := s.settle m.program.size pc
      return (status, { m with field := s.field, counter := some counter, ticks := m.ticks + 1 })
    else .ok (.fault .noProgramLoaded, m)

/-- The machine in words that stands for a machine. -/
def of (m : Machine) : WordMachine :=
  ⟨.of m.field, m.program, m.counter.map UInt64.ofNat, m.status, m.ticks⟩

end WordMachine

/-! ## 2. One instruction does what it does in the machine -/

/-- What an instruction at `here` has come to in words, where the machine has this control. -/
def Control.word (here : Nat) (f : Field) : Control → WordStep
  | goto place => ⟨.ok, UInt64.ofNat place, .of f⟩
  | pause place => ⟨.halted, UInt64.ofNat place, .of f⟩
  | fault k => ⟨.fault k, UInt64.ofNat (here + 1), .of f⟩

theorem Control.field_word (here : Nat) (f : Field) (control : Control) :
    (control.word here f).field = .of f := by
  cases control <;> rfl

theorem Guard.holdsWord_of (f : Field) (guard : Guard) :
    guard.holdsWord (.of f) = .ok (guard.holds f) := by
  cases guard with
  | always => rfl
  | data value => rw [holdsWord, WordField.data_of]; rfl
  | flag value => rfl

/-- **An operation does not trap**, and comes to the same. -/
theorem Operation.performWord_of (f : Field) {here : Nat} (h : here + 2 < UInt64.size)
    (op : Operation) :
    op.performWord (.of f) (UInt64.ofNat (here + 1)) =
      .ok ((op.perform f here).1.word here (op.perform f here).2) := by
  have hskip : Word.checkedAdd (UInt64.ofNat (here + 1)) 1 = .ok (UInt64.ofNat (here + 2)) :=
    Word.checkedAdd_ofNat (b := 1) h
  cases op with
  | move d =>
    rw [performWord, WordField.tryStep_of, perform]
    rcases f.tryStep d with ⟨moved | clamped, g⟩
    · rfl
    · rfl
  | skip => rw [performWord, hskip]; rfl
  | exchange => rw [performWord, WordField.exchange_of]; rfl
  | loadData => rw [performWord, WordField.setData_of]; rfl
  | complementData =>
    rw [performWord, WordField.data_of]
    simp only [bind, Except.bind, WordField.setData_of]
    rfl
  | setData v => rw [performWord, WordField.setData_of]; rfl
  | loadFlag => rw [performWord, WordField.data_of]; rfl
  | _ => rfl

namespace Program

variable {p : Program} {here : Nat}

/-- **A search does not trap**, and goes to the same place. -/
theorem seekWord_of (hp : p.length ≤ maxLength) (hlt : here < p.length) (f : Field) (id : UInt8)
    (side : Search) :
    p.seekWord (UInt64.ofNat here) (UInt64.ofNat (here + 1)) (.of f) id side =
      .ok ((p.seek here id side).word here f) := by
  have hhere : (UInt64.ofNat here).toNat = here :=
    Word.toNat_ofNat (Nat.lt_trans hlt (lt_size_of_le_maxLength hp))
  rw [seekWord, findTag_word hp, hhere, seek]
  cases p.findTag here id side with
  | some place => rfl
  | none => rfl

/-- **An instruction does not trap**, and comes to the same. -/
theorem executeWord_of (hp : p.length ≤ maxLength) (hlt : here < p.length) (f : Field)
    (i : Instruction) :
    p.executeWord (UInt64.ofNat here) (.of f) i =
      .ok ((p.execute here f i).1.word here (p.execute here f i).2) := by
  have hroom : here + 2 < UInt64.size := by
    have hmax : maxLength + 2 < UInt64.size := by decide
    omega
  have hnext : Word.checkedAdd (UInt64.ofNat here) 1 = .ok (UInt64.ofNat (here + 1)) :=
    Word.checkedAdd_ofNat (b := 1) (Nat.lt_of_succ_lt hroom)
  rw [executeWord, hnext]
  cases i with
  | tag id => rfl
  | advance id => exact seekWord_of hp hlt f id .forward
  | retreat id => exact seekWord_of hp hlt f id .backward
  | guarded guard op =>
    simp only [bind, Except.bind, Guard.holdsWord_of, execute]
    cases guard.holds f with
    | true => exact op.performWord_of f hroom
    | false => rfl

/-- **Words settle as numbers do**, as long as the place fits. -/
theorem settle_word {length : Nat} (control : Control) (f : Field) (hlength : length < UInt64.size)
    (hplace : (control.settle length here).2 < UInt64.size) :
    (control.word here f).settle (UInt64.ofNat length) (UInt64.ofNat here) =
      ((control.settle length here).1, UInt64.ofNat (control.settle length here).2) := by
  have hend : ∀ (place : Nat) (s : Status), place < UInt64.size →
      (if UInt64.ofNat length ≤ UInt64.ofNat place then Status.terminated else s) =
        if place < length then s else .terminated := by
    intro place s hplace
    by_cases hlt : place < length
    · rw [if_pos hlt, if_neg (by rw [UInt64.ofNat_le_iff_le hlength hplace]; omega)]
    · rw [if_neg hlt, if_pos (by rw [UInt64.ofNat_le_iff_le hlength hplace]; omega)]
  cases control with
  | goto place => exact Prod.ext (hend place .ok hplace) rfl
  | pause place => exact Prod.ext (hend place .halted hplace) rfl
  | fault k => simp [Control.word, WordStep.settle, Control.settle]

end Program

/-! ## 3. A tick does what it does in the machine -/

namespace WordMachine

/-- **No tick traps**, and each comes to what it comes to in the machine. -/
theorem tick_of {m : Machine} (h : m.Placed) (hp : m.program.length ≤ Program.maxLength) :
    (of m).tick = .ok (m.tick.1, of m.tick.2) := by
  have hsize := Program.lt_size_of_le_maxLength hp
  cases hc : m.counter with
  | none =>
    have hhere : m.here? = none := by rw [Machine.here?, hc]
    rw [Machine.tick_of_here?_none hhere]
    simp only [tick, of, hc, Option.map_none]
  | some c =>
    have hcSize : c < UInt64.size := by
      have hle := h.counter_le c hc
      have hmax : Program.maxLength + 1 < UInt64.size := by decide
      omega
    have hhere := Machine.here?_of_counter h.counter_none_iff hc
    have hlt := Machine.lt_of_here? hhere
    generalize hplace : (if c < m.program.length then c else 0) = here at hhere hlt
    -- The counter in words is taken back to the top by the same test.
    have hpc : (if m.program.size ≤ UInt64.ofNat c then 0 else UInt64.ofNat c) =
        UInt64.ofNat here := by
      have hend : m.program.size ≤ UInt64.ofNat c ↔ m.program.length ≤ c :=
        UInt64.ofNat_le_iff_le hsize hcSize
      rw [← hplace]
      by_cases hin : c < m.program.length
      · rw [if_pos hin, if_neg (mt hend.mp (Nat.not_le.mpr hin))]
      · rw [if_neg hin, if_pos (hend.mpr (Nat.le_of_not_lt hin))]
        rfl
    have hpos : 0 < m.program.size := by
      rw [UInt64.lt_iff_toNat_lt, Program.size, Word.toNat_ofNat hsize]
      exact Nat.zero_lt_of_lt hlt
    obtain ⟨i, hi, htick⟩ := Machine.tick_of_here?_some hhere
    have hfetch := Program.instructionAt_ofNat (Nat.lt_trans hlt hsize) hi
    have hcounter : ((m.program.execute here m.field i).1.settle m.program.length here).2 <
        UInt64.size := by
      have hle := (m.program.execute_effect here m.field i).counter_le hlt
      have hmax : Program.maxLength + 1 < UInt64.size := by decide
      omega
    rw [htick]
    simp only [tick, of, hc, Option.map_some, if_pos hpos, hpc, hfetch, bind, Except.bind,
      Program.executeWord_of hp hlt, pure, Except.pure]
    rw [Program.size, Program.settle_word _ _ hsize hcounter, Control.field_word]

/-! ## 4. Calls -/

/-- A machine in words or the trap that has stopped it, as a system.  After a trap nothing goes on:
the status is then one that ends a run, and that no machine answers (`Machine.Settled`). -/
def system : System (Except Trap WordMachine) where
  tick
    | .error t => (.fault .undefinedOpcode, .error t)
    | .ok m =>
      match m.tick with
      | .error t => (.fault .undefinedOpcode, .error t)
      | .ok (status, next) => (status, .ok next)
  keep status e := e.map fun m => { m with status := status }

/-- Work on words has come to a machine, with a program that is not too long. -/
structure StandsFor (m : Machine) (e : Except Trap WordMachine) : Prop where
  eq_ok : e = .ok (of m)
  placed : m.Placed
  length_le : m.program.length ≤ Program.maxLength

/-- **The machine and the machine in words are in lockstep**, so none of its calls traps. -/
theorem words_lockstep : Lockstep Machine.system system (fun _ => True) StandsFor where
  tick m e h _ := by
    obtain ⟨rfl, hplaced, hlength⟩ := h
    have htick := tick_of hplaced hlength
    refine ⟨?_, ?_, hplaced.tick, ?_⟩
    · simp only [system, htick, Machine.system]
    · simp only [system, htick, Machine.system]
    · exact (congrArg Program.length m.program_tick).trans_le hlength
  keep status m e h := by
    obtain ⟨rfl, hplaced, hlength⟩ := h
    exact ⟨rfl, hplaced.congr rfl rfl rfl, hlength⟩

/-- **A call does not trap**, whatever it comes to, and has the status that it has on the
machine. -/
theorem call_standsFor {m : Machine} {e : Except Trap WordMachine} (h : StandsFor m e) (c : Call) :
    Option.Rel (Agree StandsFor) (m.call c) (system.call e c) := by
  rw [← Machine.call_system]
  exact words_lockstep.call h fun _ _ => trivial

/-! ## 5. Actions of a host -/

/-- A machine in words around a field, without a program. -/
def ofField (f : WordField) : WordMachine := ⟨f, ⟨[]⟩, none, .ok, 0⟩

/-- Put a program into the machine, to start at its top. -/
def install (m : WordMachine) (p : Program) : WordMachine :=
  ⟨m.field, p, if p.isEmpty then none else some 0, .ok, 0⟩

/-- What comes of an action.  Nothing does if the action is a run that never ends. -/
noncomputable def act (e : Except Trap WordMachine) : Action → Option (Except Trap WordMachine)
  | .renew => some (e.map fun m => ofField m.field)
  | .load source => some (e.map fun m => m.install (Assembly.compile source).program)
  | .install p => some (e.map fun m => m.install p)
  | .call c => (system.call e c).map fun r => r.2
  | .edit change =>
    some (e.bind fun m => (m.field.edit change).map fun g => { m with field := g })
  | .replaceField f => some (e.map fun m => { m with field := .of f })

end WordMachine

/-- The action edits cells of the field only, and brings no program that is too long. -/
def Action.Sound : Action → Prop
  | load source => (Assembly.compile source).program.length ≤ Program.maxLength
  | install p => p.length ≤ Program.maxLength
  | edit change => change.OnField
  | _ => True

namespace WordMachine

/-- Sound actions can bring a new machine in words into this state. -/
inductive Reached : Except Trap WordMachine → Prop
  | new : Reached (.ok (ofField .cleared))
  | act {e e' : Except Trap WordMachine} (a : Action) (sound : a.Sound) (before : Reached e)
      (step : act e a = some e') : Reached e'

/-- **A sound action does not trap**, and does what it does on the machine. -/
theorem act_standsFor {m : Machine} {e : Except Trap WordMachine} {a : Action}
    (h : StandsFor m e) (ha : a.Sound) : Option.Rel StandsFor (m.act a) (act e a) := by
  obtain ⟨rfl, hplaced, hlength⟩ := h
  have hinstall : ∀ p : Program, p.length ≤ Program.maxLength →
      StandsFor (m.install p) (.ok ((of m).install p)) := by
    intro p hp
    refine ⟨congrArg Except.ok ?_, .install m p, hp⟩
    cases hempty : p.isEmpty with
    | true => simp [install, of, Machine.install, hempty]
    | false => simp [install, of, Machine.install, hempty]
  cases a with
  | renew => exact .some ⟨rfl, .ofField _, Nat.zero_le _⟩
  | load source => exact .some (hinstall _ ha)
  | install p => exact .some (hinstall p ha)
  | call c =>
    have hcall := call_standsFor ⟨rfl, hplaced, hlength⟩ c
    rw [Machine.act, act]
    generalize m.call c = r at hcall
    generalize system.call (.ok (of m)) c = r' at hcall
    cases hcall with
    | none => exact .none
    | some hagree => exact .some hagree.2
  | edit change =>
    have hedit : (of m).field.edit change = .ok (.of (m.field.after change)) :=
      WordField.edit_of m.field ha
    refine .some ⟨?_, hplaced.congr rfl rfl rfl, hlength⟩
    simp only [Except.bind, hedit]
    rfl
  | replaceField f => exact .some ⟨rfl, hplaced.congr rfl rfl rfl, hlength⟩

/-- **Nothing traps** that a host can do by sound actions. -/
theorem exists_standsFor {e : Except Trap WordMachine} (h : Reached e) :
    ∃ m : Machine, m.Reached ∧ StandsFor m e := by
  induction h with
  | new =>
    refine ⟨Machine.new, .new, congrArg Except.ok ?_, .ofField _, Nat.zero_le _⟩
    rw [← WordField.of_cleared]
    rfl
  | act a sound _ step ih =>
    obtain ⟨m, hm, hstands⟩ := ih
    have hrel := act_standsFor hstands sound
    rw [step] at hrel
    generalize hact : m.act a = next at hrel
    cases hrel with
    | some hstands' => exact ⟨_, .act a hm hact, hstands'⟩

/-! ## 6. The counter that a host sees -/

/-- The counter with a sign, -1 without a program. -/
def counterNumber (m : WordMachine) : Int64 :=
  match m.counter with
  | some c => c.toInt64
  | none => -1

/-- **The counter never wraps**: read with a sign it is still -1 without a program, and otherwise a
number that is at most one place behind the end. -/
theorem counterNumber_of {m : Machine} (h : m.Placed)
    (hp : m.program.length ≤ Program.maxLength) :
    (of m).counterNumber.toInt = m.counterNumber ∧
      (m.counterNumber = -1 ∨ 0 ≤ m.counterNumber) ∧
      m.counterNumber ≤ m.program.length + 1 := by
  cases hc : m.counter with
  | none =>
    have hnumber : m.counterNumber = -1 := by rw [Machine.counterNumber, hc]
    rw [hnumber, counterNumber, of, hc]
    exact ⟨rfl, .inl rfl, by omega⟩
  | some c =>
    have hle := h.counter_le c hc
    have hmax : Program.maxLength + 1 ≤ Word.Signed.max := by decide
    have hnumber : m.counterNumber = c := by rw [Machine.counterNumber, hc]
    rw [hnumber, counterNumber, of, hc]
    refine ⟨Word.toInt_toInt64_ofNat (by omega), .inr (Int.natCast_nonneg c), by omega⟩

end WordMachine

end OneBit
