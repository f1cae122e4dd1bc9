/-
# The invariant of the reachable machines

Program, counter, status and number of ticks of a machine belong together, and the pointer is on
the field.  `invariant_of_reached` says how, for every machine that a host can reach, however
loads, installs, edits, runs, steps and limits follow each other.

The proof takes the parts in two groups, because a run breaks the tie between them while it is
under way: until the last tick is made, the machine still keeps the status of the call before.

* `Placed` is about program, counter and ticks.  Each tick keeps it (`Placed.tick`), and so does
  a run (`Placed.runFor`).
* `Status.Fits` is about a status and the place of the counter.  Each tick has it for its own
  status (`Placed.fits_tick`), whatever status the machine kept before.

`Settled` is both together, for the status that the machine keeps.  It holds again after each
action of a host (`Settled.act`).
-/
import OneBit.Proofs.Machine.Call
import OneBit.Proofs.Machine.Tick

namespace OneBit

/-! ## 1. Statuses and the place of the counter -/

/-- With this status the counter can stand at `counter`, in a program with `length`
instructions. -/
def Status.Fits (length : Nat) (counter : Option Nat) : Status → Prop
  | ok => True
  | stepped | halted | fault .pointerOutOfRange | fault .tagNotFound =>
    ∃ c, counter = some c ∧ c < length
  | terminated => ∃ c, counter = some c ∧ length ≤ c
  | fault .noProgramLoaded => counter = none
  | fault .undefinedOpcode => False

namespace Program.Effect

variable {p : Program} {here : Nat} {f g : Field} {i : Instruction} {control : Control}

/-- The status of an instruction fits the counter after it. -/
theorem fits (h : p.Effect here f i control g) (hlt : here < p.length) :
    (control.settle p.length here).1.Fits p.length (some (control.settle p.length here).2) := by
  have hgoto : ∀ place, ((Control.goto place).settle p.length here).1.Fits p.length
      (some ((Control.goto place).settle p.length here).2) := by
    intro place
    simp only [Control.settle]
    split
    · trivial
    · exact ⟨place, rfl, by omega⟩
  cases h with
  | next => exact hgoto _
  | skip => exact hgoto _
  | jump => exact hgoto _
  | halt =>
    simp only [Control.settle]
    split
    · exact ⟨here + 1, rfl, by omega⟩
    · exact ⟨here + 1, rfl, by omega⟩
  | noTag => exact ⟨here, rfl, hlt⟩
  | edge => exact ⟨here, rfl, hlt⟩

/-- The counter after an instruction is at most one place behind the end, and there only after a
skip in the last instruction. -/
theorem counter_le (h : p.Effect here f i control g) (hlt : here < p.length) :
    (control.settle p.length here).2 ≤ p.length ∨
      (control.settle p.length here).2 = p.length + 1 ∧ here + 1 = p.length ∧
        i.operation? = some .skip := by
  cases h with
  | next => exact .inl hlt
  | halt => exact .inl hlt
  | jump _ hfound => exact .inl (Nat.le_of_lt (lt_of_findTag hfound))
  | noTag => exact .inl (Nat.le_of_lt hlt)
  | edge => exact .inl (Nat.le_of_lt hlt)
  | skip hop =>
    simp only [Control.settle]
    by_cases hlast : here + 1 = p.length
    · exact .inr ⟨by omega, hlast, hop⟩
    · exact .inl (by omega)

/-- An instruction that goes on goes to a place in the program. -/
theorem lt_of_ok (h : p.Effect here f i control g)
    (hok : (control.settle p.length here).1 = .ok) :
    (control.settle p.length here).2 < p.length := by
  cases control with
  | goto place =>
    simp only [Control.settle] at hok ⊢
    split at hok
    · assumption
    · exact absurd hok (by simp)
  | pause place =>
    simp only [Control.settle] at hok
    split at hok <;> exact absurd hok (by simp)
  | fault k => exact absurd hok (by simp [Control.settle])

end Program.Effect

/-! ## 2. Program, counter and ticks -/

theorem Program.isEmpty_iff {p : Program} : p.isEmpty = true ↔ p.length = 0 := by
  simp [isEmpty, length]

/-- The last instruction, by its number. -/
theorem Program.getLast?_of_get? {p : Program} {n : Nat} {i : Instruction}
    (hi : p.get? n = some i) (hlast : n + 1 = p.length) : p.instructions.getLast? = some i := by
  rw [List.getLast?_eq_getElem?, show p.instructions.length - 1 = n from by
    simp only [length] at hlast
    omega]
  exact hi

namespace Machine

/-- Program, counter and ticks belong together, also while a run is under way. -/
structure Placed (m : Machine) : Prop where
  /-- There is a counter exactly if there is an instruction. -/
  counter_none_iff : m.counter = none ↔ m.program.isEmpty = true
  counter_le : ∀ c, m.counter = some c → c ≤ m.program.length + 1
  skip_last : m.counter = some (m.program.length + 1) →
    ∃ i, m.program.instructions.getLast? = some i ∧ i.operation? = some .skip
  /-- A machine that has not ticked yet stands at the top of its program. -/
  counter_of_ticks_eq : m.ticks = 0 → m.counter = none ∨ m.counter = some 0
  /-- A machine without a program never ticks. -/
  ticks_of_counter_eq : m.counter = none → m.ticks = 0

namespace Placed

theorem ofField (f : Field) : (Machine.ofField f).Placed where
  counter_none_iff := by simp [Machine.ofField, Program.isEmpty]
  counter_le := by simp [Machine.ofField]
  skip_last := by simp [Machine.ofField]
  counter_of_ticks_eq := by simp [Machine.ofField]
  ticks_of_counter_eq := by simp [Machine.ofField]

theorem install (m : Machine) (p : Program) : (m.install p).Placed := by
  cases hp : p.isEmpty with
  | true =>
    constructor <;> simp [Machine.install, hp]
  | false =>
    constructor <;> simp [Machine.install, hp]

/-- Only a machine without a counter has nothing to do. -/
theorem counter_of_here? {m : Machine} (h : m.Placed) (hhere : m.here? = none) :
    m.counter = none := by
  unfold here? at hhere
  split at hhere
  · split at hhere
    · rename_i hempty
      exact h.counter_none_iff.mpr hempty
    · exact absurd hhere (by simp)
  · assumption

/-- **A tick keeps program, counter and ticks together.** -/
theorem tick {m : Machine} (h : m.Placed) : m.tick.2.Placed := by
  rcases tick_cases m with ⟨-, ht⟩ | ⟨here, i, control, field, hhere, hi, heff, ht⟩
  · rw [ht]
    exact h
  · rw [ht]
    have hlt : here < m.program.length := lt_of_here? hhere
    have hne : ¬ m.program.isEmpty = true := fun he => by
      rw [Program.isEmpty_iff] at he
      omega
    have hle := heff.counter_le hlt
    refine ⟨by simpa using hne, ?_, ?_, by simp, by simp⟩
    · rintro c hc
      cases hc
      simp only
      omega
    · intro hc
      simp only [Option.some.injEq] at hc
      rcases hle with hle | ⟨-, hlast, hskip⟩
      · omega
      · exact ⟨i, Program.getLast?_of_get? hi hlast, hskip⟩

/-- A run keeps them together. -/
theorem runFor {m : Machine} (h : m.Placed) (n : Nat) : (Machine.runFor n m).2.Placed :=
  runFor_invariant (fun _ hm => hm.tick) n m h

/-- **The status of a tick fits the counter after it.** -/
theorem fits_tick {m : Machine} (h : m.Placed) :
    m.tick.1.Fits m.tick.2.program.length m.tick.2.counter := by
  rcases tick_cases m with ⟨hhere, ht⟩ | ⟨here, i, control, field, hhere, hi, heff, ht⟩
  · rw [ht]
    exact h.counter_of_here? hhere
  · rw [ht]
    exact heff.fits (lt_of_here? hhere)

end Placed

/-- After a tick that ended with `ok` the counter is in the program. -/
theorem counter_of_tick_ok {m : Machine} (hok : m.tick.1 = .ok) :
    ∃ c, m.tick.2.counter = some c ∧ c < m.tick.2.program.length := by
  rcases tick_cases m with ⟨-, ht⟩ | ⟨here, i, control, field, -, -, heff, ht⟩
  · rw [ht] at hok
    exact absurd hok (by simp)
  · rw [ht] at hok ⊢
    exact ⟨_, rfl, heff.lt_of_ok hok⟩

/-- A tick is counted, or it finds no program. -/
theorem ticks_tick (m : Machine) :
    m.tick.2.ticks = m.ticks + 1 ∨ m.tick = (.fault .noProgramLoaded, m) := by
  rcases tick_cases m with ⟨-, ht⟩ | ⟨_, _, _, _, -, -, -, ht⟩
  · exact .inr ht
  · rw [ht]
    exact .inl rfl

end Machine

/-! ## 3. Between the calls -/

namespace Status.Fits

variable {length : Nat} {s : Status}

/-- Behind the end of the program a machine has come to its end, or was not allowed to tick. -/
theorem of_le {c : Nat} (h : s.Fits length (some c)) (hc : length ≤ c) :
    s = .terminated ∨ s = .ok := by
  have hnot : ¬ ∃ d, some c = some d ∧ d < length := by
    rintro ⟨d, hd, hlt⟩
    cases hd
    omega
  cases s with
  | ok => exact .inr rfl
  | terminated => exact .inl rfl
  | halted => exact absurd h hnot
  | stepped => exact absurd h hnot
  | fault k =>
    cases k with
    | pointerOutOfRange => exact absurd h hnot
    | tagNotFound => exact absurd h hnot
    | noProgramLoaded => exact absurd h (by simp [Status.Fits])
    | undefinedOpcode => exact h.elim

/-- Without a program there are two statuses. -/
theorem of_none (h : s.Fits length none) : s = .ok ∨ s = .fault .noProgramLoaded := by
  cases s with
  | ok => exact .inl rfl
  | terminated => exact absurd h (by simp [Status.Fits])
  | halted => exact absurd h (by simp [Status.Fits])
  | stepped => exact absurd h (by simp [Status.Fits])
  | fault k =>
    cases k with
    | noProgramLoaded => exact .inr rfl
    | undefinedOpcode => exact h.elim
    | pointerOutOfRange => exact absurd h (by simp [Status.Fits])
    | tagNotFound => exact absurd h (by simp [Status.Fits])

end Status.Fits

namespace Machine

/-- What holds of a machine between the calls. -/
structure Settled (m : Machine) : Prop where
  placed : m.Placed
  fits : m.status.Fits m.program.length m.counter
  /-- A machine that has not ticked yet has nothing to report but the lack of a program. -/
  status_of_ticks_eq : m.ticks = 0 → m.status = .ok ∨ m.status = .fault .noProgramLoaded

/-- Neither the field nor the status has a part in `Placed`. -/
theorem Placed.congr {m m' : Machine} (h : m.Placed) (hp : m'.program = m.program)
    (hc : m'.counter = m.counter) (ht : m'.ticks = m.ticks) : m'.Placed := by
  refine ⟨?_, ?_, ?_, ?_, ?_⟩
  · rw [hp, hc]; exact h.counter_none_iff
  · rw [hp, hc]; exact h.counter_le
  · rw [hp, hc]; exact h.skip_last
  · rw [hc, ht]; exact h.counter_of_ticks_eq
  · rw [hc, ht]; exact h.ticks_of_counter_eq

namespace Settled

/-- **Every call settles the machine.** -/
theorem call {m m' : Machine} {c : Call} {s : Status} (h : m.Settled)
    (hc : m.call c = some (s, m')) : m'.Settled := by
  rcases call_cases hc with ⟨rfl, rfl⟩ | ⟨k, last, hk, rfl, hs⟩
  · exact ⟨h.placed.congr rfl rfl rfl, trivial, fun _ => .inl rfl⟩
  · have hlast : last.Placed := by
      have hrun := h.placed.runFor k
      rwa [hk] at hrun
    refine ⟨hlast.tick.congr rfl rfl rfl, ?_, ?_⟩
    · rcases hs with rfl | ⟨rfl, hok⟩
      · exact hlast.fits_tick
      · exact counter_of_tick_ok hok
    · intro hticks
      rcases ticks_tick last with ht | ht
      · simp only at hticks
        omega
      · rcases hs with rfl | ⟨-, hok⟩
        · exact .inr (by rw [ht])
        · rw [ht] at hok
          exact absurd hok (by simp)

/-- **Every action of a host leaves the machine settled.** -/
theorem act {m m' : Machine} {a : Action} (h : m.Settled) (ha : m.act a = some m') :
    m'.Settled := by
  cases a with
  | renew =>
    cases ha
    exact ⟨.ofField _, trivial, fun _ => .inl rfl⟩
  | load source =>
    cases ha
    exact ⟨.install _ _, trivial, fun _ => .inl rfl⟩
  | install p =>
    cases ha
    exact ⟨.install _ _, trivial, fun _ => .inl rfl⟩
  | call c =>
    obtain ⟨⟨s, m₁⟩, hc, rfl⟩ := Option.map_eq_some_iff.mp ha
    exact h.call hc
  | edit e =>
    cases ha
    exact ⟨h.placed.congr rfl rfl rfl, h.fits, h.status_of_ticks_eq⟩
  | replaceField f =>
    cases ha
    exact ⟨h.placed.congr rfl rfl rfl, h.fits, h.status_of_ticks_eq⟩

/-- Every machine that a host can reach is settled. -/
theorem of_reached {m : Machine} (h : m.Reached) : m.Settled := by
  induction h with
  | new => exact ⟨.ofField _, trivial, fun _ => .inl rfl⟩
  | act a _ hact ih => exact ih.act hact

end Settled

/-- **The invariant of the reachable machines.**  The pointer is on the field.  There is a
counter exactly if there is an instruction; it is at most one place behind the end, and there
only if the last instruction carries a skip.  Each status goes with its places of the counter,
and behind the end or without a program only two statuses each are left.  Without a program no
tick was counted, and before the first tick the machine stands at the top. -/
theorem invariant_of_reached {m : Machine} (h : m.Reached) :
    (m.field.pointer.x.val ≤ 15 ∧ m.field.pointer.y.val ≤ 15) ∧
    (m.counter = none ↔ m.program.isEmpty = true) ∧
    (∀ c, m.counter = some c → c ≤ m.program.length + 1 ∧
      (c = m.program.length + 1 →
        ∃ i, m.program.instructions.getLast? = some i ∧ i.operation? = some .skip)) ∧
    (m.status = .stepped ∨ m.status = .halted ∨ m.status = .fault .pointerOutOfRange ∨
        m.status = .fault .tagNotFound →
      ∃ c, m.counter = some c ∧ c < m.program.length) ∧
    (m.status = .terminated → ∃ c, m.counter = some c ∧ m.program.length ≤ c) ∧
    (m.status = .fault .noProgramLoaded → m.counter = none) ∧
    m.status ≠ .fault .undefinedOpcode ∧
    (∀ c, m.counter = some c → m.program.length ≤ c →
      m.status = .terminated ∨ m.status = .ok) ∧
    (m.counter = none →
      (m.status = .ok ∨ m.status = .fault .noProgramLoaded) ∧ m.ticks = 0) ∧
    (m.ticks = 0 →
      (m.status = .ok ∨ m.status = .fault .noProgramLoaded) ∧
        (m.counter = none ∨ m.counter = some 0)) := by
  obtain ⟨hplaced, hfits, hfirst⟩ := Settled.of_reached h
  refine ⟨⟨by omega, by omega⟩, hplaced.counter_none_iff, ?_, ?_, ?_, ?_, ?_, ?_, ?_, ?_⟩
  · rintro c hc
    refine ⟨hplaced.counter_le c hc, ?_⟩
    rintro rfl
    exact hplaced.skip_last hc
  · rintro (hs | hs | hs | hs) <;> rw [hs] at hfits <;> exact hfits
  · intro hs
    rw [hs] at hfits
    exact hfits
  · intro hs
    rw [hs] at hfits
    exact hfits
  · intro hs
    rw [hs] at hfits
    exact hfits
  · intro c hc
    rw [hc] at hfits
    exact hfits.of_le
  · intro hc
    rw [hc] at hfits
    exact ⟨hfits.of_none, hplaced.ticks_of_counter_eq hc⟩
  · intro ht
    exact ⟨hfirst ht, hplaced.counter_of_ticks_eq ht⟩

/-- A machine that skipped out of its program and was then run with limit zero. -/
def skippedOut : Machine :=
  ((Machine.new.install ⟨[.guarded .always .skip]⟩).step.2.runLimited 0).2

theorem skippedOut_reached : skippedOut.Reached :=
  .act (.call (.runLimited 0)) (.act (.call .step) (.act (.install _) .new rfl) rfl) rfl

/-- The invariant at that machine, whose counter is one place behind the end. -/
theorem invariant_of_skippedOut :
    skippedOut.Reached ∧ skippedOut.counter = some 2 ∧ skippedOut.status = .ok ∧
      ∃ i, skippedOut.program.instructions.getLast? = some i ∧ i.operation? = some .skip :=
  ⟨skippedOut_reached, rfl, rfl,
    ((invariant_of_reached skippedOut_reached).2.2.1 2 rfl).2 rfl⟩

end Machine

end OneBit
