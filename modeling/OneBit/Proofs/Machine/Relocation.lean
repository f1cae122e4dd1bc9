/-
# Code inside other code

Instructions name tags, never places, so a piece of a program does the same wherever it stands.
Let the program `q₁ ++ p ++ q₂` be given.  As long as control stays in `p`, what is before and
behind it has no influence: a search that finds a tag within `p` finds the same tag in the long
program, since it is nearer than all tags outside (`findTag_between`), and each instruction goes
to the same place, counted from where `p` begins (`execute_between`).

A run of `p` by itself leaves `p` in two ways only: it comes to its end, or a search finds no tag.
With any other status the run is therefore found again in the long program
(`runLimited_between`).
-/
import OneBit.Proofs.Machine.Halting
import OneBit.Proofs.Program.Nearest

namespace OneBit

/-! ## 1. One instruction -/

/-- The program with other instructions before and behind it. -/
def Program.between (q₁ q₂ : List Instruction) (p : Program) : Program :=
  ⟨q₁ ++ p.instructions ++ q₂⟩

/-- Control that goes to a place `n` places further. -/
def Control.shift (n : Nat) : Control → Control
  | goto place => .goto (n + place)
  | pause place => .pause (n + place)
  | fault k => .fault k

/-- An operation names no place. -/
theorem Operation.perform_add (op : Operation) (f : Field) (n here : Nat) :
    op.perform f (n + here) = ((op.perform f here).1.shift n, (op.perform f here).2) := by
  cases op with
  | move d =>
    rcases ht : f.tryStep d with ⟨moved | clamped, g⟩
    · simp only [perform, ht]
      rfl
    · simp only [perform, ht]
      rfl
  | _ => rfl

namespace Program

variable {q₁ q₂ : List Instruction} {p : Program} {here : Nat}

theorem length_between : (p.between q₁ q₂).length = q₁.length + p.length + q₂.length := by
  simp [between, length, Nat.add_assoc]

/-- The instructions of the program stand one after the other behind those of `q₁`. -/
theorem get?_between (h : here < p.length) :
    (p.between q₁ q₂).get? (q₁.length + here) = p.get? here := by
  simp only [between, get?, length] at h ⊢
  rw [List.append_assoc, List.getElem?_append_right (Nat.le_add_right _ _),
    Nat.add_sub_cancel_left, List.getElem?_append_left h]

/-- **A tag that is found within the program is found in the long program.** -/
theorem findTag_between {id : UInt8} {side : Search} {k : Nat} (hhere : here < p.length)
    (h : p.findTag here id side = some k) :
    (p.between q₁ q₂).findTag (q₁.length + here) id side = some (q₁.length + k) := by
  have hk := lt_of_findTag h
  obtain ⟨htag, hbeyond, hno⟩ := findTag_eq_some_iff.mp h
  refine findTag_eq_some_iff.mpr ⟨(get?_between hk).trans htag, ?_, ?_⟩
  · cases side <;> simpa [Search.Beyond] using hbeyond
  · -- A place between two places of the program is one of the program.
    intro j hj hjk
    obtain ⟨i, rfl, hi, hbeyond, hbefore⟩ :
        ∃ i, j = q₁.length + i ∧ i < p.length ∧ side.Beyond here i ∧ side.Beyond i k := by
      refine ⟨j - q₁.length, ?_⟩
      cases side <;> simp only [Search.Beyond] at * <;> omega
    rw [get?_between hi]
    exact hno i hbeyond hbefore

/-- A search that succeeds within the program sends control to the same tag. -/
theorem seek_between {id : UInt8} {side : Search} (hhere : here < p.length)
    (h : p.seek here id side ≠ .fault .tagNotFound) :
    (p.between q₁ q₂).seek (q₁.length + here) id side =
      (p.seek here id side).shift q₁.length := by
  cases hfind : p.findTag here id side with
  | none => exact absurd (by simp only [seek, hfind]) h
  | some k =>
    simp only [seek, hfind, findTag_between hhere hfind]
    rfl

/-- **An instruction does the same in the long program**, unless it misses its tag. -/
theorem execute_between {f : Field} {i : Instruction} (hhere : here < p.length)
    (h : (p.execute here f i).1 ≠ .fault .tagNotFound) :
    (p.between q₁ q₂).execute (q₁.length + here) f i =
      ((p.execute here f i).1.shift q₁.length, (p.execute here f i).2) := by
  cases i with
  | tag id => rfl
  | advance id => exact Prod.ext (seek_between hhere h) rfl
  | retreat id => exact Prod.ext (seek_between hhere h) rfl
  | guarded guard op =>
    by_cases hg : guard.holds f
    · simp only [execute, if_pos hg]
      exact op.perform_add f q₁.length here
    · simp only [execute, if_neg hg]
      rfl

end Program

namespace Control

variable {control : Control} {length here : Nat}

/-- Control that does not come to the end of the program stays in it. -/
theorem lt_of_settle (hhere : here < length)
    (h : (control.settle length here).1 ≠ .terminated) :
    (control.settle length here).2 < length := by
  cases control with
  | goto place =>
    by_contra hge
    exact h (if_neg hge)
  | pause place =>
    by_contra hge
    exact h (if_neg hge)
  | fault k => exact hhere

/-- Then it settles in the same way in a long program. -/
theorem settle_shift {n rest : Nat} (hhere : here < length)
    (h : (control.settle length here).1 ≠ .terminated) :
    (control.shift n).settle (n + length + rest) (n + here) =
      ((control.settle length here).1, n + (control.settle length here).2) := by
  have hlt := lt_of_settle hhere h
  cases control with
  | goto place =>
    simp only [settle] at hlt
    simp only [shift, settle, if_pos hlt, if_pos (show n + place < n + length + rest by omega)]
  | pause place =>
    simp only [settle] at hlt
    simp only [shift, settle, if_pos hlt, if_pos (show n + place < n + length + rest by omega)]
  | fault k => rfl

end Control

namespace Machine

/-! ## 2. One tick -/

/-- The second machine stands in the long program where the first one stands in its own. -/
structure Embedded (q₁ q₂ : List Instruction) (t t' : Nat) (m m' : Machine) : Prop where
  program : m'.program = m.program.between q₁ q₂
  field : m'.field = m.field
  counter : ∃ c, c < m.program.length ∧ m.counter = some c ∧ m'.counter = some (q₁.length + c)
  ticks : m'.ticks + t = m.ticks + t'

/-- The next tick neither comes to the end of the program nor misses a tag. -/
def StaysInside (m : Machine) : Prop :=
  m.tick.1 ≠ .terminated ∧ m.tick.1 ≠ .fault .tagNotFound

/-- **A tick that stays inside the program is made alike in the long program.** -/
theorem Embedded.tick {q₁ q₂ : List Instruction} {t t' : Nat} {m m' : Machine}
    (h : Embedded q₁ q₂ t t' m m') (hinside : m.StaysInside) :
    Agree (Embedded q₁ q₂ t t') m.tick m'.tick := by
  obtain ⟨c, hlt, hc, hc'⟩ := h.counter
  have hlt' : q₁.length + c < m'.program.length := by
    rw [h.program, Program.length_between]
    omega
  obtain ⟨i, hi, ht⟩ := tick_of_here?_some (here?_of_lt hc hlt)
  have hi' : m'.program.get? (q₁.length + c) = some i := by
    rw [h.program, Program.get?_between hlt, hi]
  have ht' := tick_of_get? (here?_of_lt hc' hlt') hi'
  obtain ⟨hend, htag⟩ := hinside
  rw [ht] at hend htag
  have hfound : (m.program.execute c m.field i).1 ≠ .fault .tagNotFound := fun heq =>
    htag (by rw [heq]; rfl)
  rw [ht, ht', h.program, h.field, Program.execute_between hlt hfound, Program.length_between,
    Control.settle_shift hlt hend]
  refine ⟨rfl, rfl, rfl, ⟨_, Control.lt_of_settle hlt hend, rfl, rfl⟩, ?_⟩
  have hticks := h.ticks
  simp only
  omega

theorem embedded_lockstep (q₁ q₂ : List Instruction) (t t' : Nat) :
    Lockstep system system StaysInside (Embedded q₁ q₂ t t') where
  tick _ _ h hinside := h.tick hinside
  keep _ _ _ h := ⟨h.program, h.field, h.counter, h.ticks⟩

/-! ## 3. Runs -/

/-- A tick on the way of a run ends with `ok`, or it is the last one. -/
theorem tick_of_runFor {m last : Machine} {i n : Nat} (hi : i < n)
    (hrun : runFor i m = (.ok, last)) : last.tick.1 = .ok ∨ last.tick = runFor n m := by
  obtain ⟨d, rfl⟩ := Nat.exists_eq_add_of_lt hi
  rw [Nat.add_assoc, runFor_add hrun]
  by_cases hok : last.tick.1 = .ok
  · exact .inl hok
  · exact .inr (runFor_succ_of_stop hok).symm

/-- **Code does the same inside other code.**  Let a machine stand in a program, and another one,
with the same field, at the same instruction of a longer program.  If a run with a limit ends
with `ok`, a halt or a move that the edge has stopped, then the run of the other machine with this
limit ends with the same status, the same field, after the same number of ticks, and at the same
instruction. -/
theorem runLimited_between {q₁ q₂ : List Instruction} {m m' : Machine} {c n : Nat}
    (hprogram : m'.program = m.program.between q₁ q₂) (hfield : m'.field = m.field)
    (hlt : c < m.program.length) (hc : m.counter = some c)
    (hc' : m'.counter = some (q₁.length + c))
    (hs : (m.runLimited n).1 = .ok ∨ (m.runLimited n).1 = .halted ∨
      (m.runLimited n).1 = .fault .pointerOutOfRange) :
    (m'.runLimited n).1 = (m.runLimited n).1 ∧
      (m'.runLimited n).2.field = (m.runLimited n).2.field ∧
      (m'.runLimited n).2.ticks + m.ticks = (m.runLimited n).2.ticks + m'.ticks ∧
      ∃ d, (m.runLimited n).2.counter = some d ∧
        (m'.runLimited n).2.counter = some (q₁.length + d) := by
  have hstart : Embedded q₁ q₂ m.ticks m'.ticks m m' :=
    ⟨hprogram, hfield, ⟨c, hlt, hc, hc'⟩, Nat.add_comm _ _⟩
  have hinside : ∀ i < n, ∀ last, system.runFor i m = (.ok, last) → last.StaysInside := by
    intro i hi last hrun
    rw [runFor_system] at hrun
    rcases tick_of_runFor hi hrun with hok | hlast
    · simp [StaysInside, hok]
    · rw [StaysInside, hlast]
      rcases hs with hs | hs | hs <;> simp [show (runFor n m).1 = _ from hs]
  have hend := (embedded_lockstep q₁ q₂ m.ticks m'.ticks).runFor hstart hinside
  rw [runFor_system, runFor_system] at hend
  obtain ⟨hstatus, hprogram', hfield', ⟨d, -, hd, hd'⟩, hticks⟩ := hend
  exact ⟨hstatus.symm, hfield', hticks, d, hd, hd'⟩

/-- A program that sets the data bit on its second way round, and halts. -/
def goingBack : Program :=
  ⟨[.tag 3, .guarded (.data true) .halt, .guarded .always .complementData, .retreat 3,
    .guarded .always .home]⟩

/-- The same program between two tags that it could mistake for its own. -/
def goingBackBetween : Machine :=
  (new.install (goingBack.between [.tag 3] [.tag 3])).step.2

/-- It goes back to its own tag there, and halts behind it. -/
theorem runLimited_between_of_goingBack :
    goingBackBetween.counter = some 1 ∧ ((new.install goingBack).runLimited 9).1 = .halted ∧
      (goingBackBetween.runLimited 9).1 = .halted ∧
      (goingBackBetween.runLimited 9).2.counter = some 3 := by
  have hhalted : ((new.install goingBack).runLimited 9).1 = .halted := rfl
  have hprogram : goingBackBetween.program =
      (new.install goingBack).program.between [.tag 3] [.tag 3] := rfl
  have hfield : goingBackBetween.field = (new.install goingBack).field := rfl
  have hlt : 0 < (new.install goingBack).program.length := by decide
  obtain ⟨hstatus, -, -, d, hd, hd'⟩ :=
    runLimited_between hprogram hfield hlt rfl rfl (.inr (.inl hhalted))
  have htwo : d = 2 := by
    have hcounter : ((new.install goingBack).runLimited 9).2.counter = some 2 := rfl
    exact Option.some.inj (hd.symm.trans hcounter)
  subst htwo
  exact ⟨rfl, hhalted, hstatus.trans hhalted, hd'⟩

end Machine

end OneBit
