/-
# Programs that go forward

Only a retreat can take control back.  Every other instruction that lets the machine go on leaves
the counter further down than it was: at the next place, behind it after a skip, or at a tag that a
search forward has found, and such a search is strict (`here?_tick_of_ok`).  So a stretch of `n`
ticks without a retreat takes the machine at least `n` places down (`exists_here?_after`), and there
are no more places than the program is long.

This bounds every run of a program without retreats: it ends before it has made more ticks than
there are places from the counter to the end (`goes_back_by_retreat`).  It is the one general
statement that a run ends at all, since a run has no limit of its own.
-/
import OneBit.Proofs.Machine.Halting
import OneBit.Proofs.Machine.Visits
import OneBit.Proofs.Program.Nearest

namespace OneBit

/-! ## 1. One instruction -/

/-- Only a retreat makes a search backward. -/
theorem Instruction.eq_retreat_of_search {i : Instruction} {id : UInt8}
    (h : i.search? = some (id, .backward)) : i = .retreat id := by
  cases i with
  | retreat id' =>
    cases h
    rfl
  | advance id' => cases h
  | tag id' => cases h
  | guarded guard op => cases h

/-- **An instruction that goes on goes forward**, if it is no retreat. -/
theorem Program.Effect.here_lt {p : Program} {here : Nat} {f g : Field} {i : Instruction}
    {control : Control} (h : p.Effect here f i control g) (hno : ∀ id, i ≠ .retreat id)
    (hok : (control.settle p.length here).1 = .ok) :
    here < (control.settle p.length here).2 := by
  cases h with
  | next => exact Nat.lt_succ_self here
  | skip => exact Nat.lt_add_of_pos_right Nat.two_pos
  | halt => exact Nat.lt_succ_self here
  | @jump id side place hsearch hfound =>
    cases side with
    | forward => exact (findTag_eq_some_iff.mp hfound).2.1
    | backward => exact absurd (Instruction.eq_retreat_of_search hsearch) (hno id)
  | noTag => cases hok
  | edge => cases hok

namespace Machine

/-! ## 2. A stretch of ticks -/

variable {m : Machine} {here n : Nat}

/-- After a tick that goes on and is no retreat, the next place is further down. -/
theorem here?_tick_of_ok (hhere : m.here? = some here) (hok : m.tick.1 = .ok)
    (hno : ∀ id, m.instruction? ≠ some (.retreat id)) :
    ∃ next, m.tick.2.here? = some next ∧ m.tick.2.counter = some next ∧ here < next := by
  obtain ⟨i, hi, ht⟩ := tick_of_here?_some hhere
  have hinstruction : m.instruction? = some i := by rw [instruction?, hhere, Option.bind_some, hi]
  have heff := m.program.execute_effect here m.field i
  rw [ht] at hok ⊢
  have hlt := heff.here_lt (fun id heq => hno id (heq ▸ hinstruction)) hok
  exact ⟨_, here?_of_lt rfl (heff.lt_of_ok hok), rfl, hlt⟩

/-- **Each tick of a stretch without a retreat goes at least one place down.** -/
theorem exists_here?_after (hhere : m.here? = some here)
    (hok : ∀ i < n, (m.after i).tick.1 = .ok)
    (hno : ∀ i < n, ∀ id, (m.after i).instruction? ≠ some (.retreat id)) :
    ∃ place, (m.after n).here? = some place ∧ here + n ≤ place := by
  induction n with
  | zero => exact ⟨here, hhere, Nat.le_refl here⟩
  | succ n ih =>
    obtain ⟨place, hplace, hle⟩ := ih (fun i hi => hok i (Nat.lt_succ_of_lt hi))
      (fun i hi => hno i (Nat.lt_succ_of_lt hi))
    obtain ⟨next, hnext, -, hlt⟩ :=
      here?_tick_of_ok hplace (hok n (Nat.lt_succ_self n)) (hno n (Nat.lt_succ_self n))
    exact ⟨next, hnext, by omega⟩

/-- Such a stretch ends before the program does. -/
theorem here_add_lt (hhere : m.here? = some here) (hok : ∀ i < n, (m.after i).tick.1 = .ok)
    (hno : ∀ i < n, ∀ id, (m.after i).instruction? ≠ some (.retreat id)) :
    here + n < m.program.length := by
  obtain ⟨place, hplace, hle⟩ := exists_here?_after hhere hok hno
  have hlt := lt_of_here? hplace
  rw [program_after] at hlt
  exact Nat.lt_of_le_of_lt hle hlt

/-- A program without retreats never carries one out. -/
theorem instruction?_after_ne (h : ∀ id, .retreat id ∉ m.program.instructions) (n : Nat)
    (id : UInt8) : (m.after n).instruction? ≠ some (.retreat id) := by
  intro hinstruction
  obtain ⟨place, -, hi⟩ := Option.bind_eq_some_iff.mp hinstruction
  rw [program_after] at hi
  exact h id (List.mem_of_getElem? hi)

/-! ## 3. Runs -/

/-- A program without retreats stops the machine somewhere. -/
theorem exists_stopsAt (h : ∀ id, .retreat id ∉ m.program.instructions) : ∃ k, m.StopsAt k := by
  rcases m.stopsAt_or_forall_ok with hstops | hall
  · exact hstops
  · -- Otherwise a stretch as long as the program would leave no place to be at.
    obtain ⟨here, hhere⟩ := here?_of_ok (hall 0)
    have hlt := here_add_lt (n := m.program.length) hhere (fun i _ => hall i)
      (fun i _ => instruction?_after_ne h i)
    exact absurd hlt (Nat.not_lt.mpr (Nat.le_add_left _ _))

/-- Ticks that have an instruction to carry out are counted. -/
theorem ticks_after (h : ∀ i < n, (m.after i).here? ≠ none) :
    (m.after n).ticks = m.ticks + n := by
  induction n with
  | zero => rfl
  | succ n ih =>
    rw [after, ticks_tick_of_here? (h n (Nat.lt_succ_self n)),
      ih fun i hi => h i (Nat.lt_succ_of_lt hi)]
    rfl

/-- A machine that has an instruction to start with counts each tick up to the one that stops it. -/
theorem StopsAt.ticks_tick {k : Nat} (h : m.StopsAt k) (hhere : m.here? ≠ none) :
    (m.after k).tick.2.ticks = m.ticks + (k + 1) := by
  refine ticks_after (n := k + 1) fun i hi => ?_
  cases i with
  | zero => exact hhere
  | succ i =>
    obtain ⟨next, hnext⟩ := here?_of_tick_ok (h.1 i (Nat.lt_of_succ_lt_succ hi))
    simp [after, hnext]

/-- **Control goes back through retreats only, and a program without them always stops.**  A tick
that goes on to the place where it was, or to one before it, has carried out a retreat.  In a
program of length `L`, among any `L` ticks one after the other that all end with `ok` at least one
carries out a retreat.  So a run of a program without retreats has an answer, on every field and
with every counter: from a counter `c` in the program it makes at most `L - c` ticks, and from a
counter behind the end at most `L`. -/
theorem goes_back_by_retreat (m : Machine) :
    (∀ here next, m.here? = some here → m.tick.1 = .ok → m.tick.2.counter = some next →
      next ≤ here → ∃ id, m.instruction? = some (.retreat id)) ∧
    (m.program.isEmpty = false → (∀ i < m.program.length, (m.after i).tick.1 = .ok) →
      ∃ i < m.program.length, ∃ id, (m.after i).instruction? = some (.retreat id)) ∧
    ((∀ id, .retreat id ∉ m.program.instructions) →
      ∃ r, m.run = some r ∧
        ∀ c, m.counter = some c → m.program.isEmpty = false →
          ∃ k, m.StopsAt k ∧ r = record (m.after k).tick ∧ r.2.ticks = m.ticks + (k + 1) ∧
            (c < m.program.length → k + 1 ≤ m.program.length - c) ∧
            (m.program.length ≤ c → k + 1 ≤ m.program.length)) := by
  refine ⟨?_, ?_, ?_⟩
  · intro here next hhere hok hnext hle
    by_contra hno
    obtain ⟨next', -, hcounter, hlt⟩ := here?_tick_of_ok hhere hok (not_exists.mp hno)
    rw [hnext] at hcounter
    cases hcounter
    exact absurd hlt (Nat.not_lt.mpr hle)
  · intro hne hok
    by_contra hno
    have hpos : 0 < m.program.length := by
      rw [Nat.pos_iff_ne_zero, Ne, ← Program.isEmpty_iff, hne]
      exact Bool.false_ne_true
    obtain ⟨here, hhere⟩ := here?_of_ok (hok 0 hpos)
    have hlt := here_add_lt hhere hok fun i hi id hid => hno ⟨i, hi, id, hid⟩
    exact absurd hlt (Nat.not_lt.mpr (Nat.le_add_left _ _))
  · intro hforward
    obtain ⟨k, hk⟩ := exists_stopsAt hforward
    refine ⟨_, hk.run, fun c hc hne => ⟨k, hk, rfl, ?_⟩⟩
    have hhere : m.here? = some (if c < m.program.length then c else 0) :=
      here?_of_counter (by simp [hc, hne]) hc
    have hlt := here_add_lt hhere hk.1 fun i _ => instruction?_after_ne hforward i
    refine ⟨hk.ticks_tick (by simp [hhere]), fun hc => ?_, fun hc => ?_⟩
    · rw [if_pos hc] at hlt
      omega
    · rw [if_neg (Nat.not_lt.mpr hc)] at hlt
      omega

/-- A machine that jumps over a halt, and then skips out of its program. -/
def onward : Machine :=
  new.install ⟨[.advance 1, .guarded .always .halt, .tag 1, .guarded .always .skip,
    .guarded .always .halt]⟩

/-- That machine stops in time, and the one that goes round in a circle does so by a retreat. -/
theorem goes_back_by_retreat_of_onward :
    (∀ id, .retreat id ∉ onward.program.instructions) ∧
      (∃ r, onward.run = some r ∧ r.2.ticks ≤ 5) ∧
      (∀ i < 2, (spinning.after i).tick.1 = .ok) ∧
      ∃ i < 2, ∃ id, (spinning.after i).instruction? = some (.retreat id) := by
  have hforward : ∀ id, .retreat id ∉ onward.program.instructions := by
    intro id hmem
    simp [onward, install] at hmem
  have hok : ∀ i < 2, (spinning.after i).tick.1 = .ok := by decide
  obtain ⟨-, -, hruns⟩ := goes_back_by_retreat onward
  obtain ⟨-, hcircle, -⟩ := goes_back_by_retreat spinning
  obtain ⟨r, hrun, hbound⟩ := hruns hforward
  obtain ⟨k, -, -, hticks, hle, -⟩ := hbound 0 rfl rfl
  refine ⟨hforward, ⟨r, hrun, ?_⟩, hok, hcircle rfl hok⟩
  rw [hticks]
  exact (Nat.zero_add (k + 1)).trans_le (hle (by decide))

end Machine

end OneBit
