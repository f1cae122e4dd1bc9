/-
# When a run ends

A program of length `L` keeps the machine running for at most `L * 2 ^ 265` ticks, or for ever
(`halting_bound`).  A tick depends on the program, the field and the place of the next
instruction only: two machines that are ALIKE in these stay alike, and their ticks end with the
same statuses (`Alike.tick`).  There are `L * 2 ^ 265` combinations of a place and a field.
So after as many ticks that end with `ok` the machine has been alike before, and a machine that
is alike to what it has been goes round in a circle (`ok_of_alike`).

Hence a run with the limit `runBound` tells whether the run without a limit ends, which is how
`Machine.run` finds its answer.  `call_system` says that this is the answer of the loop itself.
-/
import OneBit.Proofs.Field.Count
import OneBit.Proofs.Machine.Drive
import OneBit.Proofs.Machine.Settled
import Mathlib.Data.Fintype.Pigeonhole

namespace OneBit

namespace Machine

/-! ## 1. What a tick depends on -/

/-- The two machines have the same program, the same field and the same next place. -/
structure Alike (m m' : Machine) : Prop where
  program : m.program = m'.program
  field : m.field = m'.field
  here : m.here? = m'.here?

theorem Alike.symm {m m' : Machine} (h : m.Alike m') : m'.Alike m :=
  ⟨h.program.symm, h.field.symm, h.here.symm⟩

/-- The next place is known from the program and the counter. -/
theorem here?_congr {m m' : Machine} (hp : m.program = m'.program)
    (hc : m.counter = m'.counter) : m.here? = m'.here? := by
  simp only [here?, hp, hc]

/-- Where only a program without an instruction lacks a counter, the next place is the counter, or
the top if the counter is behind the end. -/
theorem here?_of_counter {m : Machine} (h : m.counter = none ↔ m.program.isEmpty = true) {c : Nat}
    (hc : m.counter = some c) : m.here? = some (if c < m.program.length then c else 0) := by
  have hne : ¬ m.program.isEmpty = true := fun hempty => by
    rw [h.mpr hempty] at hc
    exact absurd hc (by simp)
  simp only [here?, hc, if_neg hne]

/-- A counter in the program is the next place. -/
theorem here?_of_lt {m : Machine} {c : Nat} (hc : m.counter = some c)
    (hlt : c < m.program.length) : m.here? = some c := by
  have hne : ¬ m.program.isEmpty = true := by
    rw [Program.isEmpty_iff]
    omega
  simp only [here?, hc, if_neg hne, if_pos hlt]

/-- Machines that are alike carry out the same instruction, so their ticks end alike in all but
the kept status and the number of ticks. -/
theorem Alike.tick_eq {m m' : Machine} (h : m.Alike m') {n : Nat} (hhere : m.here? = some n) :
    m'.tick = (m.tick.1,
      { m' with
        field := m.tick.2.field
        counter := m.tick.2.counter
        ticks := m'.ticks + 1 }) := by
  obtain ⟨i, hi, ht⟩ := tick_of_here?_some hhere
  rw [h.program, h.field] at ht
  rw [h.program] at hi
  rw [ht, tick_of_get? (h.here ▸ hhere) hi]

/-- **Ticks of machines that are alike end with the same status**, and leave them alike.  Neither
the kept status nor the number of ticks has an influence. -/
theorem Alike.tick {m m' : Machine} (h : m.Alike m') : Agree Alike m.tick m'.tick := by
  cases hhere : m.here? with
  | none =>
    rw [tick_of_here?_none hhere, tick_of_here?_none (h.here ▸ hhere)]
    exact ⟨rfl, h⟩
  | some n =>
    have hprogram : m.tick.2.program = m'.program := m.program_tick.trans h.program
    rw [h.tick_eq hhere]
    exact ⟨rfl, hprogram, rfl, here?_congr hprogram rfl⟩

/-! ## 2. Ticks one after the other -/

/-- The machine after `n` ticks, whatever they end with. -/
def after (m : Machine) : Nat → Machine
  | 0 => m
  | n + 1 => (m.after n).tick.2

/-- Tick number `k`, counted from 0, is the first that does not end with `ok`. -/
def StopsAt (m : Machine) (k : Nat) : Prop :=
  (∀ i < k, (m.after i).tick.1 = .ok) ∧ (m.after k).tick.1 ≠ .ok

theorem after_succ (m : Machine) (n : Nat) : m.after (n + 1) = m.tick.2.after n := by
  induction n with
  | zero => rfl
  | succ n ih => rw [after, ih, after]

theorem after_add (m : Machine) (a b : Nat) : m.after (a + b) = (m.after a).after b := by
  induction b with
  | zero => rfl
  | succ b ih => rw [← Nat.add_assoc, after, ih, after]

theorem program_after (m : Machine) (n : Nat) : (m.after n).program = m.program := by
  induction n with
  | zero => rfl
  | succ n ih => rw [after, program_tick, ih]

/-- A run goes on for `n` ticks if each of them ends with `ok`. -/
theorem runFor_of_ok {m : Machine} {n : Nat} (h : ∀ i < n, (m.after i).tick.1 = .ok) :
    runFor n m = (.ok, m.after n) := by
  induction n generalizing m with
  | zero => rfl
  | succ n ih =>
    have hfirst : m.tick.1 = .ok := h 0 (Nat.succ_pos n)
    have hrest : ∀ i < n, (m.tick.2.after i).tick.1 = .ok := by
      intro i hi
      rw [← after_succ]
      exact h (i + 1) (Nat.succ_lt_succ hi)
    rw [runFor_succ_of_tick_ok hfirst, ih hrest, after_succ]

/-- A run whose limit lets it come to the tick that stops it ends with this tick. -/
theorem StopsAt.runFor_of_lt {m : Machine} {k n : Nat} (h : m.StopsAt k) (hkn : k < n) :
    runFor n m = (m.after k).tick := by
  obtain ⟨b, rfl⟩ := Nat.exists_eq_add_of_lt hkn
  rw [Nat.add_assoc, runFor_add (runFor_of_ok h.1), runFor_succ_of_stop h.2]

/-- Either some tick is the first that does not end with `ok`, or all ticks do. -/
theorem stopsAt_or_forall_ok (m : Machine) :
    (∃ k, m.StopsAt k) ∨ ∀ i, (m.after i).tick.1 = .ok := by
  classical
  by_cases h : ∃ k, (m.after k).tick.1 ≠ .ok
  · refine .inl ⟨Nat.find h, ?_, Nat.find_spec h⟩
    intro i hi
    exact not_not.mp (Nat.find_min h hi)
  · refine .inr fun i => ?_
    exact not_not.mp fun hne => h ⟨i, hne⟩

/-- A limit either ends the run, or lets it come to the tick that stops it. -/
theorem forall_ok_or_stopsAt (m : Machine) (n : Nat) :
    (∀ i < n, (m.after i).tick.1 = .ok) ∨ ∃ k < n, m.StopsAt k := by
  rcases m.stopsAt_or_forall_ok with ⟨k, hk⟩ | hall
  · by_cases hkn : k < n
    · exact .inr ⟨k, hkn, hk⟩
    · exact .inl fun i hi => hk.1 i (by omega)
  · exact .inl fun i _ => hall i

/-! ## 3. Circles -/

/-- Machines that are alike stay so. -/
theorem Alike.after {m m' : Machine} (h : m.Alike m') (n : Nat) :
    (m.after n).Alike (m'.after n) := by
  induction n with
  | zero => exact h
  | succ n ih => exact ih.tick.2

/-- **A machine that is alike to what it has been never stops.** -/
theorem ok_of_alike {m : Machine} {i j : Nat} (hij : i < j)
    (hok : ∀ k < j, (m.after k).tick.1 = .ok) (halike : (m.after i).Alike (m.after j)) (n : Nat) :
    (m.after n).tick.1 = .ok := by
  induction n using Nat.strongRecOn with
  | ind n ih =>
    by_cases hn : n < j
    · exact hok n hn
    · -- The tick is made once more, as many ticks after `j` as it was made after `i`.
      obtain ⟨d, rfl⟩ := Nat.exists_eq_add_of_le (Nat.le_of_not_lt hn)
      have hsame := (halike.after d).tick.1
      rw [after_add, ← hsame, ← after_add]
      exact ih (i + d) (by omega)

/-- A tick that ended with `ok` leaves the machine with a next place. -/
theorem here?_of_tick_ok {m : Machine} (h : m.tick.1 = .ok) : ∃ n, m.tick.2.here? = some n := by
  obtain ⟨c, hc, hlt⟩ := counter_of_tick_ok h
  exact ⟨c, here?_of_lt hc hlt⟩

/-- A tick that ended with `ok` had an instruction to carry out. -/
theorem here?_of_ok {m : Machine} (h : m.tick.1 = .ok) : ∃ n, m.here? = some n := by
  rcases tick_cases m with ⟨-, ht⟩ | ⟨n, -, -, -, hhere, -⟩
  · rw [ht] at h
    exact absurd h (by simp)
  · exact ⟨n, hhere⟩

/-- After ticks that all ended with `ok`, the machine stands at a place of its program. -/
theorem exists_place {m : Machine} {n k : Nat} (hok : ∀ i < n, (m.after i).tick.1 = .ok)
    (hpos : 0 < n) (hk : k ≤ n) :
    ∃ place : Fin m.program.length, (m.after k).here? = some place.val := by
  obtain ⟨place, hplace⟩ : ∃ place, (m.after k).here? = some place := by
    cases k with
    | zero => exact here?_of_ok (hok 0 hpos)
    | succ k => exact here?_of_tick_ok (hok k hk)
  have hlt := lt_of_here? hplace
  rw [program_after] at hlt
  exact ⟨⟨place, hlt⟩, hplace⟩

/-- **After as many ticks as there are places and fields, the machine has been alike before.** -/
theorem exists_alike {m : Machine} (hne : m.program.isEmpty = false)
    (hok : ∀ k < m.program.length * fieldCount, (m.after k).tick.1 = .ok) :
    ∃ i j, i < j ∧ j ≤ m.program.length * fieldCount ∧ (m.after i).Alike (m.after j) := by
  have hlength : 0 < m.program.length := by
    rw [Nat.pos_iff_ne_zero, Ne, ← Program.isEmpty_iff, hne]
    exact Bool.false_ne_true
  have hpos := Nat.mul_pos hlength fieldCount_pos
  generalize hbound : m.program.length * fieldCount = bound at hok hpos ⊢
  choose place hplace using fun k : Fin (bound + 1) =>
    exists_place hok hpos (Nat.le_of_lt_succ k.isLt)
  -- There are more machines on the way, the first and the last included, than combinations.
  have hcard : Fintype.card (Fin m.program.length × Field) < Fintype.card (Fin (bound + 1)) := by
    rw [Fintype.card_prod, Fintype.card_fin, Fintype.card_fin, Field.card_field, hbound]
    exact Nat.lt_succ_self _
  obtain ⟨i, j, hij, hsame⟩ := Fintype.exists_ne_map_eq_of_card_lt
    (fun k : Fin (bound + 1) => (place k, (m.after k).field)) hcard
  simp only [Prod.mk.injEq] at hsame
  have halike : (m.after i).Alike (m.after j) :=
    ⟨by rw [program_after, program_after], hsame.2, by rw [hplace, hplace, hsame.1]⟩
  rcases Nat.lt_or_gt_of_ne (Fin.val_ne_of_ne hij) with h | h
  · exact ⟨i, j, h, Nat.le_of_lt_succ j.isLt, halike⟩
  · exact ⟨j, i, h, Nat.le_of_lt_succ i.isLt, halike.symm⟩

/-- A program that stops the machine does so within the bound. -/
theorem StopsAt.lt {m : Machine} {k : Nat} (h : m.StopsAt k)
    (hne : m.program.isEmpty = false) : k < m.program.length * fieldCount := by
  by_contra hk
  have hok : ∀ i < m.program.length * fieldCount, (m.after i).tick.1 = .ok := fun i hi =>
    h.1 i (by omega)
  obtain ⟨i, j, hij, hj, halike⟩ := exists_alike hne hok
  exact h.2 (ok_of_alike hij (fun k hk => hok k (by omega)) halike k)

/-! ## 4. The run without a limit -/

/-- The tick that stops the machine comes within the bound of the run. -/
theorem StopsAt.lt_runBound {m : Machine} {k : Nat} (h : m.StopsAt k) : k < m.runBound := by
  cases hempty : m.program.isEmpty with
  | false => exact Nat.lt_succ_of_lt (h.lt hempty)
  | true =>
    -- Without an instruction no tick ends with `ok`, so the first one stops the machine.
    cases k with
    | zero => exact Nat.succ_pos _
    | succ k =>
      obtain ⟨n, hn⟩ := here?_of_ok (h.1 0 (Nat.succ_pos k))
      have hlt := lt_of_here? hn
      rw [program_after, Program.isEmpty_iff.mp hempty] at hlt
      exact absurd hlt (Nat.not_lt_zero n)

/-- A run ends with the first tick that does not end with `ok`. -/
theorem StopsAt.run {m : Machine} {k : Nat} (h : m.StopsAt k) :
    m.run = some (record (m.after k).tick) := by
  rw [Machine.run, h.runFor_of_lt h.lt_runBound, stopped?, if_neg h.2]

/-- A run whose ticks all end with `ok` has no answer. -/
theorem run_of_forall_ok {m : Machine} (h : ∀ i, (m.after i).tick.1 = .ok) : m.run = none := by
  rw [Machine.run, runFor_of_ok fun i _ => h i, stopped?, if_pos rfl]

/-- **The answer of a run is that of the loop**, which has no bound. -/
theorem run_eq_loop (m : Machine) : m.run = (system.loop m).map record := by
  rcases m.stopsAt_or_forall_ok with ⟨k, hk⟩ | hok
  · have hrun : system.runFor (k + 1) m = (m.after k).tick := by
      rw [runFor_system, hk.runFor_of_lt (Nat.lt_succ_self k)]
    rw [hk.run, System.loop_eq_runFor (n := k + 1) (by rw [hrun]; exact hk.2), hrun,
      Option.map_some]
  · have hloop : system.loop m = none := by
      rw [System.loop_eq_none_iff]
      intro n
      rw [runFor_system, runFor_of_ok fun i _ => hok i]
    rw [run_of_forall_ok hok, hloop, Option.map_none]

/-- A run with a limit that did not end it is the run without one. -/
theorem run_of_runFor {m : Machine} {n : Nat} (h : (runFor n m).1 ≠ .ok) :
    m.run = some (record (runFor n m)) := by
  rw [run_eq_loop, System.loop_eq_runFor (n := n) (by rwa [runFor_system]), runFor_system,
    Option.map_some]

/-- A run that a first tick does not stop is the run of what this tick leaves. -/
theorem run_of_tick_ok {m : Machine} (h : m.tick.1 = .ok) : m.run = m.tick.2.run := by
  rw [run_eq_loop, run_eq_loop, System.loop_of_ok (S := system) h]
  rfl

/-- A run that its first tick stops ends with this tick. -/
theorem run_of_tick_stop {m : Machine} (h : m.tick.1 ≠ .ok) : m.run = some (record m.tick) := by
  rw [run_eq_loop, System.loop_of_stop (S := system) h]
  rfl

/-- **The calls of the machine are those of a system.** -/
theorem call_system (m : Machine) (c : Call) : system.call m c = m.call c := by
  cases c with
  | run => exact (run_eq_loop m).symm
  | step => exact congrArg some m.step_eq.symm
  | runLimited limit => exact congrArg (fun r => some (record r)) (runFor_system limit m)

theorem history_eq_answers (m : Machine) (cs : List Call) :
    m.history cs = answers system.call m cs := by
  have hcall : Machine.call = system.call := by
    funext m c
    exact (call_system m c).symm
  rw [history, hcall]

/-- **The halting bound.**  In a program of length `L` with an instruction, let the first
`L * 2 ^ 265` ticks end with `ok`.  Then all later ticks do, the run without a limit never ends,
and every run with a limit ends with `ok`.  So a run either ends within the bound or never; and
if tick number `k` stops it, every limit above `k` gives the same answer, and every other limit
gives `ok`.  The reason is that a machine never stops if two different ticks find the same field
and the same next place, and all ticks up to the second end with `ok`. -/
theorem halting_bound {m : Machine} (hne : m.program.isEmpty = false) :
    ((∀ i < m.program.length * 2 ^ 265, (m.after i).tick.1 = .ok) →
      (∀ i, (m.after i).tick.1 = .ok) ∧ m.run = none ∧ ∀ n, (m.runLimited n).1 = .ok) ∧
    (m.run = none ∨ ∃ k < m.program.length * 2 ^ 265, m.StopsAt k) ∧
    (∀ k, m.StopsAt k →
      m.run = some (record (m.after k).tick) ∧
        (∀ n, k < n → m.runLimited n = record (m.after k).tick) ∧
        ∀ n, n ≤ k → (m.runLimited n).1 = .ok) ∧
    m.run = (system.loop m).map record ∧
    (∀ i j, i < j → (∀ k < j, (m.after k).tick.1 = .ok) →
      (m.after i).field = (m.after j).field → (m.after i).here? = (m.after j).here? →
        ∀ k, (m.after k).tick.1 = .ok) := by
  have hcircle : ∀ i j, i < j → (∀ k < j, (m.after k).tick.1 = .ok) →
      (m.after i).field = (m.after j).field → (m.after i).here? = (m.after j).here? →
        ∀ k, (m.after k).tick.1 = .ok := by
    intro i j hij hok hfield hhere k
    exact ok_of_alike hij hok ⟨by rw [program_after, program_after], hfield, hhere⟩ k
  rw [← fieldCount_eq]
  refine ⟨?_, ?_, ?_, m.run_eq_loop, hcircle⟩
  · intro hok
    have hall : ∀ k, (m.after k).tick.1 = .ok := by
      obtain ⟨i, j, hij, hj, halike⟩ := exists_alike hne hok
      exact hcircle i j hij (fun k hk => hok k (Nat.lt_of_lt_of_le hk hj)) halike.field halike.here
    refine ⟨hall, run_of_forall_ok hall, fun n => ?_⟩
    rw [runLimited, record, runFor_of_ok fun i _ => hall i]
  · rcases m.stopsAt_or_forall_ok with ⟨k, hk⟩ | hall
    · exact .inr ⟨k, hk.lt hne, hk⟩
    · exact .inl (run_of_forall_ok hall)
  · intro k hk
    refine ⟨hk.run, fun n hn => ?_, fun n hn => ?_⟩
    · rw [runLimited, hk.runFor_of_lt hn]
    · rw [runLimited, record, runFor_of_ok fun i hi => hk.1 i (Nat.lt_of_lt_of_le hi hn)]

/-- A machine that goes back to its first tag for ever. -/
def spinning : Machine := new.install ⟨[.tag 0, .retreat 0]⟩

/-- The bound at that machine, which is after two ticks what it was before. -/
theorem halting_bound_of_spinning : spinning.program.isEmpty = false ∧ spinning.run = none := by
  have hne : spinning.program.isEmpty = false := rfl
  obtain ⟨hbound, -, -, -, hcircle⟩ := halting_bound hne
  have hok : ∀ k, (spinning.after k).tick.1 = .ok :=
    hcircle 0 2 Nat.two_pos (by decide) rfl rfl
  exact ⟨hne, (hbound fun i _ => hok i).2.1⟩

end Machine

end OneBit
