/-
# The log of a run

A run that is followed leaves a log of its steps.  Entry number `k`, counted from 0, is about tick
number `k`: it has the machine before this tick, the machine after it, and its status
(`getElem?_steps`).  The log ends with the tick that stops the machine, or at the limit
(`length_follow_of_ok`, `StopsAt.length_follow`).

A machine that was just loaded with a program is FRESH: it stands at the top and has not ticked.
While it goes on, its counter stays in the program, so the next instruction is the one at the
counter itself, and the rewind behind the end is never needed (`Fresh.counter`).  Each of its ticks
is counted, and so the log has as many entries as the machine counts ticks (`Fresh.ticks_runFor`).
-/
import OneBit.Proofs.Machine.Following

namespace OneBit.Machine

/-! ## 1. The entries of a log -/

/-- The kept status has no influence on the ticks that follow. -/
theorem SameButStatus.after {m m' : Machine} (h : m.SameButStatus m') (n : Nat) :
    (m.after n).SameButStatus (m'.after n) := by
  induction n with
  | zero => exact h
  | succ n ih => exact (status_lockstep.tick _ _ ih trivial).2

theorem SameButStatus.tick {m m' : Machine} (h : m.SameButStatus m') : m.tick.1 = m'.tick.1 :=
  (status_lockstep.tick _ _ h trivial).1

/-- After a step the machine makes the ticks that it makes after the tick. -/
theorem after_step (m : Machine) (n : Nat) :
    (m.after (n + 1)).SameButStatus (m.step.2.after n) := by
  rw [after_succ]
  exact m.sameButStatus_step.after n

/-- A run that the limit ends has as many entries as the limit allows. -/
theorem length_follow_of_ok {m : Machine} {n : Nat} (h : ∀ i < n, (m.after i).tick.1 = .ok) :
    (follow n m).1.length = n := by
  induction n generalizing m with
  | zero => rfl
  | succ n ih =>
    have hfirst : m.tick.1 = .ok := h 0 (Nat.succ_pos n)
    have hrest : ∀ i < n, (m.step.2.after i).tick.1 = .ok := by
      intro i hi
      rw [← (m.after_step i).tick]
      exact h (i + 1) (Nat.succ_lt_succ hi)
    rw [follow_succ_of_ok hfirst, List.length_cons, ih hrest]

/-- The tick that stops the machine has the last entry. -/
theorem StopsAt.length_follow {m : Machine} {k n : Nat} (h : m.StopsAt k) (hkn : k < n) :
    (follow n m).1.length = k + 1 := by
  obtain ⟨n, rfl⟩ := Nat.exists_eq_add_of_lt hkn
  induction k generalizing m with
  | zero =>
    have hfirst : m.tick.1 ≠ .ok := h.2
    rw [follow_succ_of_stop hfirst, List.length_singleton]
  | succ k ih =>
    have hfirst : m.tick.1 = .ok := h.1 0 (Nat.succ_pos k)
    have hrest : m.step.2.StopsAt k := by
      refine ⟨fun i hi => ?_, ?_⟩
      · rw [← (m.after_step i).tick]
        exact h.1 (i + 1) (Nat.succ_lt_succ hi)
      · rw [← (m.after_step k).tick]
        exact h.2
    have hshift : k + 1 + n + 1 = k + n + 1 + 1 := by omega
    rw [hshift, follow_succ_of_ok hfirst, List.length_cons, ih hrest (by omega)]

/-- The machine has a program, stands at its top, and has not ticked. -/
structure Fresh (m : Machine) : Prop where
  program : m.program.isEmpty = false
  counter : m.counter = some 0
  ticks : m.ticks = 0

/-- **The counter stays in the program** as long as the machine goes on, and the next instruction is
the one at the counter. -/
theorem Fresh.exists_counter {m : Machine} (h : m.Fresh) {k : Nat}
    (hok : ∀ i < k, (m.after i).tick.1 = .ok) :
    ∃ c i, (m.after k).counter = some c ∧ m.program.get? c = some i ∧
      (m.after k).instruction? = some i := by
  obtain ⟨c, hc, hlt⟩ : ∃ c, (m.after k).counter = some c ∧ c < (m.after k).program.length := by
    cases k with
    | zero =>
      refine ⟨0, h.counter, Nat.pos_of_ne_zero fun hzero => ?_⟩
      have hempty := Program.isEmpty_iff.mpr hzero
      rw [Machine.after, h.program] at hempty
      exact Bool.false_ne_true hempty
    | succ k => exact counter_of_tick_ok (hok k (Nat.lt_succ_self k))
  obtain ⟨i, hi⟩ : ∃ i, (m.after k).program.get? c = some i := ⟨_, List.getElem?_eq_getElem hlt⟩
  refine ⟨c, i, hc, ?_, ?_⟩
  · rwa [← m.program_after k]
  · rw [instruction?, here?_of_lt hc hlt, Option.bind_some, hi]

/-- A machine that carries out an instruction counts the tick. -/
theorem ticks_tick_of_instruction? {m : Machine} {i : Instruction} (h : m.instruction? = some i) :
    m.tick.2.ticks = m.ticks + 1 := by
  obtain ⟨n, hhere, -⟩ := Option.bind_eq_some_iff.mp h
  obtain ⟨_, -, ht⟩ := tick_of_here?_some hhere
  rw [ht]

/-- Each tick is counted, up to the one that stops the machine. -/
theorem Fresh.ticks_after {m : Machine} (h : m.Fresh) {k : Nat}
    (hok : ∀ i, i + 1 < k → (m.after i).tick.1 = .ok) : (m.after k).ticks = k := by
  induction k with
  | zero => exact h.ticks
  | succ k ih =>
    obtain ⟨c, i, -, -, hi⟩ := h.exists_counter (k := k) fun j hj => hok j (Nat.succ_lt_succ hj)
    rw [Machine.after, ticks_tick_of_instruction? hi, ih fun j hj => hok j (by omega)]

/-- **The log has as many entries as the run counts ticks.** -/
theorem Fresh.ticks_runFor {m : Machine} (h : m.Fresh) (n : Nat) :
    (runFor n m).2.ticks = (follow n m).1.length := by
  rcases m.forall_ok_or_stopsAt n with hok | ⟨k, hkn, hk⟩
  · rw [length_follow_of_ok hok, runFor_of_ok hok]
    exact h.ticks_after fun i hi => hok i (by omega)
  · rw [hk.length_follow hkn, hk.runFor_of_lt hkn]
    exact h.ticks_after (k := k + 1) fun i hi => hk.1 i (by omega)

end OneBit.Machine
