/-
# Faults and what comes after them

A fault is no harm to the data: the tick that raises it leaves the grid, the flag and the pointer
as they are, and the counter at the instruction that failed (`fault_cases`).  Even the move that
the edge stops writes the pointer only where it was.

So the machine is STUCK: whatever call is made next, it tries the same instruction on the same
field, raises the same fault, and nothing changes but the number of ticks (`Stuck.call`).  Only
an edit or another program can get it away from there.
-/
import OneBit.Proofs.Machine.Halting

namespace OneBit

/-- How many ticks a fault counts.  Without a program no tick is made. -/
def Fault.ticks : Fault → Nat
  | noProgramLoaded => 0
  | _ => 1

/-! ## 1. The tick that raises a fault -/

/-- Only an instruction that fails ends with a fault. -/
theorem Control.eq_fault_of_settle {length here : Nat} {control : Control} {k : Fault}
    (h : (control.settle length here).1 = .fault k) : control = .fault k := by
  cases control with
  | goto place =>
    simp only [settle] at h
    split at h <;> exact absurd h (by simp)
  | pause place =>
    simp only [settle] at h
    split at h <;> exact absurd h (by simp)
  | fault k' =>
    cases h
    rfl

/-- An instruction that fails does nothing to the field. -/
theorem Program.Effect.of_fault {p : Program} {here : Nat} {f g : Field} {i : Instruction}
    {k : Fault} (h : p.Effect here f i (.fault k) g) : g = f ∧ k.ticks = 1 := by
  cases h with
  | noTag => exact ⟨rfl, rfl⟩
  | edge => exact ⟨rfl, rfl⟩

namespace Machine

/-- **A tick that raises a fault** finds no program and changes nothing, or it fails to carry out
an instruction, and then takes the counter there and counts itself. -/
theorem fault_cases {m : Machine} {k : Fault} (h : m.tick.1 = .fault k) :
    (m.here? = none ∧ k = .noProgramLoaded ∧ m.tick.2 = m) ∨
      ∃ here i, m.here? = some here ∧ m.program.get? here = some i ∧
        m.program.execute here m.field i = (.fault k, m.field) ∧ k.ticks = 1 ∧
        m.tick.2 = { m with counter := some here, ticks := m.ticks + 1 } := by
  cases hhere : m.here? with
  | none =>
    rw [tick_of_here?_none hhere] at h ⊢
    cases h
    exact .inl ⟨rfl, rfl, rfl⟩
  | some here =>
    obtain ⟨i, hi, ht⟩ := tick_of_here?_some hhere
    rw [ht] at h
    have heff := m.program.execute_effect here m.field i
    have hcontrol := Control.eq_fault_of_settle h
    rw [hcontrol] at heff
    obtain ⟨hfield, hticks⟩ := heff.of_fault
    refine .inr ⟨here, i, rfl, hi, Prod.ext hcontrol hfield, hticks, ?_⟩
    rw [ht, hcontrol, hfield]
    rfl

/-! ## 2. Stuck machines -/

/-- The next tick raises the fault, and the counter is where the tick finds its instruction. -/
structure Stuck (m : Machine) (k : Fault) : Prop where
  fault : m.tick.1 = .fault k
  here : m.here? = m.counter

/-- **A fault leaves the machine stuck.** -/
theorem Placed.stuck {m : Machine} {k : Fault} (h : m.Placed) (hk : m.tick.1 = .fault k) :
    m.tick.2.Stuck k := by
  rcases fault_cases hk with ⟨hhere, -, ht⟩ | ⟨here, i, hhere, -, -, -, ht⟩
  · rw [ht]
    exact ⟨hk, by rw [hhere, h.counter_of_here? hhere]⟩
  · have hlt : here < m.program.length := lt_of_here? hhere
    have hsame : m.tick.2.here? = some here := by
      rw [ht]
      exact here?_of_lt rfl hlt
    refine ⟨?_, by rw [hsame, ht]⟩
    -- Field and next place are what they were, so the next tick ends as this one did.
    have halike : m.tick.2.Alike m := ⟨by rw [ht], by rw [ht], by rw [hsame, hhere]⟩
    rw [halike.tick.1, hk]

namespace Stuck

variable {m m' : Machine} {k : Fault}

/-- Neither the kept status nor the number of ticks helps. -/
theorem congr (h : m.Stuck k) (hp : m.program = m'.program) (hf : m.field = m'.field)
    (hc : m.counter = m'.counter) : m'.Stuck k := by
  have halike : m.Alike m' := ⟨hp, hf, here?_congr hp hc⟩
  exact ⟨by rw [← halike.tick.1, h.fault], by rw [← halike.here, h.here, hc]⟩

/-- A tick of a stuck machine only counts itself. -/
theorem tick_eq (h : m.Stuck k) :
    m.tick = (.fault k, { m with ticks := m.ticks + k.ticks }) := by
  refine Prod.ext h.fault ?_
  rcases fault_cases h.fault with ⟨-, rfl, ht⟩ | ⟨here, i, hhere, -, -, hticks, ht⟩
  · rw [ht]
    rfl
  · rw [ht, ← hhere, h.here, hticks]

/-- **Every call of a stuck machine raises the same fault again**, and changes nothing but the
number of ticks. -/
theorem call (h : m.Stuck k) {c : Call} (hc : c ≠ .runLimited 0) :
    m.call c =
      some (.fault k, { m with status := .fault k, ticks := m.ticks + k.ticks }) := by
  have hstop : m.StopsAt 0 := ⟨fun i hi => absurd hi (Nat.not_lt_zero i), by simp [after, h.fault]⟩
  have htick : record m.tick =
      (.fault k, { m with status := .fault k, ticks := m.ticks + k.ticks }) := by
    rw [h.tick_eq]
    rfl
  cases c with
  | run => rw [Machine.call, hstop.run, after, htick]
  | step =>
    rw [Machine.call, step_eq, h.tick_eq]
    rfl
  | runLimited limit =>
    have hpos : 0 < limit := Nat.pos_of_ne_zero fun hzero => hc (by rw [hzero])
    rw [Machine.call, runLimited, hstop.runFor_of_lt hpos, after, htick]

/-- So does every sequence of calls. -/
theorem history_eq (h : m.Stuck k) {cs : List Call} (hcs : .runLimited 0 ∉ cs) :
    m.history cs = (List.range cs.length).map fun i =>
      (.fault k, { m with status := .fault k, ticks := m.ticks + (i + 1) * k.ticks }) := by
  induction cs generalizing m with
  | nil => rfl
  | cons c cs ih =>
    rw [List.mem_cons, not_or] at hcs
    obtain ⟨hc, hcs⟩ := hcs
    have hnext : ({ m with status := .fault k, ticks := m.ticks + k.ticks } : Machine).Stuck k :=
      h.congr rfl rfl rfl
    rw [history_cons (h.call (Ne.symm hc)), ih hnext hcs, List.length_cons,
      List.range_succ_eq_map, List.map_cons, List.map_map, Nat.zero_add, Nat.one_mul]
    congr 1
    refine List.map_congr_left fun i _ => ?_
    simp only [Function.comp_apply, Nat.succ_eq_add_one, Nat.add_mul, Nat.one_mul]
    congr 2
    omega

end Stuck

/-! ## 3. Calls that end with a fault -/

/-- The counter after a fault is the place that the tick went to. -/
theorem Placed.counter_of_fault {m : Machine} {k : Fault} (h : m.Placed)
    (hk : m.tick.1 = .fault k) : m.tick.2.counter = m.here? := by
  rcases fault_cases hk with ⟨hhere, -, ht⟩ | ⟨here, i, hhere, -, -, -, ht⟩
  · rw [ht, hhere, h.counter_of_here? hhere]
  · rw [ht, hhere]

/-- **Faults leave the data alone and are raised again.**  If a call of a reachable machine ends
with a fault, its last tick has raised it, and this tick has left the field as it was.  The
counter is at the instruction that failed, which is the first one if the tick came back from
behind the end; without a program there is still no counter.  From there every call that may
make a tick ends with the same fault, and leaves field, program and counter as they are; it
counts one tick, or none without a program. -/
theorem fault_retried {m m' : Machine} {c : Call} {k : Fault} (hm : m.Reached)
    (hc : m.call c = some (.fault k, m')) :
    (∃ i last, runFor i m = (.ok, last) ∧ last.tick.1 = .fault k ∧
      m' = { last.tick.2 with status := .fault k } ∧
      m'.field = last.field ∧ m'.program = last.program ∧
      (last.counter = none → m'.counter = none) ∧
      (∀ n, last.counter = some n →
        m'.counter = some (if n < last.program.length then n else 0)) ∧
      (m'.counter = none ∧ k = .noProgramLoaded ∨
        ∃ here i, m'.counter = some here ∧ m'.program.get? here = some i ∧
          m'.program.execute here m'.field i = (.fault k, m'.field))) ∧
    ∀ cs : List Call, .runLimited 0 ∉ cs →
      m'.history cs = (List.range cs.length).map fun i =>
        (.fault k, { m' with ticks := m'.ticks + (i + 1) * k.ticks }) := by
  rcases call_cases hc with ⟨hs, -⟩ | ⟨i, last, hrun, rfl, hs⟩
  · exact absurd hs (by simp)
  · have hk : last.tick.1 = .fault k := by
      rcases hs with hs | ⟨hs, -⟩
      · exact hs.symm
      · exact absurd hs (by simp)
    have hplaced : last.Placed := by
      have h := (Settled.of_reached hm).placed.runFor i
      rwa [hrun] at h
    refine ⟨⟨i, last, hrun, hk, rfl, ?_, last.program_tick, ?_, ?_, ?_⟩, ?_⟩
    · rcases fault_cases hk with ⟨-, -, ht⟩ | ⟨_, _, -, -, -, -, ht⟩ <;> rw [ht]
    · intro hnone
      have hhere : last.here? = none := by simp only [here?, hnone]
      exact (hplaced.counter_of_fault hk).trans hhere
    · intro n hn
      exact (hplaced.counter_of_fault hk).trans (here?_of_counter hplaced.counter_none_iff hn)
    · rcases fault_cases hk with ⟨hhere, hno, ht⟩ | ⟨here, i, hhere, hi, hexec, -, ht⟩
      · exact .inl ⟨(hplaced.counter_of_fault hk).trans hhere, hno⟩
      · refine .inr ⟨here, i, (hplaced.counter_of_fault hk).trans hhere, ?_, ?_⟩
        · rw [ht]
          exact hi
        · rw [ht]
          exact hexec
    · intro cs hcs
      have hstuck : ({ last.tick.2 with status := .fault k } : Machine).Stuck k :=
        (hplaced.stuck hk).congr rfl rfl rfl
      exact hstuck.history_eq hcs

/-- A machine that has come to its end, with a first instruction that the edge will stop. -/
def turnedBack : Machine :=
  ((new.install ⟨[.guarded (.flag true) (.move .left), .guarded .always (.setFlag true)]⟩).runLimited
    5).2

theorem turnedBack_reached : turnedBack.Reached :=
  .act (.call (.runLimited 5)) (.act (.install _) .new rfl) rfl

/-- A fault at the top, met from behind the end, and met again by the three kinds of calls. -/
theorem fault_retried_of_turnedBack :
    turnedBack.Reached ∧ turnedBack.counter = some 2 ∧
      ∃ m', turnedBack.call .step = some (.fault .pointerOutOfRange, m') ∧
        m'.counter = some 0 ∧ m'.field = turnedBack.field ∧
        (m'.history [.run, .step, .runLimited 7]).map (fun r => r.2.ticks) = [4, 5, 6] := by
  have hcall : turnedBack.call .step =
      some (.fault .pointerOutOfRange, turnedBack.step.2) := rfl
  obtain ⟨-, hagain⟩ := fault_retried turnedBack_reached hcall
  refine ⟨turnedBack_reached, rfl, _, hcall, rfl, rfl, ?_⟩
  rw [hagain [.run, .step, .runLimited 7] (by decide)]
  rfl

end Machine

end OneBit
