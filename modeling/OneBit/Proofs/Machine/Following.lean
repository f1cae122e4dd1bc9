/-
# Runs that are followed

A run can be FOLLOWED: it is then made step by step, and each step leaves an entry in a log.  This
makes no difference to what the run comes to.  Under the same limit a run that is followed ends with
the same status, after the same ticks (`follow_eq`); without a limit it ends exactly if the run ends
(`followAll_eq`).  The log has the steps that were made, from the first to the last.

One thing can tell the two machines apart, the status that they keep.  The run keeps the status that
it ended with, which is `ok` if the limit has ended it.  The run that is followed keeps the status of
its last step, and that is `stepped` then; without a step it keeps what it was.
-/
import OneBit.Machine.Trace
import OneBit.Proofs.Machine.Halting
import OneBit.Proofs.Machine.Slices

namespace OneBit.Machine

/-! ## 1. The first step -/

theorem follow_succ_of_ok {m : Machine} (h : m.tick.1 = .ok) (n : Nat) :
    follow (n + 1) m = (m.stepEntry :: (follow n m.step.2).1, (follow n m.step.2).2) := by
  have hstep : m.stepEntry.status = .stepped := by
    rw [stepEntry, step_eq, h]
    rfl
  simp only [follow, if_pos hstep]
  rfl

theorem follow_succ_of_stop {m : Machine} (h : m.tick.1 ≠ .ok) (n : Nat) :
    follow (n + 1) m = ([m.stepEntry], record m.tick) := by
  have hstep : m.step = record m.tick := by
    rw [step_eq]
    cases hs : m.tick.1 with
    | ok => exact absurd hs h
    | _ => rw [record, record, hs]; rfl
  have hne : m.stepEntry.status ≠ .stepped := by
    rw [stepEntry, hstep]
    exact m.tick_ne_stepped
  simp only [follow, if_neg hne]
  rw [← hstep]
  rfl

/-- After a step that could go on the machine is the one after the tick, but for the status. -/
theorem sameButStatus_step (m : Machine) : m.tick.2.SameButStatus m.step.2 := by
  rw [step_eq]
  exact ⟨rfl, rfl, rfl, rfl⟩

/-! ## 2. Following with a limit -/

/-- **A run that is followed comes to what the run comes to**, but for the kept status, and its log
has the steps that were made. -/
theorem follow_runFor (n : Nat) (m : Machine) :
    (follow n m).1 = m.steps (follow n m).1.length ∧
      (follow n m).2.1 = (runFor n m).1 ∧ (runFor n m).2.SameButStatus (follow n m).2.2 := by
  induction n generalizing m with
  | zero => exact ⟨rfl, rfl, rfl, rfl, rfl, rfl⟩
  | succ n ih =>
    by_cases h : m.tick.1 = .ok
    · obtain ⟨hlog, hstatus, hsame⟩ := ih m.step.2
      obtain ⟨hrun, hnext⟩ := m.sameButStatus_step.runFor n
      rw [follow_succ_of_ok h, runFor_succ_of_tick_ok h]
      refine ⟨?_, hstatus.trans hrun.symm, hnext.trans hsame⟩
      rw [List.length_cons, steps, ← hlog]
    · rw [follow_succ_of_stop h, runFor_succ_of_stop h]
      exact ⟨rfl, rfl, rfl, rfl, rfl, rfl⟩

/-- The kept status is that of the last step, if there was one. -/
theorem status_follow (n : Nat) (m : Machine) :
    (follow n m).2.2.status = if n = 0 then m.status else (runFor n m).1.ofStep := by
  induction n generalizing m with
  | zero => rfl
  | succ n ih =>
    rw [if_neg (Nat.succ_ne_zero n)]
    by_cases h : m.tick.1 = .ok
    · rw [follow_succ_of_ok h, runFor_succ_of_tick_ok h, ih, (m.sameButStatus_step.runFor n).1]
      by_cases hn : n = 0
      · rw [if_pos hn, hn, runFor_zero, step_eq, h]
        rfl
      · rw [if_neg hn]
    · rw [follow_succ_of_stop h, runFor_succ_of_stop h]
      cases hs : m.tick.1 with
      | ok => exact absurd hs h
      | _ => exact hs

/-- **To follow a run with a limit**, from a machine that keeps the status `ok`: the status is that
of the run, and the machine is the one after the run, which keeps the status of the last step if
there was one. -/
theorem follow_eq {m : Machine} (h : m.status = .ok) (n : Nat) :
    follow n m =
      (m.steps (follow n m).1.length, (m.runLimited n).1,
        { (m.runLimited n).2 with
          status := if n = 0 then .ok else (m.runLimited n).1.ofStep }) := by
  obtain ⟨hlog, hstatus, hsame⟩ := follow_runFor n m
  have hkept := status_follow n m
  rw [h] at hkept
  refine Prod.ext hlog (Prod.ext hstatus ?_)
  rw [hsame.eq_update, hkept]
  rfl

/-! ## 3. Following without a limit -/

/-- A run whose limit did not end it can be followed to its end, and comes to the same. -/
theorem follow_of_ne_ok {n : Nat} {m : Machine} (hok : (runFor n m).1 ≠ .ok) :
    follow n m = (m.steps (follow n m).1.length, record (runFor n m)) := by
  obtain ⟨hlog, hstatus, hsame⟩ := follow_runFor n m
  have hn : n ≠ 0 := by
    rintro rfl
    exact hok rfl
  have hkept : (follow n m).2.2.status = (runFor n m).1 := by
    rw [status_follow, if_neg hn]
    cases hs : (runFor n m).1 with
    | ok => exact absurd hs hok
    | _ => rfl
  refine Prod.ext hlog (Prod.ext hstatus ?_)
  rw [hsame.eq_update, hkept]
  rfl

/-- **A run without a limit can be followed to its end exactly if it has one**, and then it comes to
the same, with the same kept status. -/
theorem followAll_eq (m : Machine) :
    m.followAll = m.run.map fun r => (m.steps (follow m.runBound m).1.length, r) := by
  simp only [followAll, run, stopped?, (follow_runFor m.runBound m).2.1]
  by_cases hok : (runFor m.runBound m).1 = .ok
  · rw [if_pos hok, if_pos hok, Option.map_none]
  · rw [if_neg hok, if_neg hok, Option.map_some, ← follow_of_ne_ok hok]

end OneBit.Machine
