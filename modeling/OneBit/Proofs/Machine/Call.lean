/-
# Calls, and the machines that a host can reach

The machine is driven by three CALLS: a run, a step, and a run with a limit.  Whatever the
call, its last tick decides the status that is returned and kept, and the ticks before it all
ended with `ok` (`call_cases`).  The one call without a last tick is the run with limit zero.

Between the calls a host may load or install a program, edit the field, put another field in
its place, or build a new machine around it.  `Reached` holds of the machines that come of a
new machine by any such actions in any order.
-/
import OneBit.Machine.Run
import OneBit.Proofs.Field.Edit

namespace OneBit

/-! ## 1. Calls -/

/-- A way to drive the machine. -/
inductive Call
  | run
  | step
  | runLimited (limit : Nat)
deriving DecidableEq, Repr

/-- The call that resumes the machine in a mode. -/
def Mode.call : Mode → Call
  | run => .run
  | step => .step

namespace Machine

/-- Make a call.  There is no answer if it is a run that never ends. -/
def call (m : Machine) : Call → Option (Status × Machine)
  | .run => m.run
  | .step => some m.step
  | .runLimited limit => some (m.runLimited limit)

theorem resume_eq_call (m : Machine) (mode : Mode) : m.resume mode = m.call mode.call := by
  cases mode <;> rfl

theorem runFor_succ_of_tick_ok {m : Machine} (hs : m.tick.1 = .ok) (n : Nat) :
    runFor (n + 1) m = runFor n m.tick.2 :=
  runFor_succ_of_ok (Prod.ext hs rfl)

/-- **What a tick keeps, a run keeps.** -/
theorem runFor_invariant {P : Machine → Prop} (htick : ∀ m, P m → P m.tick.2) (n : Nat) :
    ∀ m, P m → P (runFor n m).2 := by
  induction n with
  | zero => exact fun m hm => hm
  | succ n ih =>
    intro m hm
    by_cases hs : m.tick.1 = .ok
    · rw [runFor_succ_of_tick_ok hs]
      exact ih _ (htick m hm)
    · rw [runFor_succ_of_stop hs]
      exact htick m hm

/-- A run that may make a tick ends with one, and all ticks before it ended with `ok`. -/
theorem runFor_succ_eq_tick (n : Nat) (m : Machine) :
    ∃ k last, runFor k m = (.ok, last) ∧ runFor (n + 1) m = last.tick := by
  induction n generalizing m with
  | zero =>
    refine ⟨0, m, rfl, ?_⟩
    by_cases hs : m.tick.1 = .ok
    · rw [runFor_succ_of_tick_ok hs, runFor_zero]
      exact Prod.ext hs.symm rfl
    · exact runFor_succ_of_stop hs
  | succ n ih =>
    by_cases hs : m.tick.1 = .ok
    · obtain ⟨k, last, hk, hlast⟩ := ih m.tick.2
      refine ⟨k + 1, last, ?_, ?_⟩
      · rw [runFor_succ_of_tick_ok hs, hk]
      · rw [runFor_succ_of_tick_ok hs, hlast]
    · exact ⟨0, m, rfl, runFor_succ_of_stop hs⟩

/-- A run that has an answer is a run with some limit, which did not end it. -/
theorem run_eq_some {m : Machine} {r : Status × Machine} (h : m.run = some r) :
    ∃ n, (runFor n m).1 ≠ .ok ∧ r = record (runFor n m) := by
  refine ⟨m.runBound, ?_⟩
  unfold run stopped? at h
  split at h
  · exact absurd h (by simp)
  · rename_i hne
    exact ⟨hne, (Option.some.inj h).symm⟩

/-- **What a call can come to.**  Either it is a run with limit zero, or it ends with a tick
after ticks that ended with `ok`; the status is that of the tick, or `stepped` in place of
`ok`. -/
theorem call_cases {m m' : Machine} {c : Call} {s : Status} (h : m.call c = some (s, m')) :
    (s = .ok ∧ m' = { m with status := .ok }) ∨
      ∃ k last, runFor k m = (.ok, last) ∧ m' = { last.tick.2 with status := s } ∧
        (s = last.tick.1 ∨ s = .stepped ∧ last.tick.1 = .ok) := by
  cases c with
  | run =>
    obtain ⟨n, hne, hr⟩ := run_eq_some h
    cases n with
    | zero => exact absurd rfl hne
    | succ n =>
      obtain ⟨k, last, hk, hlast⟩ := runFor_succ_eq_tick n m
      rw [hlast] at hr
      simp only [record, Prod.mk.injEq] at hr
      obtain ⟨rfl, rfl⟩ := hr
      exact .inr ⟨k, last, hk, rfl, .inl rfl⟩
  | step =>
    refine .inr ⟨0, m, rfl, ?_⟩
    simp only [call, step, Option.some.injEq] at h
    split at h
    · rename_i next ht
      simp only [record, Prod.mk.injEq] at h
      obtain ⟨rfl, rfl⟩ := h
      rw [ht]
      exact ⟨rfl, .inr ⟨rfl, rfl⟩⟩
    · rename_i next _ ht
      simp only [record, Prod.mk.injEq] at h
      obtain ⟨rfl, rfl⟩ := h
      rw [ht]
      exact ⟨rfl, .inl rfl⟩
  | runLimited limit =>
    simp only [call, runLimited, Option.some.injEq] at h
    cases limit with
    | zero =>
      simp only [runFor_zero, record, Prod.mk.injEq] at h
      exact .inl ⟨h.1.symm, h.2.symm⟩
    | succ n =>
      obtain ⟨k, last, hk, hlast⟩ := runFor_succ_eq_tick n m
      rw [hlast] at h
      simp only [record, Prod.mk.injEq] at h
      obtain ⟨rfl, rfl⟩ := h
      exact .inr ⟨k, last, hk, rfl, .inl rfl⟩

end Machine

/-! ## 2. Actions of a host -/

/-- What a host can do with the machine. -/
inductive Action
  /-- Build a new machine around the field. -/
  | renew
  | load (source : String)
  | install (program : Program)
  | call (call : Call)
  | edit (edit : Edit)
  | replaceField (field : Field)

namespace Machine

/-- The machine after an action.  There is none if the action is a run that never ends. -/
def act (m : Machine) : Action → Option Machine
  | .renew => some (ofField m.field)
  | .load source => some (m.load source).2
  | .install p => some (m.install p)
  | .call c => (m.call c).map fun r => r.2
  | .edit e => some { m with field := m.field.after e }
  | .replaceField f => some { m with field := f }

/-- A host can bring a new machine into this state. -/
inductive Reached : Machine → Prop
  | new : Reached Machine.new
  | act {m m' : Machine} (a : Action) (before : Reached m) (step : m.act a = some m') :
      Reached m'

end Machine

end OneBit
