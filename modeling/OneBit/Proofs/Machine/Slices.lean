/-
# Slices of a run

A host that wants to keep the machine under control makes a run in SLICES: steps, and runs with
a limit.  `runLimited_of_slices` says that the slices do not matter.  As long as the program can
go on after each of them, what they come to together is what one run with the sum of their
limits comes to, and the status of the last slice is the status of that run.  A step that could
go on says `stepped` where the run says `ok`; there is no other difference.

The reason is that the status which the machine keeps has no influence on its ticks
(`status_lockstep`), so a slice can be taken for a piece of the run (`call_of_limit`), and runs
that go on can be put together (`runFor_add`).
-/
import OneBit.Proofs.Machine.Drive
import OneBit.Proofs.Machine.Tick
import Mathlib.Algebra.GroupWithZero.Nat

namespace OneBit

namespace Machine

/-! ## 1. The kept status has no influence -/

/-- Two machines that are equal but for the status they keep. -/
structure SameButStatus (m m' : Machine) : Prop where
  field : m.field = m'.field
  program : m.program = m'.program
  counter : m.counter = m'.counter
  ticks : m.ticks = m'.ticks

namespace SameButStatus

variable {m m' m'' : Machine}

theorem trans (h : m.SameButStatus m') (h' : m'.SameButStatus m'') : m.SameButStatus m'' :=
  ⟨h.field.trans h'.field, h.program.trans h'.program, h.counter.trans h'.counter,
    h.ticks.trans h'.ticks⟩

/-- Such machines differ in a record update. -/
theorem eq_update (h : m.SameButStatus m') : m' = { m with status := m'.status } := by
  obtain ⟨f, p, c, s, t⟩ := m
  obtain ⟨f', p', c', s', t'⟩ := m'
  obtain ⟨hf, hp, hc, ht⟩ := h
  simp only at hf hp hc ht
  subst hf hp hc ht
  rfl

end SameButStatus

/-- A tick hands the kept status on. -/
theorem tick_update (m : Machine) (s : Status) :
    ({ m with status := s } : Machine).tick = (m.tick.1, { m.tick.2 with status := s }) := by
  have hhere : ({ m with status := s } : Machine).here? = m.here? := rfl
  cases h : m.here? with
  | none => rw [tick_of_here?_none h, tick_of_here?_none (hhere.trans h)]
  | some n =>
    obtain ⟨i, hi, ht⟩ := tick_of_here?_some h
    rw [ht, tick_of_get? (hhere.trans h) hi]

/-- **The kept status has no influence on a tick.** -/
theorem status_lockstep : Lockstep system system (fun _ => True) SameButStatus where
  tick m m' h _ := by
    rw [h.eq_update]
    simp only [Agree, system, tick_update, true_and]
    exact ⟨rfl, rfl, rfl, rfl⟩
  keep _ _ _ h := ⟨h.field, h.program, h.counter, h.ticks⟩

/-- The kept status has no influence on a run. -/
theorem SameButStatus.runFor {m m' : Machine} (h : m.SameButStatus m') (n : Nat) :
    Agree SameButStatus (Machine.runFor n m) (Machine.runFor n m') := by
  rw [← runFor_system, ← runFor_system]
  exact status_lockstep.runFor h fun _ _ _ _ => trivial

/-! ## 2. One slice -/

/-- No tick ends with `stepped`; that status is for steps. -/
theorem tick_ne_stepped (m : Machine) : m.tick.1 ≠ .stepped := by
  rcases tick_cases m with ⟨-, ht⟩ | ⟨here, i, control, field, -, -, -, ht⟩
  · rw [ht]
    simp
  · rw [ht]
    cases control with
    | goto place =>
      simp only [Control.settle]
      split <;> simp
    | pause place =>
      simp only [Control.settle]
      split <;> simp
    | fault k => simp [Control.settle]

theorem runFor_ne_stepped (n : Nat) (m : Machine) : (runFor n m).1 ≠ .stepped := by
  cases n with
  | zero => simp
  | succ n =>
    obtain ⟨k, last, -, hlast⟩ := runFor_succ_eq_tick n m
    rw [hlast]
    exact tick_ne_stepped last

theorem runFor_one (m : Machine) : runFor 1 m = m.tick := by
  by_cases h : m.tick.1 = .ok
  · rw [runFor_succ_of_tick_ok h, runFor_zero]
    exact Prod.ext h.symm rfl
  · exact runFor_succ_of_stop h

/-- The status `s` is that of a slice which, taken as a run, ends with `s'`. -/
def SliceOf (s s' : Status) : Prop := s = s' ∨ s = .stepped ∧ s' = .ok

/-- **A slice is a piece of a run**: a call with a limit has an answer, and it is the answer of
the run with this limit, but for the name of the status after a step. -/
theorem call_of_limit (m : Machine) {c : Call} {limit : Nat} (h : c.limit? = some limit) :
    ∃ s m', m.call c = some (s, m') ∧ m'.status = s ∧
      (runFor limit m).2.SameButStatus m' ∧ SliceOf s (runFor limit m).1 := by
  cases c with
  | run => exact absurd h (by simp [Call.limit?])
  | step =>
    cases h
    refine ⟨_, _, congrArg some (step_eq m), rfl, ?_, ?_⟩
    · rw [runFor_one]
      exact ⟨rfl, rfl, rfl, rfl⟩
    · rw [runFor_one]
      cases hs : m.tick.1 with
      | ok => exact .inr ⟨rfl, rfl⟩
      | _ => exact .inl rfl
  | runLimited n =>
    cases h
    exact ⟨_, _, rfl, rfl, ⟨rfl, rfl, rfl, rfl⟩, .inl rfl⟩

/-- A slice that can go on is a piece of a run that can go on. -/
theorem SliceOf.eq_ok {s s' : Status} (h : SliceOf s s') (hs : s = .ok ∨ s = .stepped)
    (hne : s' ≠ .stepped) : s' = .ok := by
  rcases h with rfl | ⟨-, hok⟩
  · exact hs.resolve_right hne
  · exact hok

/-! ## 3. Slices one after the other -/

/-- Calls with limits all have answers. -/
theorem length_history {cs : List Call} {limits : List Nat}
    (h : cs.map Call.limit? = limits.map some) (m : Machine) :
    (m.history cs).length = cs.length := by
  induction cs generalizing m limits with
  | nil => rfl
  | cons c cs ih =>
    cases limits with
    | nil => exact absurd h (by simp)
    | cons l ls =>
      simp only [List.map_cons, List.cons.injEq] at h
      obtain ⟨s, m', hcall, -⟩ := m.call_of_limit h.1
      rw [history_cons hcall, List.length_cons, List.length_cons, ih h.2]

/-- Slices that could go on, and a last one, are together a run with the sum of the limits. -/
theorem runFor_of_history {cs : List Call} {limits : List Nat}
    (hlimits : cs.map Call.limit? = limits.map some) {m m' : Machine} {s : Status}
    {log : List (Status × Machine)} (hlog : m.history cs = log ++ [(s, m')])
    (hgo : ∀ r ∈ log, r.1 = .ok ∨ r.1 = .stepped) :
    m'.status = s ∧ (runFor limits.sum m).2.SameButStatus m' ∧
      SliceOf s (runFor limits.sum m).1 := by
  induction cs generalizing m limits log with
  | nil => exact absurd hlog (by simp [history, answers])
  | cons c cs ih =>
    cases limits with
    | nil => exact absurd hlimits (by simp)
    | cons l ls =>
      simp only [List.map_cons, List.cons.injEq] at hlimits
      obtain ⟨s₁, m₁, hcall, hstatus, hsame, hslice⟩ := m.call_of_limit hlimits.1
      rw [history_cons hcall] at hlog
      cases log with
      | nil =>
        -- This slice is the last one, since calls with limits do not lack answers.
        simp only [List.nil_append, List.cons.injEq, Prod.mk.injEq] at hlog
        obtain ⟨⟨rfl, rfl⟩, hnil⟩ := hlog
        have hcs : cs.length = 0 := by rw [← length_history hlimits.2 m₁, hnil, List.length_nil]
        have hls : ls = [] := by
          rw [List.length_eq_zero_iff.mp hcs] at hlimits
          simpa using hlimits.2.symm
        subst hls
        simpa using ⟨hstatus, hsame, hslice⟩
      | cons r log =>
        simp only [List.cons_append, List.cons.injEq] at hlog
        obtain ⟨rfl, hlog⟩ := hlog
        have hok : (runFor l m).1 = .ok :=
          hslice.eq_ok (hgo _ List.mem_cons_self) (runFor_ne_stepped l m)
        have hsum : runFor (l :: ls).sum m = runFor ls.sum (runFor l m).2 := by
          rw [List.sum_cons, runFor_add (Prod.ext hok rfl)]
        obtain ⟨hlast, hrest, hend⟩ :=
          ih hlimits.2 hlog fun r hr => hgo r (List.mem_cons_of_mem _ hr)
        obtain ⟨hsame₁, hsame₂⟩ := hsame.runFor ls.sum
        rw [hsum, hsame₁]
        exact ⟨hlast, hsame₂.trans hrest, hend⟩

/-- **How a run is cut into slices does not matter.**  Steps and runs with limits, none of which
but the last has stopped the program, leave field, program, counter and number of ticks as one
run with the sum of their limits leaves them.  That run ends with `ok` exactly if the last slice
could go on, and otherwise with the status of the last slice.  The kept statuses differ at most
in `stepped` for `ok`. -/
theorem runLimited_of_slices {m : Machine} {cs : List Call} {limits : List Nat} (hne : cs ≠ [])
    (hlimits : cs.map Call.limit? = limits.map some)
    (hgo : ∀ r ∈ (m.history cs).dropLast, r.1 = .ok ∨ r.1 = .stepped) :
    (m.history cs).length = cs.length ∧
    ∃ s m', (m.history cs).getLast? = some (s, m') ∧
      (m.runLimited limits.sum).2.field = m'.field ∧
      (m.runLimited limits.sum).2.program = m'.program ∧
      (m.runLimited limits.sum).2.counter = m'.counter ∧
      (m.runLimited limits.sum).2.ticks = m'.ticks ∧
      ((m.runLimited limits.sum).1 = .ok ↔ s = .ok ∨ s = .stepped) ∧
      (¬(s = .ok ∨ s = .stepped) → (m.runLimited limits.sum).1 = s) ∧
      ((m.runLimited limits.sum).2.status = m'.status ∨
        (m.runLimited limits.sum).2.status = .ok ∧ m'.status = .stepped) := by
  have hlength := length_history hlimits m
  have hnil : m.history cs ≠ [] := by
    rw [← List.length_pos_iff, hlength]
    exact List.length_pos_iff.mpr hne
  obtain ⟨log, ⟨s, m'⟩, hlog⟩ := (List.eq_nil_or_concat' (m.history cs)).resolve_left hnil
  rw [hlog, List.dropLast_concat] at hgo
  obtain ⟨hstatus, hsame, hslice⟩ := runFor_of_history hlimits hlog hgo
  refine ⟨hlength, s, m', by rw [hlog, List.getLast?_concat], hsame.field, hsame.program,
    hsame.counter, hsame.ticks, ?_, ?_, ?_⟩
  · refine ⟨?_, fun hs => hslice.eq_ok hs (runFor_ne_stepped _ m)⟩
    intro hok
    rcases hslice with hs | ⟨hs, -⟩
    · exact .inl (hs.trans hok)
    · exact .inr hs
  · intro hstop
    rcases hslice with hs | ⟨hs, -⟩
    · exact hs.symm
    · exact absurd (.inr hs) hstop
  · rw [hstatus]
    rcases hslice with hs | ⟨hs, hok⟩
    · exact .inl hs.symm
    · exact .inr ⟨hok, hs⟩

/-- A machine with a program that sets a bit and halts twice. -/
def haltingTwice : Machine :=
  new.install ⟨[.guarded .always (.setData true), .guarded .always .halt, .guarded .always .halt]⟩

/-- A step, no tick, and at most three ticks, of which one was made: as a run with limit 4. -/
theorem runLimited_of_slices_halting :
    [Call.step, .runLimited 0, .runLimited 3].map Call.limit? = [1, 0, 3].map some ∧
      (∀ r ∈ (haltingTwice.history [.step, .runLimited 0, .runLimited 3]).dropLast,
        r.1 = .ok ∨ r.1 = .stepped) ∧
      (haltingTwice.runLimited 4).1 = .halted := by
  have hlimits : [Call.step, .runLimited 0, .runLimited 3].map Call.limit? =
      [1, 0, 3].map some := rfl
  have hgo : ∀ r ∈ (haltingTwice.history [.step, .runLimited 0, .runLimited 3]).dropLast,
      r.1 = .ok ∨ r.1 = .stepped := by decide
  obtain ⟨-, s, m', hlast, -, -, -, -, -, hstop, -⟩ :=
    runLimited_of_slices (List.cons_ne_nil _ _) hlimits hgo
  have hhalted : s = .halted := by
    have hmap := congrArg (Option.map Prod.fst) hlast
    exact (Option.some.inj hmap).symm
  subst hhalted
  exact ⟨hlimits, hgo, hstop (by decide)⟩

end Machine

end OneBit
