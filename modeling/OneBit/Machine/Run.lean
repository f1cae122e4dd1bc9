/-
# Runs

A run makes ticks as long as they end with `ok`.  It may have a limit on the number of ticks;
when the limit ends it, its status is `ok` too, since the program can go on.  A step is one
tick, with the status `stepped` if the program can go on.

A run without a limit may never end, and `run` answers `none` then.  It finds out with a limit
that no run exceeds that ends at all: where the machine goes on depends on the field and on the
place of the next instruction only, so a machine that has made more ticks than there are pairs
of these has been in one of them twice, and will be there again and again.
-/
import OneBit.Machine.Tick

namespace OneBit

/-- The number of fields: 256 bits, the flag, 256 places for the pointer. -/
def fieldCount : Nat := Nat.pow 2 256 * 2 * 256

namespace Machine

/-- Make at most `n` ticks. -/
def runFor : Nat → Machine → Status × Machine
  | 0, m => (.ok, m)
  | n + 1, m =>
    match m.tick with
    | (.ok, next) => runFor n next
    | (status, next) => (status, next)

/-- Keep the status of a run. -/
def record (r : Status × Machine) : Status × Machine := (r.1, { r.2 with status := r.1 })

/-- Run with a limit on the number of ticks. -/
def runLimited (m : Machine) (limit : Nat) : Status × Machine := record (runFor limit m)

/-- A limit that no run exceeds that ends at all. -/
def runBound (m : Machine) : Nat := m.program.length * fieldCount + 1

/-- The answer of a run, if something has stopped it. -/
def stopped? (r : Status × Machine) : Option (Status × Machine) :=
  if r.1 = .ok then none else some (record r)

/-- Run until something stops the program.  There is no answer if nothing ever does. -/
def run (m : Machine) : Option (Status × Machine) := stopped? (runFor m.runBound m)

/-- Make one tick. -/
def step (m : Machine) : Status × Machine :=
  match m.tick with
  | (.ok, next) => record (.stepped, next)
  | (status, next) => record (status, next)

/-- Run or step. -/
def resume (m : Machine) : Mode → Option (Status × Machine)
  | .run => m.run
  | .step => some m.step

/-! ## The first tick of a run -/

@[simp] theorem runFor_zero (m : Machine) : runFor 0 m = (.ok, m) := rfl

theorem runFor_succ_of_ok {m next : Machine} {n : Nat} (h : m.tick = (.ok, next)) :
    runFor (n + 1) m = runFor n next := by
  simp [runFor, h]

theorem runFor_succ_of_stop {m : Machine} {n : Nat} (h : m.tick.1 ≠ .ok) :
    runFor (n + 1) m = m.tick := by
  unfold runFor
  split
  · rename_i heq
    exact absurd (congrArg Prod.fst heq) h
  · rename_i heq
    exact heq.symm

/-- **A run that goes on can be cut anywhere.** -/
theorem runFor_add {m next : Machine} {a : Nat} (h : runFor a m = (.ok, next)) (b : Nat) :
    runFor (a + b) m = runFor b next := by
  induction a generalizing m with
  | zero =>
    cases h
    rw [Nat.zero_add]
  | succ a ih =>
    rw [Nat.succ_add]
    cases ht : m.tick with
    | mk s m' =>
      by_cases hs : s = .ok
      · subst hs
        rw [runFor_succ_of_ok ht] at h ⊢
        exact ih h
      · have hne : m.tick.1 ≠ .ok := by rw [ht]; exact hs
        rw [runFor_succ_of_stop hne, ht] at h
        cases h
        exact absurd rfl hs

end Machine

end OneBit
