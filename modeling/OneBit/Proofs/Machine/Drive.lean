/-
# Systems that are driven by calls

What a call comes to hangs on the ticks alone: a run makes ticks until one does not end with
`ok`, a step makes one, and a run with a limit stops when the limit is reached.  A SYSTEM is
anything that ticks in this sense.  The machine is one; a second way to describe its ticks gives
another, and the two are compared as systems.

The run of a system has no bound (`System.loop`): it goes on for as long as the ticks say so,
and has no answer if they always do.  `System.loop_eq_some_iff` ties it to the runs with a limit.

Two systems are in LOCKSTEP if a relation between their states is kept by each tick, and the
two ticks end with the same status.  Then every call, and every sequence of calls, has the same
answers on both (`Lockstep.answers`); in particular a run ends on one side exactly if it ends on
the other.  The relation need not be kept by all ticks, but only by those that are made from
states of a kind `Good`; then the calls must make no others (`System.TicksAt`).
-/
import OneBit.Proofs.Machine.Call
import Mathlib.Data.List.Forall2
import Mathlib.Data.PFun

namespace OneBit

/-! ## 1. Calls of a system -/

/-- The greatest number of ticks that a call can make.  A run has none. -/
def Call.limit? : Call → Option Nat
  | run => none
  | step => some 1
  | runLimited limit => some limit

/-- The status of a step whose tick ended with this status. -/
def Status.ofStep : Status → Status
  | ok => stepped
  | s => s

/-- A way to tick, and what becomes of the status of a call. -/
structure System (σ : Type) where
  tick : σ → Status × σ
  keep : Status → σ → σ

/-- The answers to calls that are made one after the other.  A run that never ends has no
answer, and no call comes after it. -/
def answers {σ : Type} (call : σ → Call → Option (Status × σ)) (s : σ) :
    List Call → List (Status × σ)
  | [] => []
  | c :: cs =>
    match call s c with
    | none => []
    | some r => r :: answers call r.2 cs

namespace System

variable {σ τ : Type}

/-- Make at most `n` ticks. -/
def runFor (S : System σ) : Nat → σ → Status × σ
  | 0, s => (.ok, s)
  | n + 1, s =>
    match S.tick s with
    | (.ok, next) => S.runFor n next
    | r => r

/-- What a tick says to a run: the answer, or where to go on. -/
def verdict (S : System σ) (s : σ) : (Status × σ) ⊕ σ :=
  match S.tick s with
  | (.ok, next) => .inr next
  | r => .inl r

open Classical in
/-- Make ticks until one does not end with `ok`.  There is no answer if all of them do. -/
noncomputable def loop (S : System σ) (s : σ) : Option (Status × σ) :=
  (PFun.fix (PFun.lift S.verdict) s).toOption

/-- An answer, with its status kept. -/
def kept (S : System σ) (r : Status × σ) : Status × σ := (r.1, S.keep r.1 r.2)

/-- Make a call.  There is no answer if it is a run that never ends. -/
noncomputable def call (S : System σ) (s : σ) : Call → Option (Status × σ)
  | .run => (S.loop s).map S.kept
  | .step => some (S.kept ((S.tick s).1.ofStep, (S.tick s).2))
  | .runLimited limit => some (S.kept (S.runFor limit s))

/-- One of the calls, made one after the other, makes a tick from the state `last`. -/
inductive TicksAt (S : System σ) : σ → List Call → σ → Prop
  | now {s last : σ} {c : Call} {cs : List Call} {i : Nat} (hlimit : ∀ l ∈ c.limit?, i < l)
      (hrun : S.runFor i s = (.ok, last)) : S.TicksAt s (c :: cs) last
  | later {s s' last : σ} {c : Call} {cs : List Call} {status : Status}
      (hcall : S.call s c = some (status, s')) (hlast : S.TicksAt s' cs last) :
      S.TicksAt s (c :: cs) last

variable {S : System σ} {s : σ}

@[simp] theorem runFor_zero (s : σ) : S.runFor 0 s = (.ok, s) := rfl

theorem runFor_succ_of_ok (h : (S.tick s).1 = .ok) (n : Nat) :
    S.runFor (n + 1) s = S.runFor n (S.tick s).2 := by
  have ht : S.tick s = (.ok, (S.tick s).2) := Prod.ext h rfl
  rw [runFor, ht]

theorem runFor_succ_of_stop (h : (S.tick s).1 ≠ .ok) (n : Nat) :
    S.runFor (n + 1) s = S.tick s := by
  unfold runFor
  split
  · rename_i heq
    exact absurd (congrArg Prod.fst heq) h
  · rfl

theorem verdict_of_ok (h : (S.tick s).1 = .ok) : .inr (S.tick s).2 ∈ PFun.lift S.verdict s := by
  have ht : S.tick s = (.ok, (S.tick s).2) := Prod.ext h rfl
  rw [PFun.coe_val, Part.mem_some_iff, verdict, ht]

theorem verdict_of_stop (h : (S.tick s).1 ≠ .ok) :
    .inl (S.tick s) ∈ PFun.lift S.verdict s := by
  rw [PFun.coe_val, Part.mem_some_iff]
  unfold verdict
  split
  · rename_i heq
    exact absurd (congrArg Prod.fst heq) h
  · rfl

theorem loop_eq_some {r : Status × σ} :
    S.loop s = some r ↔ r ∈ PFun.fix (PFun.lift S.verdict) s := by
  classical exact Part.toOption_eq_some_iff

theorem loop_of_ok (h : (S.tick s).1 = .ok) : S.loop s = S.loop (S.tick s).2 := by
  ext r
  rw [loop_eq_some, loop_eq_some, PFun.fix_fwd_eq (verdict_of_ok h)]

theorem loop_of_stop (h : (S.tick s).1 ≠ .ok) : S.loop s = some (S.tick s) :=
  loop_eq_some.mpr (PFun.fix_stop (verdict_of_stop h))

/-- A run that ends is a run with some limit, which did not end it. -/
theorem exists_runFor_of_loop {r : Status × σ} (h : S.loop s = some r) :
    ∃ n, S.runFor n s = r ∧ r.1 ≠ .ok := by
  rw [loop_eq_some] at h
  -- By induction on the ticks that the run makes before its last one.
  refine PFun.fixInduction (C := fun s => ∃ n, S.runFor n s = r ∧ r.1 ≠ .ok) h ?_
  intro s hs ih
  by_cases hok : (S.tick s).1 = .ok
  · obtain ⟨n, hn, hne⟩ := ih _ (verdict_of_ok hok)
    exact ⟨n + 1, by rw [runFor_succ_of_ok hok, hn], hne⟩
  · have hr : r = S.tick s := Part.mem_unique hs (PFun.fix_stop (verdict_of_stop hok))
    exact ⟨1, by rw [runFor_succ_of_stop hok, hr], hr ▸ hok⟩

/-- A run with a limit that did not end it is the run without one. -/
theorem loop_eq_runFor {n : Nat} (h : (S.runFor n s).1 ≠ .ok) :
    S.loop s = some (S.runFor n s) := by
  induction n generalizing s with
  | zero => exact absurd rfl h
  | succ n ih =>
    by_cases hs : (S.tick s).1 = .ok
    · rw [runFor_succ_of_ok hs] at h ⊢
      rw [loop_of_ok hs, ih h]
    · rw [loop_of_stop hs, runFor_succ_of_stop hs]

/-- **The run without a limit** has the answer of any run whose limit did not end it, and no
other. -/
theorem loop_eq_some_iff {r : Status × σ} :
    S.loop s = some r ↔ ∃ n, S.runFor n s = r ∧ r.1 ≠ .ok := by
  constructor
  · exact exists_runFor_of_loop
  · rintro ⟨n, rfl, hne⟩
    exact loop_eq_runFor hne

/-- There is no answer exactly if every limit is reached. -/
theorem loop_eq_none_iff : S.loop s = none ↔ ∀ n, (S.runFor n s).1 = .ok := by
  constructor
  · intro h n
    by_contra hne
    rw [loop_eq_runFor hne] at h
    exact absurd h (by simp)
  · intro h
    cases hloop : S.loop s with
    | none => rfl
    | some r =>
      obtain ⟨n, rfl, hne⟩ := exists_runFor_of_loop hloop
      exact absurd (h n) hne

end System

/-! ## 2. Systems in lockstep -/

/-- The same status, and states that the relation ties. -/
def Agree {σ τ : Type} (R : σ → τ → Prop) (a : Status × σ) (b : Status × τ) : Prop :=
  a.1 = b.1 ∧ R a.2 b.2

/-- From related states, the first of them good, two ticks end alike in related states. -/
structure Lockstep {σ τ : Type} (S : System σ) (T : System τ) (Good : σ → Prop)
    (R : σ → τ → Prop) : Prop where
  tick : ∀ s t, R s t → Good s → Agree R (S.tick s) (T.tick t)
  /-- The status of a call is no part of the relation. -/
  keep : ∀ status s t, R s t → R (S.keep status s) (T.keep status t)

namespace Lockstep

variable {σ τ : Type} {S : System σ} {T : System τ} {Good : σ → Prop} {R : σ → τ → Prop}

theorem kept (h : Lockstep S T Good R) {a : Status × σ} {b : Status × τ} (hab : Agree R a b) :
    Agree R (S.kept a) (T.kept b) := by
  obtain ⟨hstatus, hstate⟩ := hab
  refine ⟨hstatus, ?_⟩
  simp only [System.kept, ← hstatus]
  exact h.keep _ _ _ hstate

theorem map_kept (h : Lockstep S T Good R) {a : Option (Status × σ)} {b : Option (Status × τ)}
    (hab : Option.Rel (Agree R) a b) : Option.Rel (Agree R) (a.map S.kept) (b.map T.kept) := by
  cases hab with
  | none => exact .none
  | some hr => exact .some (h.kept hr)

/-- **Runs with the same limit agree.** -/
theorem runFor (h : Lockstep S T Good R) {n : Nat} :
    ∀ {s t}, R s t → (∀ i < n, ∀ last, S.runFor i s = (.ok, last) → Good last) →
      Agree R (S.runFor n s) (T.runFor n t) := by
  induction n with
  | zero =>
    intro s t hst _
    exact ⟨rfl, hst⟩
  | succ n ih =>
    intro s t hst hgood
    have htick := h.tick s t hst (hgood 0 (Nat.succ_pos n) s rfl)
    by_cases hs : (S.tick s).1 = .ok
    · rw [System.runFor_succ_of_ok hs, System.runFor_succ_of_ok (htick.1 ▸ hs)]
      refine ih htick.2 ?_
      intro i hi last hlast
      exact hgood (i + 1) (Nat.succ_lt_succ hi) last (by rw [System.runFor_succ_of_ok hs, hlast])
    · rw [System.runFor_succ_of_stop hs, System.runFor_succ_of_stop (htick.1 ▸ hs)]
      exact htick

/-- **A run ends on one side exactly if it ends on the other**, and then the answers agree. -/
theorem loop (h : Lockstep S T Good R) {s : σ} {t : τ} (hst : R s t)
    (hgood : ∀ i last, S.runFor i s = (.ok, last) → Good last) :
    Option.Rel (Agree R) (S.loop s) (T.loop t) := by
  have hrun : ∀ n, Agree R (S.runFor n s) (T.runFor n t) := fun n =>
    h.runFor hst fun i _ last hlast => hgood i last hlast
  cases hloop : S.loop s with
  | none =>
    have hok := System.loop_eq_none_iff.mp hloop
    rw [System.loop_eq_none_iff.mpr fun n => (hrun n).1 ▸ hok n]
    exact .none
  | some r =>
    obtain ⟨n, rfl, hne⟩ := System.loop_eq_some_iff.mp hloop
    rw [System.loop_eq_runFor ((hrun n).1 ▸ hne)]
    exact .some (hrun n)

/-- **A call has the same answer on both sides.** -/
theorem call (h : Lockstep S T Good R) {s : σ} {t : τ} (hst : R s t) {c : Call}
    (hgood : ∀ last, S.TicksAt s [c] last → Good last) :
    Option.Rel (Agree R) (S.call s c) (T.call t c) := by
  cases c with
  | run =>
    refine h.map_kept (h.loop hst ?_)
    intro i last hlast
    exact hgood last (.now (by simp [Call.limit?]) hlast)
  | step =>
    have htick := h.tick s t hst (hgood s (.now (i := 0) (by simp [Call.limit?]) rfl))
    exact .some (h.kept ⟨by simp only [htick.1], htick.2⟩)
  | runLimited limit =>
    refine .some (h.kept (h.runFor hst ?_))
    intro i hi last hlast
    exact hgood last (.now (by simpa [Call.limit?] using hi) hlast)

/-- **A sequence of calls has the same answers on both sides.** -/
theorem answers (h : Lockstep S T Good R) {cs : List Call} :
    ∀ {s t}, R s t → (∀ last, S.TicksAt s cs last → Good last) →
      List.Forall₂ (Agree R) (answers S.call s cs) (answers T.call t cs) := by
  induction cs with
  | nil =>
    intro s t _ _
    exact .nil
  | cons c cs ih =>
    intro s t hst hgood
    have hcall : Option.Rel (Agree R) (S.call s c) (T.call t c) := by
      refine h.call hst ?_
      rintro last (⟨hlimit, hrun⟩ | ⟨_, hlast⟩)
      · exact hgood last (.now hlimit hrun)
      · cases hlast
    simp only [OneBit.answers]
    generalize hS : S.call s c = a at hcall
    generalize T.call t c = b at hcall
    cases hcall with
    | none => exact .nil
    | some hr => exact .cons hr (ih hr.2 fun last hlast => hgood last (.later hS hlast))

end Lockstep

/-! ## 3. The machine as a system -/

namespace Machine

/-- The machine, as a system. -/
def system : System Machine := ⟨tick, fun status m => { m with status := status }⟩

/-- The answers to calls that a machine gets one after the other. -/
def history (m : Machine) (cs : List Call) : List (Status × Machine) := answers call m cs

theorem history_cons {m m' : Machine} {c : Call} {s : Status} (h : m.call c = some (s, m'))
    (cs : List Call) : m.history (c :: cs) = (s, m') :: m'.history cs := by
  simp only [history, answers, h]

/-- Machines with the same answer to a call have the same answers from there on. -/
theorem history_congr {m m' : Machine} {c : Call} (h : m.call c = m'.call c) (cs : List Call) :
    m.history (c :: cs) = m'.history (c :: cs) := by
  rw [history, history, answers, answers, h]

theorem runFor_system (n : Nat) (m : Machine) : system.runFor n m = runFor n m := by
  induction n generalizing m with
  | zero => rfl
  | succ n ih =>
    by_cases hs : m.tick.1 = .ok
    · rw [runFor_succ_of_tick_ok hs, ← ih]
      exact System.runFor_succ_of_ok (S := system) hs n
    · rw [runFor_succ_of_stop hs]
      exact System.runFor_succ_of_stop (S := system) hs n

theorem step_eq (m : Machine) : m.step = record (m.tick.1.ofStep, m.tick.2) := by
  unfold step
  split
  · rename_i next heq
    rw [heq]
    rfl
  · rename_i status next hne heq
    rw [heq]
    cases status with
    | ok => exact absurd rfl hne
    | _ => rfl

end Machine

end OneBit
