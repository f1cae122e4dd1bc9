/-
# A halt is only a pause

A run that ends with a halt can be resumed by another run, which goes on behind the halt.  So a host
that calls `run` again and again, as long as the answer is a halt, sees the program through to its
end or to a fault, and the halts do nothing on the way.

This is shown in two steps.  The first is about the machine alone.  A machine that ticks THROUGH
its halts (`tickThrough`) makes in one run what the repeated runs make together: they come to its
answer (`history_of_throughHalts`), or each of them halts (`halted_of_throughHalts`).  The second
step takes the halts out of the program: a halt is replaced by a tag that nobody looks for, and a
tick of the new program is a tick through the halts of the old one (`tick_haltsToTags`).
-/
import OneBit.Proofs.Machine.Slices
import OneBit.Proofs.Machine.Halting
import OneBit.Proofs.Program.Nearest

namespace OneBit

/-! ## 1. Through the halts -/

/-- The status with which a machine goes on that takes no notice of halts. -/
def Status.resumed : Status → Status
  | halted => ok
  | s => s

theorem Status.resumed_of_ne {s : Status} (h : s ≠ .halted) : s.resumed = s := by
  cases s with
  | halted => exact absurd rfl h
  | _ => rfl

theorem Status.resumed_ne_halted (s : Status) : s.resumed ≠ .halted := by
  cases s <;> simp [resumed]

/-- These two are all that is left of the statuses with which a run can end. -/
theorem Status.terminated_or_fault {s : Status} (hok : s ≠ .ok) (hhalted : s ≠ .halted)
    (hstepped : s ≠ .stepped) : s = .terminated ∨ ∃ k, s = .fault k := by
  cases s with
  | ok => exact absurd rfl hok
  | halted => exact absurd rfl hhalted
  | stepped => exact absurd rfl hstepped
  | terminated => exact .inl rfl
  | fault k => exact .inr ⟨k, rfl⟩

namespace Machine

/-- Make one tick, and go on after a halt.  The machine keeps the halt, as after a run. -/
def tickThrough (m : Machine) : Status × Machine :=
  if m.tick.1 = .halted then (.ok, (record m.tick).2) else m.tick

/-- The machine that goes through its halts, as a system. -/
def throughHalts : System Machine := ⟨tickThrough, fun status m => { m with status := status }⟩

variable {m : Machine}

theorem tickThrough_of_halted (h : m.tick.1 = .halted) :
    throughHalts.tick m = (.ok, (record m.tick).2) := by
  simp only [throughHalts, tickThrough, if_pos h]

theorem tickThrough_of_ne (h : m.tick.1 ≠ .halted) : throughHalts.tick m = m.tick :=
  if_neg h

theorem tickThrough_fst (m : Machine) : (throughHalts.tick m).1 = m.tick.1.resumed := by
  by_cases h : m.tick.1 = .halted
  · rw [tickThrough_of_halted h, h]
    rfl
  · rw [tickThrough_of_ne h, Status.resumed_of_ne h]

/-- **Repeated runs come to the answer of the run through the halts.**  Before the last of them,
each ends with a halt. -/
theorem history_of_throughHalts {n : Nat} (h : (throughHalts.runFor n m).1 ≠ .ok) :
    ∃ log, m.history (List.replicate (log.length + 1) .run) =
        log ++ [record (throughHalts.runFor n m)] ∧
      ∀ a ∈ log, a.1 = .halted := by
  -- By induction on the ticks; the ones that halt are the ends of the runs.
  induction n generalizing m with
  | zero => exact absurd rfl h
  | succ n ih =>
    by_cases hhalt : m.tick.1 = .halted
    · have hok : (throughHalts.tick m).1 = .ok := by rw [tickThrough_of_halted hhalt]
      rw [System.runFor_succ_of_ok hok, tickThrough_of_halted hhalt] at h ⊢
      obtain ⟨log, hlog, hhalted⟩ := ih h
      have hrun : m.call .run = some (.halted, (record m.tick).2) := by
        rw [call, run_of_tick_stop (by simp [hhalt]), record, hhalt]
      refine ⟨(.halted, (record m.tick).2) :: log, ?_, ?_⟩
      · rw [List.length_cons, List.replicate_succ, history_cons hrun, hlog, List.cons_append]
      · intro a ha
        rcases List.mem_cons.mp ha with rfl | ha
        · rfl
        · exact hhalted a ha
    · by_cases hok : m.tick.1 = .ok
      · have hok' : (throughHalts.tick m).1 = .ok := by rw [tickThrough_of_ne hhalt, hok]
        rw [System.runFor_succ_of_ok hok', tickThrough_of_ne hhalt] at h ⊢
        obtain ⟨log, hlog, hhalted⟩ := ih h
        rw [List.replicate_succ] at hlog
        refine ⟨log, ?_, hhalted⟩
        rw [List.replicate_succ, history_congr (c := .run) (run_of_tick_ok hok), hlog]
      · have hstop : (throughHalts.tick m).1 ≠ .ok := by rwa [tickThrough_of_ne hhalt]
        rw [System.runFor_succ_of_stop hstop, tickThrough_of_ne hhalt]
        have hrun : m.call .run = some (record m.tick) := run_of_tick_stop hok
        exact ⟨[], history_cons hrun [], by simp⟩

/-- The run through the halts ends with no halt. -/
theorem runFor_throughHalts_ne_halted (n : Nat) (m : Machine) :
    (throughHalts.runFor n m).1 ≠ .halted := by
  induction n generalizing m with
  | zero => simp
  | succ n ih =>
    by_cases hok : (throughHalts.tick m).1 = .ok
    · rw [System.runFor_succ_of_ok hok]
      exact ih _
    · rw [System.runFor_succ_of_stop hok, tickThrough_fst]
      exact Status.resumed_ne_halted _

/-- If the run through the halts never ends, then a run that ends halts, and the run through the
halts never ends from there. -/
theorem halted_of_run {r : Status × Machine} (h : throughHalts.loop m = none)
    (hrun : m.run = some r) : r.1 = .halted ∧ throughHalts.loop r.2 = none := by
  obtain ⟨n, hne, rfl⟩ := run_eq_some hrun
  clear hrun
  induction n generalizing m with
  | zero => exact absurd rfl hne
  | succ n ih =>
    by_cases hhalt : m.tick.1 = .halted
    · have hok : (throughHalts.tick m).1 = .ok := by rw [tickThrough_of_halted hhalt]
      rw [System.loop_of_ok hok, tickThrough_of_halted hhalt] at h
      rw [runFor_succ_of_stop (by simp [hhalt])]
      exact ⟨hhalt, h⟩
    · by_cases hok : m.tick.1 = .ok
      · have hok' : (throughHalts.tick m).1 = .ok := by rw [tickThrough_of_ne hhalt, hok]
        rw [System.loop_of_ok hok', tickThrough_of_ne hhalt] at h
        rw [runFor_succ_of_tick_ok hok] at hne ⊢
        exact ih h hne
      · have hstop : (throughHalts.tick m).1 ≠ .ok := by rwa [tickThrough_of_ne hhalt]
        rw [System.loop_of_stop hstop] at h
        exact absurd h (by simp)

/-- **If the run through the halts never ends, every repeated run that ends halts.** -/
theorem halted_of_throughHalts (h : throughHalts.loop m = none) (n : Nat) :
    ∀ a ∈ m.history (List.replicate n .run), a.1 = .halted := by
  induction n generalizing m with
  | zero =>
    intro a ha
    cases ha
  | succ n ih =>
    intro a ha
    rw [List.replicate_succ] at ha
    cases hrun : m.call .run with
    | none =>
      rw [history, answers, hrun] at ha
      cases ha
    | some r =>
      obtain ⟨hhalted, hnone⟩ := halted_of_run h hrun
      rw [history_cons hrun] at ha
      rcases List.mem_cons.mp ha with rfl | ha
      · exact hhalted
      · exact ih hnone a ha

end Machine

/-! ## 2. Tags in place of halts -/

/-- The instruction, or a tag if it asks for a halt. -/
def Instruction.haltToTag (t : UInt8) (i : Instruction) : Instruction :=
  if i.operation? = some .halt then .tag t else i

/-- No search in the program is for the ID. -/
def Program.Unsought (t : UInt8) (p : Program) : Prop :=
  ∀ i ∈ p.instructions, i ≠ .advance t ∧ i ≠ .retreat t

/-- The program with a tag in place of each halt. -/
def Program.haltsToTags (t : UInt8) (p : Program) : Program :=
  ⟨p.instructions.map (Instruction.haltToTag t)⟩

/-- Control that goes on after a halt. -/
def Control.resumed : Control → Control
  | pause place => .goto place
  | control => control

/-- Control that goes on after a halt settles where it would have settled. -/
theorem Control.settle_resumed (length here : Nat) (control : Control) :
    control.resumed.settle length here =
      ((control.settle length here).1.resumed, (control.settle length here).2) := by
  cases control with
  | goto place =>
    simp only [resumed, settle]
    split <;> rfl
  | pause place =>
    simp only [resumed, settle]
    split <;> rfl
  | fault k => rfl

namespace Program

variable {t : UInt8} {p : Program}

/-- Only a halt pauses. -/
theorem Effect.resumed_eq {here : Nat} {f g : Field} {i : Instruction} {control : Control}
    (h : p.Effect here f i control g) (hop : i.operation? ≠ some .halt) :
    control.resumed = control := by
  cases h with
  | halt hhalt => exact absurd hhalt hop
  | _ => rfl

@[simp] theorem length_haltsToTags : (p.haltsToTags t).length = p.length :=
  List.length_map _

@[simp] theorem isEmpty_haltsToTags : (p.haltsToTags t).isEmpty = p.isEmpty :=
  List.isEmpty_map

theorem get?_haltsToTags (k : Nat) :
    (p.haltsToTags t).get? k = (p.get? k).map (Instruction.haltToTag t) :=
  List.getElem?_map

/-- The new tags are not found by a search for another ID. -/
theorem findTag_haltsToTags {id : UInt8} (hid : id ≠ t) (start : Nat) (side : Search) :
    (p.haltsToTags t).findTag start id side = p.findTag start id side := by
  refine findTag_congr ?_ start side
  intro k
  rw [get?_haltsToTags, Option.map_eq_some_iff]
  constructor
  · rintro ⟨i, hi, heq⟩
    unfold Instruction.haltToTag at heq
    split at heq
    · cases heq
      exact absurd rfl hid
    · rw [hi, heq]
  · intro hi
    exact ⟨_, hi, rfl⟩

/-- **An instruction of the new program does what the old one does**, and goes on after a halt. -/
theorem execute_haltsToTags {here : Nat} {f : Field} {i : Instruction}
    (hi : i ≠ .advance t ∧ i ≠ .retreat t) :
    (p.haltsToTags t).execute here f (i.haltToTag t) =
      ((p.execute here f i).1.resumed, (p.execute here f i).2) := by
  by_cases hop : i.operation? = some .halt
  · rw [Instruction.haltToTag, if_pos hop]
    cases i with
    | guarded guard op =>
      cases hop
      by_cases hg : guard.holds f
      · simp only [execute, if_pos hg]
        rfl
      · simp only [execute, if_neg hg]
        rfl
    | tag id => cases hop
    | advance id => cases hop
    | retreat id => cases hop
  · rw [Instruction.haltToTag, if_neg hop, (p.execute_effect here f i).resumed_eq hop]
    cases i with
    | advance id =>
      have hid : id ≠ t := fun heq => hi.1 (by rw [heq])
      simp only [execute, seek, findTag_haltsToTags hid]
    | retreat id =>
      have hid : id ≠ t := fun heq => hi.2 (by rw [heq])
      simp only [execute, seek, findTag_haltsToTags hid]
    | tag id => rfl
    | guarded guard op => rfl

end Program

/-! ## 3. Machines with and without halts -/

namespace Machine

/-- The machine with a tag in place of each halt of its program. -/
def haltsToTags (t : UInt8) (m : Machine) : Machine :=
  { m with program := m.program.haltsToTags t }

variable {t : UInt8} {m : Machine}

theorem here?_haltsToTags : (m.haltsToTags t).here? = m.here? := by
  simp only [here?, haltsToTags, Program.isEmpty_haltsToTags, Program.length_haltsToTags]

/-- **A tick without the halts** is a tick with them, but for the status of a halt. -/
theorem tick_haltsToTags (ht : m.program.Unsought t) :
    (m.haltsToTags t).tick = (m.tick.1.resumed, m.tick.2.haltsToTags t) := by
  cases hhere : m.here? with
  | none =>
    have hhere' : (m.haltsToTags t).here? = none := here?_haltsToTags.trans hhere
    rw [tick_of_here?_none hhere, tick_of_here?_none hhere']
    rfl
  | some n =>
    obtain ⟨i, hi, htick⟩ := tick_of_here?_some hhere
    have hi' : (m.haltsToTags t).program.get? n = some (i.haltToTag t) := by
      rw [haltsToTags, Program.get?_haltsToTags, hi, Option.map_some]
    have hsearch := ht i (List.mem_of_getElem? hi)
    rw [htick, tick_of_get? (here?_haltsToTags.trans hhere) hi']
    simp only [haltsToTags, Program.execute_haltsToTags hsearch, Program.length_haltsToTags,
      Control.settle_resumed]

/-- The second machine stands where the first one stands, with tags in place of the halts. -/
structure Unhalted (t : UInt8) (m m' : Machine) : Prop where
  unsought : m.program.Unsought t
  same : (m.haltsToTags t).SameButStatus m'

/-- A tick of the first machine goes through a halt where the second one has a tag. -/
theorem Unhalted.tick {m' : Machine} (h : Unhalted t m m') :
    m.tick.1.resumed = m'.tick.1 ∧ Unhalted t m.tick.2 m'.tick.2 := by
  have hagree : Agree SameButStatus (m.haltsToTags t).tick m'.tick :=
    status_lockstep.tick _ _ h.same trivial
  rw [tick_haltsToTags h.unsought] at hagree
  refine ⟨hagree.1, ?_, hagree.2⟩
  rw [m.program_tick]
  exact h.unsought

/-- The kept statuses do not matter. -/
theorem Unhalted.update {m' : Machine} (h : Unhalted t m m') (s s' : Status) :
    Unhalted t { m with status := s } { m' with status := s' } :=
  ⟨h.unsought, h.same.field, h.same.program, h.same.counter, h.same.ticks⟩

/-- **The machine without halts** is in lockstep with the machine that goes through its halts. -/
theorem unhalted_lockstep (t : UInt8) :
    Lockstep throughHalts system (fun _ => True) (Unhalted t) where
  tick m m' h _ := by
    obtain ⟨hstatus, hstate⟩ := h.tick
    refine ⟨(tickThrough_fst m).trans hstatus, ?_⟩
    by_cases hhalt : m.tick.1 = .halted
    · rw [tickThrough_of_halted hhalt]
      exact hstate.update _ _
    · rw [tickThrough_of_ne hhalt]
      exact hstate
  keep status m m' h := h.update status status

namespace Unhalted

variable {m' : Machine}

/-- The runs of the two systems end alike, or neither of them ends. -/
theorem loop (h : Unhalted t m m') :
    Option.Rel (Agree (Unhalted t)) (throughHalts.loop m) (system.loop m') :=
  (unhalted_lockstep t).loop h fun _ _ _ => trivial

/-- **Where the machine without halts comes to an answer**, the repeated runs of the other one come
to it as well. -/
theorem history_of_run (h : Unhalted t m m') {s : Status} {m₁ : Machine}
    (hrun : m'.run = some (s, m₁)) :
    (s = .terminated ∨ ∃ k, s = .fault k) ∧
      ∃ log last, m.history (List.replicate (log.length + 1) .run) = log ++ [(s, last)] ∧
        (∀ a ∈ log, a.1 = .halted) ∧ Unhalted t last m₁ := by
  rw [run_eq_loop, Option.map_eq_some_iff] at hrun
  obtain ⟨⟨s', m₂⟩, hloop', heq⟩ := hrun
  simp only [record, Prod.mk.injEq] at heq
  obtain ⟨rfl, rfl⟩ := heq
  have hrel := h.loop
  rw [hloop'] at hrel
  generalize hloop : throughHalts.loop m = answer at hrel
  cases hrel with
  | @some r _ hagree =>
    obtain ⟨rfl, hstate⟩ := hagree
    obtain ⟨n, rfl, hok⟩ := System.exists_runFor_of_loop hloop
    obtain ⟨n', hn', -⟩ := System.exists_runFor_of_loop hloop'
    have hstepped : (throughHalts.runFor n m).1 ≠ .stepped := by
      rw [runFor_system] at hn'
      have hne := runFor_ne_stepped n' m'
      rwa [hn'] at hne
    obtain ⟨log, hlog, hhalted⟩ := history_of_throughHalts hok
    exact ⟨Status.terminated_or_fault hok (runFor_throughHalts_ne_halted n m) hstepped,
      log, _, hlog, hhalted, hstate.update _ _⟩

/-- **Where the machine without halts never comes to an answer**, every repeated run of the other
one that ends halts. -/
theorem halted_of_run_eq_none (h : Unhalted t m m') (hrun : m'.run = none) (n : Nat) :
    ∀ a ∈ m.history (List.replicate n .run), a.1 = .halted := by
  refine halted_of_throughHalts ?_ n
  rw [run_eq_loop, Option.map_eq_none_iff] at hrun
  have hrel := h.loop
  rw [hrun] at hrel
  generalize throughHalts.loop m = answer at hrel ⊢
  cases hrel
  rfl

end Unhalted

/-- **A halt is only a pause.**  Take a program and an ID that none of its searches is for, and put a
tag with this ID in place of every halt.  If a run of the new program from its top ends, it ends at
the end of the program or with a fault.  Runs of the old program, made again and again as long as
they halt, then come after finitely many of them to the same status, with the same counter, the same
field and the same number of ticks.  If the run of the new program never ends, then each of the
repeated runs of the old program halts or never ends. -/
theorem run_haltsToTags (m : Machine) {p : Program} {t : UInt8}
    (ht : ∀ i ∈ p.instructions, i ≠ .advance t ∧ i ≠ .retreat t) :
    (∀ s m', (m.install (p.haltsToTags t)).run = some (s, m') →
      (s = .terminated ∨ ∃ k, s = .fault k) ∧
        ∃ log last,
          (m.install p).history (List.replicate (log.length + 1) .run) = log ++ [(s, last)] ∧
            (∀ a ∈ log, a.1 = .halted) ∧ last.counter = m'.counter ∧ last.field = m'.field ∧
            last.ticks = m'.ticks) ∧
    ((m.install (p.haltsToTags t)).run = none →
      ∀ n, ∀ a ∈ (m.install p).history (List.replicate n .run), a.1 = .halted) := by
  have hstart : Unhalted t (m.install p) (m.install (p.haltsToTags t)) :=
    ⟨ht, rfl, rfl, by simp [install, haltsToTags], rfl⟩
  refine ⟨?_, hstart.halted_of_run_eq_none⟩
  intro s m' hrun
  obtain ⟨hs, log, last, hlog, hhalted, hlast⟩ := hstart.history_of_run hrun
  exact ⟨hs, log, last, hlog, hhalted, hlast.same.counter, hlast.same.field, hlast.same.ticks⟩

/-- A program that halts when it comes round for the second time, and once more at its end. -/
def twoRounds : Program :=
  ⟨[.tag 1, .guarded (.flag true) .halt, .guarded .always .complementFlag,
    .guarded (.flag false) .skip, .retreat 1, .guarded .always .halt]⟩

/-- Two runs of that program do what one run does with tags in place of the two halts. -/
theorem run_haltsToTags_of_twoRounds :
    (∀ i ∈ twoRounds.instructions, i ≠ .advance 0 ∧ i ≠ .retreat 0) ∧
      ∃ log last,
        (new.install twoRounds).history (List.replicate (log.length + 1) .run) =
            log ++ [(.terminated, last)] ∧
          (∀ a ∈ log, a.1 = .halted) ∧ last.counter = some 6 ∧ last.ticks = 10 := by
  have ht : ∀ i ∈ twoRounds.instructions, i ≠ .advance 0 ∧ i ≠ .retreat 0 := by decide
  have hrun : (new.install (twoRounds.haltsToTags 0)).run =
      some (.terminated, (record (runFor 10 (new.install (twoRounds.haltsToTags 0)))).2) :=
    run_of_runFor (n := 10) (by decide)
  obtain ⟨-, log, last, hlog, hhalted, hcounter, -, hticks⟩ :=
    (run_haltsToTags new ht).1 _ _ hrun
  exact ⟨ht, log, last, hlog, hhalted, hcounter, hticks⟩

end Machine

end OneBit
