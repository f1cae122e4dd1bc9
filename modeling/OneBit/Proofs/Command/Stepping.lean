/-
# A run on the command line, step by step

The setting `--step` shows the steps of a run while they are made.  It has no influence on the run:
the exit code, the messages and all that is printed after the run are what they are without the
setting, and the lines of the steps come before (`run_step`).

A dump shows the status that the machine keeps, and there the two ways can be told apart: when the
limit has ended a run that made a step, the machine keeps the status of the last step, `stepped`,
where it keeps `ok` after a run that was not followed.  No other member of the dump differs, and
the two documents that are printed read as the two dumps.
-/
import OneBit.Command.Perform
import OneBit.Proofs.Command.Reading
import OneBit.Proofs.Machine.Document
import OneBit.Proofs.Machine.Following

namespace OneBit.Command

/-! ## 1. What is run -/

namespace RunOptions

/-- The steps that are shown when the run is made step by step. -/
def trace (o : RunOptions) (m : Machine) : List TraceEntry :=
  (m.follow (o.limit.getD m.runBound)).1

/-- The run makes a tick, and it is the limit that ends it. -/
def endsByLimit (o : RunOptions) (m : Machine) : Bool :=
  match o.limit with
  | some n => 0 < n && (m.runLimited n).1 == .ok
  | none => false

/-- The steps that are shown are the first ones that the machine makes. -/
theorem trace_eq_steps (o : RunOptions) (m : Machine) : o.trace m = m.steps (o.trace m).length :=
  (m.follow_runFor (o.limit.getD m.runBound)).1

/-- **A run that is made step by step comes to the same**, with its steps shown, and with the status
of the last step kept. -/
theorem execute_step {m : Machine} (h : m.status = .ok) (o : RunOptions) :
    ({ o with step := true } : RunOptions).execute m =
      (({ o with step := false } : RunOptions).execute m).map fun r =>
        (o.trace m, r.2.1,
          if o.endsByLimit m then { r.2.2 with status := .stepped } else r.2.2) := by
  cases hlimit : o.limit with
  | none =>
    have htrace : o.trace m = m.steps (m.follow m.runBound).1.length := by
      rw [trace_eq_steps, trace, hlimit, Option.getD_none]
    simp only [execute, endsByLimit, hlimit, m.followAll_eq, Option.map_map, htrace]
    exact congrArg (fun f => m.run.map f) (funext fun r => rfl)
  | some n =>
    have htrace : o.trace m = m.steps (m.follow n).1.length := by
      rw [trace_eq_steps, trace, hlimit, Option.getD_some]
    have hfollow := Machine.follow_eq h n
    rw [← htrace] at hfollow
    simp only [execute, endsByLimit, hlimit, Option.map_some, hfollow]
    refine congrArg some (Prod.ext rfl (Prod.ext rfl ?_))
    by_cases hn : n = 0
    · subst hn
      rfl
    · have hpos : 0 < n := Nat.pos_of_ne_zero hn
      by_cases hok : (m.runLimited n).1 = .ok
      · simp [hn, hpos, hok, Status.ofStep]
      · have hkept : (m.runLimited n).1.ofStep = (m.runLimited n).2.status := by
          change _ = (m.runLimited n).1
          cases hs : (m.runLimited n).1 with
          | ok => exact absurd hs hok
          | _ => rfl
        simp [hn, hok, hkept]

/-- A run that is ended by its limit is a run with a limit, and the limit leaves it at `ok`. -/
theorem exists_limit_of_endsByLimit {o : RunOptions} {m : Machine}
    (h : o.endsByLimit m = true) : ∃ n, o.limit = some n ∧ (m.runLimited n).1 = .ok := by
  cases hlimit : o.limit with
  | none => simp [endsByLimit, hlimit] at h
  | some n =>
    simp only [endsByLimit, hlimit, Bool.and_eq_true, beq_iff_eq] at h
    exact ⟨n, rfl, h.2⟩

section Plain

variable {o : RunOptions} {m : Machine} {r : List TraceEntry × Status × Machine}

/-- A run with a limit that is not followed is the one of the machine. -/
theorem eq_of_execute_of_limit {n : Nat} (hlimit : o.limit = some n)
    (h : ({ o with step := false } : RunOptions).execute m = some r) :
    r = ([], m.runLimited n) := by
  simp only [execute, hlimit, Option.some.injEq] at h
  exact h.symm

/-- The same goes for a run without a limit. -/
theorem exists_run_of_execute (hlimit : o.limit = none)
    (h : ({ o with step := false } : RunOptions).execute m = some r) :
    ∃ answer, m.run = some answer ∧ r = ([], answer) := by
  simp only [execute, hlimit, Option.map_eq_some_iff] at h
  obtain ⟨answer, hrun, rfl⟩ := h
  exact ⟨answer, hrun, rfl⟩

/-- A run keeps the status that it answers. -/
theorem status_of_execute (h : ({ o with step := false } : RunOptions).execute m = some r) :
    r.1 = [] ∧ r.2.2.status = r.2.1 := by
  cases hlimit : o.limit with
  | none =>
    obtain ⟨answer, hrun, rfl⟩ := exists_run_of_execute hlimit h
    refine ⟨rfl, ?_⟩
    simp only [Machine.run, Machine.stopped?] at hrun
    split at hrun
    · cases hrun
    · cases hrun
      rfl
  | some n =>
    obtain rfl := eq_of_execute_of_limit hlimit h
    exact ⟨rfl, rfl⟩

end Plain

end RunOptions

/-! ## 2. What is printed -/

/-- **What the setting `--step` changes in an outcome**: the steps of the run are shown before the
rest, and in a dump the status is that of the last step if the limit has ended the run. -/
structure Outcome.ShowsSteps (o : RunOptions) (m : Machine) (plain followed : Outcome) : Prop where
  exitCode : followed.exitCode = plain.exitCode
  errors : followed.errors = plain.errors
  summary : o.json = false →
    followed.output = (o.trace m).map TraceEntry.line ++ plain.output
  dump : o.json = true → o.endsByLimit m = false →
    followed.output = (o.trace m).map TraceEntry.line ++ plain.output
  /-- What is dumped is the machine that the limit leaves, with the status of the last step if the
  run was followed.  Both dumps can be read again. -/
  dumpByLimit : o.json = true → o.endsByLimit m = true →
    ∃ n, o.limit = some n ∧
      let dump := (m.runLimited n).2.toJson
      let stepped := dump.withMember "status" (.text "Stepped")
      dump.member? "status" = some (.text "Ok") ∧
        plain.output = [dump.print .indented] ∧
        followed.output = (o.trace m).map TraceEntry.line ++ [stepped.print .indented] ∧
        Json.read? (dump.print .indented) = some dump ∧
        Json.read? (stepped.print .indented) = some stepped

/-- What a run comes to, as it is printed. -/
def outcome (o : RunOptions) (r : List TraceEntry × Status × Machine) : Outcome where
  exitCode := if r.2.1.isFault then 2 else 0
  output := r.1.map TraceEntry.line ++ report o.json r.2.1 r.2.2
  errors := []

/-- The run of a source that compiles. -/
theorem run_of_load {o : RunOptions} {source : String} {m : Machine} {n : Nat}
    (h : (Machine.ofField o.field).load source = (.ok n, m)) (path : String) :
    run path o source = (o.execute m).map (outcome o) := by
  rw [run, h]
  rfl

/-- The run of a source that does not compile. -/
theorem run_of_error {source : String} {e : Assembly.CompileError}
    (h : (Assembly.compile source).error = some e) (path : String) (o : RunOptions) :
    run path o source = some (.failure [] (compileMessage path e)) := by
  simp only [run, Machine.load, h]

/-- Apart from dumps, the status that the machine keeps is not printed. -/
theorem report_withStatus (status s : Status) (m : Machine) :
    report false status { m with status := s } = report false status m := by
  simp only [report, Machine.counterNumber, Bool.false_eq_true, if_false]

/-- **Only the steps are added** to what one run comes to. -/
theorem showsSteps_outcome {o : RunOptions} {m : Machine}
    {r : List TraceEntry × Status × Machine}
    (h : ({ o with step := false } : RunOptions).execute m = some r) :
    Outcome.ShowsSteps o m (outcome o r)
      (outcome o (o.trace m, r.2.1,
        if o.endsByLimit m then { r.2.2 with status := .stepped } else r.2.2)) := by
  obtain ⟨hlog, hkept⟩ := RunOptions.status_of_execute h
  refine ⟨rfl, rfl, ?_, ?_, ?_⟩
  · intro hjson
    simp only [outcome, hjson, hlog, List.map_nil, List.nil_append]
    split
    · rw [report_withStatus]
    · rfl
  · intro _ hends
    simp [outcome, hends, hlog]
  · intro hjson hends
    obtain ⟨n, hlimit, hok⟩ := RunOptions.exists_limit_of_endsByLimit hends
    obtain rfl := RunOptions.eq_of_execute_of_limit hlimit h
    have hstepped : ({ (m.runLimited n).2 with status := .stepped } : Machine).toJson =
        (m.runLimited n).2.toJson.withMember "status" (.text "Stepped") :=
      Machine.toJson_withStatus _ _
    refine ⟨n, hlimit, ?_, ?_, ?_, Machine.read?_print _ _, ?_⟩
    · rw [Machine.member?_toJson, hkept, hok]
      rfl
    · simp [outcome, report, hjson]
    · simp only [outcome, report, hjson, hends, if_true, hstepped]
    · rw [← hstepped, Machine.read?_print]

/-- A source that compiles is loaded. -/
theorem exists_load (f : Field) {source : String}
    (h : (Assembly.compile source).error = none) :
    ∃ n, (Machine.ofField f).load source = (.ok n, ((Machine.ofField f).load source).2) := by
  refine ⟨(Assembly.compile source).linesConsumed, ?_⟩
  simp only [Machine.load, h]

/-- **A program is run step by step as it is run**, but for the steps that are shown. -/
theorem rel_showsSteps {o : RunOptions} {source : String} {m : Machine} {n : Nat}
    (h : (Machine.ofField o.field).load source = (.ok n, m)) (path : String) :
    Option.Rel (Outcome.ShowsSteps o m) (run path { o with step := false } source)
      (run path { o with step := true } source) := by
  have hstatus : m.status = .ok := congrArg (fun r => r.2.status) h.symm
  have hplain := run_of_load (o := { o with step := false }) h path
  have hfollowed := run_of_load (o := { o with step := true }) h path
  rw [hplain, hfollowed, RunOptions.execute_step hstatus]
  cases hrun : ({ o with step := false } : RunOptions).execute m with
  | none => exact .none
  | some r => exact .some (showsSteps_outcome hrun)

/-- **The setting `--step` only adds the steps.**  Written in front of the words behind `run`, it asks
for the same run step by step.  For every program file and all other settings, this has an outcome
exactly if the run has one, and it differs from that one as `Outcome.ShowsSteps` says; a program
that cannot be read or has an error is reported the same. -/
theorem run_step (path : String) (o : RunOptions) (source : Except ReadError String) :
    let plain := (Request.run path { o with step := false }).perform source
    let followed := (Request.run path { o with step := true }).perform source
    (∀ words, readCommand .run words = .ok (.run path { o with step := false }) →
      readCommand .run ("--step" :: words) = .ok (.run path { o with step := true })) ∧
    (∀ e, source = .error e →
      plain = some (.failure [] ("failed to read " ++ path ++ ": " ++ e.message)) ∧
        followed = plain) ∧
    ∀ text, source = .ok text →
      (∀ e, (Assembly.compile text).error = some e →
        plain = some (.failure [] (compileMessage path e)) ∧ followed = plain) ∧
      ((Assembly.compile text).error = none →
        Option.Rel (Outcome.ShowsSteps o ((Machine.ofField o.field).load text).2)
          plain followed) := by
  intro plain followed
  refine ⟨?_, ?_, ?_⟩
  · intro words hwords
    exact readCommand_step (o := { o with step := false }) hwords rfl
  · rintro e rfl
    exact ⟨rfl, rfl⟩
  · rintro text rfl
    refine ⟨?_, ?_⟩
    · intro e he
      exact ⟨run_of_error he path _, (run_of_error he path _).trans (run_of_error he path _).symm⟩
    · intro hnone
      obtain ⟨n, hload⟩ := exists_load o.field hnone
      exact rel_showsSteps hload path

/-- A run that its limit ends after one of two ticks. -/
theorem run_step_limited :
    let o : RunOptions := ⟨false, some 1, [], false, none, true⟩
    let m := ((Machine.ofField o.field).load "exec,f1\nexec,f0").2
    readCommand .run ["-m1", "--json", "p"] = .ok (.run "p" o) ∧
      readCommand .run ["--step", "-m1", "--json", "p"] = .ok (.run "p" { o with step := true }) ∧
      (Assembly.compile "exec,f1\nexec,f0").error = none ∧ o.endsByLimit m = true ∧
      Option.Rel (Outcome.ShowsSteps o m)
        ((Request.run "p" { o with step := false }).perform (.ok "exec,f1\nexec,f0"))
        ((Request.run "p" { o with step := true }).perform (.ok "exec,f1\nexec,f0")) := by
  intro o m
  obtain ⟨hwords, -, hsource⟩ := run_step "p" o (.ok "exec,f1\nexec,f0")
  have hplain : readCommand .run ["-m1", "--json", "p"] = .ok (.run "p" o) := rfl
  have hgood : (Assembly.compile "exec,f1\nexec,f0").error = none := by decide
  exact ⟨hplain, hwords _ hplain, hgood, by decide, (hsource _ rfl).2 hgood⟩

end OneBit.Command
