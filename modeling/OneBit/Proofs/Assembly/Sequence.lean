/-
# Compilation, line by line

What a source comes to is decided by what each of its lines says, and a line is read by itself:
`reading` takes one line and gives nothing, an instruction or an error.  `compileFrom_cons` puts
a compilation together from the reading of the first line and the compilation of the others, so
each statement about sources is an induction over the lines with three cases.

The main fact of this file is `compileLines_sequence`: two sources laid end to end compile one
after the other, and the first bad line ends the work.  Its parts are

* `compileFrom_add`: the number of the first line matters for the number in an error only;
* `linesConsumed_of_ok`: without an error every line is looked at;
* `compileFrom_of_error`: with an error in line `k` the program is that of the lines before,
  and what comes after that line can be replaced at will.

The program itself can be told without compiling: it holds the instructions of the lines that
can be read, up to the first that cannot (`program_compileFrom`).

The lines themselves are not needed once it is known what they say: `compileReadings` compiles from
their readings alone, so a source may be changed at will as long as its lines go on to say the same
(`compileFrom_congr`).
-/
import Mathlib.Data.List.Forall2
import OneBit.Assembly.Compilation

namespace OneBit.Assembly

/-! ## 1. What a line says -/

/-- What a line says: nothing, an instruction, or what is wrong with it and its statement. -/
def reading (line : String) : Except (ErrorKind × String) (Option Instruction) :=
  let text := statement line.toList
  if text.isEmpty then .ok none
  else
    match parse text with
    | .ok instruction => .ok (some instruction)
    | .error kind => .error (kind, String.ofList text)

/-- **A source is compiled by the reading of its first line.** -/
theorem compileFrom_cons (n : Nat) (line : String) (rest : List String) :
    compileFrom n (line :: rest) =
      match reading line with
      | .ok none => (compileFrom (n + 1) rest).consBlank
      | .ok (some i) => (compileFrom (n + 1) rest).consInstruction i
      | .error (kind, text) => .failed ⟨kind, n, text⟩ := by
  by_cases hblank : (statement line.toList).isEmpty
  · simp only [compileFrom, reading, if_pos hblank]
  · simp only [compileFrom, reading, if_neg hblank]
    cases parse (statement line.toList) <;> rfl

/-! ## 2. The number of the first line -/

/-- The error of a line that stands `k` lines further down. -/
def CompileError.shift (k : Nat) (e : CompileError) : CompileError := { e with line := e.line + k }

/-- The compilation of the same lines, `k` lines further down. -/
def Compilation.shift (k : Nat) (c : Compilation) : Compilation :=
  { c with error := c.error.map (CompileError.shift k) }

/-- **Only the number of an error depends on where the lines stand.** -/
theorem compileFrom_add (n k : Nat) (lines : List String) :
    compileFrom (n + k) lines = (compileFrom n lines).shift k := by
  induction lines generalizing n with
  | nil => rfl
  | cons line rest ih =>
    have hrest : compileFrom (n + k + 1) rest = (compileFrom (n + 1) rest).shift k := by
      rw [← ih, Nat.add_right_comm]
    rw [compileFrom_cons, compileFrom_cons, hrest]
    rcases reading line with ⟨kind, text⟩ | _ | i <;> rfl

/-! ## 3. How far the work goes -/

/-- Without an error every line is looked at. -/
theorem linesConsumed_of_ok {n : Nat} {lines : List String}
    (h : (compileFrom n lines).error = none) :
    (compileFrom n lines).linesConsumed = lines.length := by
  induction lines generalizing n with
  | nil => rfl
  | cons line rest ih =>
    rw [compileFrom_cons] at h ⊢
    cases hline : reading line with
    | error bad =>
      rw [hline] at h
      exact absurd h (by simp [Compilation.failed])
    | ok said =>
      rw [hline] at h
      cases said <;> exact congrArg (· + 1) (ih h)

/-- **The lines before the bad line make the program, and those after it make no difference.**
The bad line is the line after the first `k`. -/
theorem compileFrom_of_error {n : Nat} {lines : List String} {e : CompileError}
    (h : (compileFrom n lines).error = some e) :
    ∃ k, k < lines.length ∧ e.line = n + k ∧
      (compileFrom n lines).linesConsumed = k + 1 ∧
      compileFrom n (lines.take k) = ⟨(compileFrom n lines).program, k, none⟩ ∧
      ∀ rest, compileFrom n (lines.take (k + 1) ++ rest) = compileFrom n lines := by
  induction lines generalizing n with
  | nil => exact absurd h (by simp [compileFrom, Compilation.start])
  | cons line rest ih =>
    rw [compileFrom_cons] at h
    cases hline : reading line with
    | error bad =>
      rw [hline] at h
      cases h
      refine ⟨0, Nat.succ_pos _, rfl, ?_, ?_, ?_⟩
      · rw [compileFrom_cons, hline]; rfl
      · rw [compileFrom_cons, hline]; rfl
      · intro after
        rw [List.take_succ_cons, List.cons_append, compileFrom_cons, compileFrom_cons, hline]
    | ok said =>
      have herr : (compileFrom (n + 1) rest).error = some e := by
        rw [hline] at h
        cases said <;> exact h
      obtain ⟨k, hk, hnum, hcons, hprog, hafter⟩ := ih herr
      refine ⟨k + 1, Nat.succ_lt_succ hk, by omega, ?_, ?_, ?_⟩
      · rw [compileFrom_cons, hline]
        cases said <;> exact congrArg (· + 1) hcons
      · rw [List.take_succ_cons, compileFrom_cons, compileFrom_cons, hline, hprog]
        cases said <;> rfl
      · intro after
        rw [List.take_succ_cons, List.cons_append, compileFrom_cons, compileFrom_cons, hline,
          hafter after]

/-- **Compilation is sequential.**  A source before another one either has an error, and then
the other does not count, or its program and its lines come before those of the other, whose
error stands further down.  So the work without an error goes to the last line, and with an
error it goes to the line of the error: the lines before that line make the program, and those
after it have no influence. -/
theorem compileLines_sequence :
    (∀ a b : List String,
      (∀ e, (compileLines a).error = some e → compileLines (a ++ b) = compileLines a) ∧
      ((compileLines a).error = none →
        compileLines (a ++ b) =
          ⟨⟨(compileLines a).program.instructions ++ (compileLines b).program.instructions⟩,
            (compileLines a).linesConsumed + (compileLines b).linesConsumed,
            (compileLines b).error.map fun e => { e with line := e.line + a.length }⟩)) ∧
    ∀ lines : List String,
      ((compileLines lines).error = none →
        (compileLines lines).linesConsumed = lines.length) ∧
      ∀ e, (compileLines lines).error = some e →
        e.line = (compileLines lines).linesConsumed ∧ 0 < e.line ∧ e.line ≤ lines.length ∧
        compileLines (lines.take (e.line - 1)) =
          ⟨(compileLines lines).program, e.line - 1, none⟩ ∧
        ∀ rest, compileLines (lines.take e.line ++ rest) = compileLines lines := by
  refine ⟨fun a b => ⟨fun e h => compileFrom_append_of_error h b, fun h => ?_⟩,
    fun lines => ⟨linesConsumed_of_ok, fun e h => ?_⟩⟩
  · exact (compileFrom_append_of_ok h b).trans
      (congrArg (Compilation.append _) (compileFrom_add 1 a.length b))
  · obtain ⟨k, hk, hnum, hcons, hprog, hafter⟩ := compileFrom_of_error h
    have hline : e.line = k + 1 := by omega
    rw [hline, Nat.add_sub_cancel]
    exact ⟨hcons.symm, Nat.succ_pos k, hk, hprog, hafter⟩

/-! ## 5. The lines that make the program -/

/-- Can the line be read? -/
def isReadable (line : String) : Bool :=
  match reading line with
  | .ok _ => true
  | .error _ => false

/-- The instruction that a line gives, if it gives one. -/
def instruction? (line : String) : Option Instruction :=
  match reading line with
  | .ok said => said
  | .error _ => none

/-- The lines before the first bad one, or all lines if none is bad. -/
def goodLines (lines : List String) : List String := lines.takeWhile isReadable

theorem goodLines_cons (line : String) (rest : List String) :
    goodLines (line :: rest) = if isReadable line then line :: goodLines rest else [] :=
  List.takeWhile_cons

/-- **The program is made of the instructions of the good lines.** -/
theorem program_compileFrom (n : Nat) (lines : List String) :
    (compileFrom n lines).program = ⟨(goodLines lines).filterMap instruction?⟩ := by
  induction lines generalizing n with
  | nil => rfl
  | cons line rest ih =>
    rw [compileFrom_cons, goodLines_cons]
    rcases hline : reading line with bad | _ | i
    · simp [isReadable, hline, Compilation.failed]
    · simp [isReadable, instruction?, hline, Compilation.consBlank, ih]
    · simp [isReadable, instruction?, hline, Compilation.consInstruction, ih]

/-- Without an error all lines are good. -/
theorem goodLines_of_ok {n : Nat} {lines : List String} (h : (compileFrom n lines).error = none) :
    goodLines lines = lines := by
  induction lines generalizing n with
  | nil => rfl
  | cons line rest ih =>
    rw [compileFrom_cons] at h
    rw [goodLines_cons]
    rcases hline : reading line with bad | said
    · rw [hline] at h
      exact absurd h (by simp [Compilation.failed])
    · have hrest : (compileFrom (n + 1) rest).error = none := by
        rw [hline] at h
        cases said <;> exact h
      simp only [isReadable, hline, if_true, ih hrest]

/-- The number of an error counts the good lines. -/
theorem line_of_error {n : Nat} {lines : List String} {e : CompileError}
    (h : (compileFrom n lines).error = some e) : e.line = n + (goodLines lines).length := by
  induction lines generalizing n with
  | nil => exact absurd h (by simp [compileFrom, Compilation.start])
  | cons line rest ih =>
    rw [compileFrom_cons] at h
    rw [goodLines_cons]
    rcases hline : reading line with bad | said
    · rw [hline] at h
      cases h
      simp [isReadable, hline]
    · have hrest : (compileFrom (n + 1) rest).error = some e := by
        rw [hline] at h
        cases said <;> exact h
      have hnum := ih hrest
      simp only [isReadable, hline, if_true, List.length_cons]
      omega

/-- With an error the good lines are those before the line of the error. -/
theorem goodLines_of_error {n : Nat} {lines : List String} {e : CompileError}
    (h : (compileFrom n lines).error = some e) : goodLines lines = lines.take (e.line - n) := by
  have hlength : e.line - n = (goodLines lines).length := by
    rw [line_of_error h, Nat.add_sub_cancel_left]
  rw [hlength]
  exact List.prefix_iff_eq_take.mp (List.takeWhile_prefix isReadable)

/-! ## 6. Lines of which only the readings are known -/

/-- Compile lines of which the first has number `n`, from what they say. -/
def compileReadings (n : Nat) :
    List (Except (ErrorKind × String) (Option Instruction)) → Compilation
  | [] => .start
  | .ok none :: rest => (compileReadings (n + 1) rest).consBlank
  | .ok (some i) :: rest => (compileReadings (n + 1) rest).consInstruction i
  | .error (kind, text) :: _ => .failed ⟨kind, n, text⟩

/-- **A source is compiled from the readings of its lines.** -/
theorem compileFrom_eq (n : Nat) (lines : List String) :
    compileFrom n lines = compileReadings n (lines.map reading) := by
  induction lines generalizing n with
  | nil => rfl
  | cons line rest ih =>
    rw [compileFrom_cons, List.map_cons, ih]
    rcases reading line with ⟨kind, text⟩ | _ | i <;> rfl

/-- Sources whose lines say the same come to the same. -/
theorem compileFrom_congr {a b : List String} (n : Nat)
    (h : List.Forall₂ (fun line line' => reading line = reading line') a b) :
    compileFrom n a = compileFrom n b := by
  have hmap : a.map reading = b.map reading := by
    rwa [← List.forall₂_eq_eq_eq, List.forall₂_map_left_iff, List.forall₂_map_right_iff]
  rw [compileFrom_eq, compileFrom_eq, hmap]

end OneBit.Assembly
