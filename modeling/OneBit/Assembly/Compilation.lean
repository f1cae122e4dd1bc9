/-
# Compilation

The lines of a source are compiled one after the other, and the first bad one ends the work.
A COMPILATION keeps what was reached by then: the instructions of the lines before, the number
of lines looked at, the bad one included, and the error if there was one.

`compileFrom` is the whole of it, line by line, so that two sources laid end to end compile as
one after the other (`compileFrom_append_of_ok`, `compileFrom_append_of_error`).
-/
import OneBit.Assembly.Statement
import OneBit.Program.Basic
import OneBit.Text.Lines

namespace OneBit.Assembly

/-- An error with the number of its line, counted from 1, and the statement of that line. -/
structure CompileError where
  kind : ErrorKind
  line : Nat
  text : String
deriving DecidableEq, Repr

/-- The wording of a compile error. -/
def CompileError.message (e : CompileError) : String :=
  e.kind.message ++ " on line " ++ toString e.line ++ ": " ++ e.text

/-- What became of a source. -/
structure Compilation where
  program : Program
  linesConsumed : Nat
  error : Option CompileError
deriving DecidableEq, Repr

namespace Compilation

/-- No line was looked at. -/
def start : Compilation := ⟨⟨[]⟩, 0, none⟩

/-- One more line in front, which says nothing. -/
def consBlank (c : Compilation) : Compilation := { c with linesConsumed := c.linesConsumed + 1 }

/-- One more line in front, with an instruction. -/
def consInstruction (i : Instruction) (c : Compilation) : Compilation :=
  { c with program := ⟨i :: c.program.instructions⟩, linesConsumed := c.linesConsumed + 1 }

/-- A bad line, at which the work ends. -/
def failed (e : CompileError) : Compilation := ⟨⟨[]⟩, 1, some e⟩

/-- One compilation after another. -/
def append (a b : Compilation) : Compilation :=
  ⟨⟨a.program.instructions ++ b.program.instructions⟩, a.linesConsumed + b.linesConsumed,
    b.error⟩

/-- The program, if there was no error. -/
def toExcept (c : Compilation) : Except CompileError Program :=
  match c.error with
  | none => .ok c.program
  | some e => .error e

end Compilation

/-- Compile lines of which the first has number `n`. -/
def compileFrom (n : Nat) : List String → Compilation
  | [] => .start
  | line :: rest =>
    let text := statement line.toList
    if text.isEmpty then (compileFrom (n + 1) rest).consBlank
    else
      match parse text with
      | .ok instruction => (compileFrom (n + 1) rest).consInstruction instruction
      | .error kind => .failed ⟨kind, n, String.ofList text⟩

/-- Compile a list of lines. -/
def compileLines (lines : List String) : Compilation := compileFrom 1 lines

/-- Compile a source text. -/
def compile (source : String) : Compilation := compileLines (Text.lines source)

/-! ## Sources laid end to end -/

/-- **A good source before another one.** -/
theorem compileFrom_append_of_ok {a : List String} {n : Nat}
    (h : (compileFrom n a).error = none) (b : List String) :
    compileFrom n (a ++ b) = (compileFrom n a).append (compileFrom (n + a.length) b) := by
  induction a generalizing n with
  | nil => simp [compileFrom, Compilation.append, Compilation.start]
  | cons line rest ih =>
    simp only [List.cons_append, compileFrom, List.length_cons] at h ⊢
    split at h
    · rename_i hblank
      rw [if_pos hblank, if_pos hblank, ih h]
      simp only [Compilation.append, Compilation.consBlank, Compilation.mk.injEq]
      rw [show n + (rest.length + 1) = n + 1 + rest.length by omega]
      exact ⟨rfl, by omega, rfl⟩
    · rename_i hblank
      rw [if_neg hblank, if_neg hblank]
      split at h
      · rename_i i hparse
        rw [ih h]
        simp only [Compilation.append, Compilation.consInstruction, Compilation.mk.injEq]
        rw [show n + (rest.length + 1) = n + 1 + rest.length by omega]
        exact ⟨rfl, by omega, rfl⟩
      · exact absurd h (by simp [Compilation.failed])

/-- **Nothing after a bad line counts.** -/
theorem compileFrom_append_of_error {a : List String} {n : Nat} {e : CompileError}
    (h : (compileFrom n a).error = some e) (b : List String) :
    compileFrom n (a ++ b) = compileFrom n a := by
  induction a generalizing n with
  | nil => exact absurd h (by simp [compileFrom, Compilation.start])
  | cons line rest ih =>
    simp only [List.cons_append, compileFrom] at h ⊢
    split at h
    · rename_i hblank
      rw [if_pos hblank, if_pos hblank, ih h]
    · rename_i hblank
      rw [if_neg hblank, if_neg hblank]
      split at h
      · rw [ih h]
      · rfl

end OneBit.Assembly
