/-
# Labels, comments and blanks

A line can be DECORATED: blanks can be put around it, a label before it and a comment behind it, in
any order and as often as one likes.  A label needs a line that has none yet, and a comment must not
have an `@`, which would make a label of all that stands before it, unless the line has a label
already.  No decoration changes the statement of a line (`Decorates.statement_eq`), so none changes
what a source comes to.

The exception is exact.  A comment with an `@` behind a line without one makes a label of the whole
line, and what counts is the part of the comment behind that `@`: it is read as the rest of a line
whose label is taken off (`readingUnlabelled`), where a further `@` is a character like any other.
-/
import Mathlib.Logic.Relation
import OneBit.Proofs.Assembly.Sequence
import OneBit.Proofs.Text.Cut

namespace OneBit.Assembly

open Text

/-! ## 1. Lines without a label -/

/-- The statement of a line that has no label, or of what is left of a line without its label. -/
def unlabelled (rest : List Char) : List Char := trim (before '#' rest)

theorem statement_eq_unlabelled (line : List Char) :
    statement line = unlabelled (after '@' line) := rfl

/-- What a line says that has no label, or what is left of a line without its label. -/
def readingUnlabelled (rest : List Char) :
    Except (ErrorKind × String) (Option Instruction) :=
  let text := unlabelled rest
  if text.isEmpty then .ok none
  else
    match parse text with
    | .ok instruction => .ok (some instruction)
    | .error kind => .error (kind, String.ofList text)

/-- **A line is read without its label.** -/
theorem reading_eq_readingUnlabelled (line : String) :
    reading line = readingUnlabelled (after '@' line.toList) := rfl

section Unlabelled

variable {s a b comment : List Char}

/-- Blanks around what is read do not count. -/
theorem unlabelled_blanks (ha : ∀ c ∈ a, isBlank c = true) (hb : ∀ c ∈ b, isBlank c = true) :
    unlabelled (a ++ s ++ b) = unlabelled s := by
  have hmark : '#' ∉ a := fun h => absurd (ha _ h) (by decide)
  rw [unlabelled, unlabelled, List.append_assoc, before_append_of_notMem hmark]
  by_cases hs : '#' ∈ s
  · rw [before_append_of_mem hs, ← List.append_nil (a ++ _)]
    exact trim_append_append ha (by simp)
  · have hmark' : '#' ∉ b := fun h => absurd (hb _ h) (by decide)
    rw [before_append_of_notMem hs, before_of_notMem hmark', before_of_notMem hs,
      ← List.append_assoc]
    exact trim_append_append ha hb

/-- A comment does not count. -/
theorem unlabelled_comment : unlabelled (s ++ '#' :: comment) = unlabelled s := by
  by_cases hs : '#' ∈ s
  · rw [unlabelled, before_append_of_mem hs, unlabelled]
  · rw [unlabelled, before_append hs, unlabelled, before_of_notMem hs]

end Unlabelled

/-! ## 2. Decorations -/

/-- One thing that can be done to a line without changing what it says. -/
inductive Decorates (line : List Char) : List Char → Prop
  | blanks {a b : List Char} (ha : ∀ c ∈ a, isBlank c = true) (hb : ∀ c ∈ b, isBlank c = true) :
      Decorates line (a ++ line ++ b)
  /-- A `#` in a label starts no comment. -/
  | label {label : List Char} (hlabel : '@' ∉ label) (hline : '@' ∉ line) :
      Decorates line (label ++ '@' :: line)
  | comment {comment : List Char} (h : '@' ∉ comment ∨ '@' ∈ line) :
      Decorates line (line ++ '#' :: comment)

/-- **A decoration keeps the statement.** -/
theorem Decorates.statement_eq {line line' : List Char} (h : Decorates line line') :
    statement line' = statement line := by
  rw [statement_eq_unlabelled, statement_eq_unlabelled]
  cases h with
  | @blanks a b ha hb =>
    have hmark : '@' ∉ a := fun h => absurd (ha _ h) (by decide)
    have hmark' : '@' ∉ b := fun h => absurd (hb _ h) (by decide)
    by_cases hline : '@' ∈ line
    · rw [List.append_assoc, after_append_of_notMem hmark (List.mem_append_left b hline),
        after_append_of_mem hline, ← List.nil_append (after '@' line)]
      exact unlabelled_blanks (by simp) hb
    · have hnone : '@' ∉ a ++ line ++ b := by simp [hmark, hline, hmark']
      rw [after_of_notMem hnone, after_of_notMem hline]
      exact unlabelled_blanks ha hb
  | @label label hlabel hline => rw [after_append hlabel, after_of_notMem hline]
  | @comment comment h =>
    by_cases hline : '@' ∈ line
    · rw [after_append_of_mem hline, unlabelled_comment]
    · have hcomment : '@' ∉ comment := h.resolve_right hline
      have hnone : '@' ∉ line ++ '#' :: comment := by simp [hline, hcomment]
      rw [after_of_notMem hnone, after_of_notMem hline, unlabelled_comment]

/-- So do decorations one after the other. -/
theorem statement_of_decorated {line line' : List Char}
    (h : Relation.ReflTransGen Decorates line line') : statement line' = statement line := by
  induction h with
  | refl => rfl
  | tail _ hlast ih => rw [hlast.statement_eq, ih]

/-- Decorated lines say what they said. -/
theorem reading_of_decorated {line line' : String}
    (h : Relation.ReflTransGen Decorates line.toList line'.toList) :
    reading line' = reading line := by
  simp only [reading, statement_of_decorated h]

/-! ## 3. Sources -/

/-- **Labels, comments and blanks never change what a source comes to**, with one exception.  Let
any lines of a source be decorated, in any way.  Then the program, the number of lines and the error
with its text are what they were.  The exception is a comment with an `@` behind a line without one:
such a line says what the part of the comment behind its first `@` says, read as a line without a
label.  If that part has no `@` itself, it could as well stand there as the line. -/
theorem compileLines_decorated :
    (∀ lines lines' : List String,
      List.Forall₂ (fun line line' => Relation.ReflTransGen Decorates line.toList line'.toList)
        lines lines' →
      compileLines lines' = compileLines lines) ∧
    ∀ (above below : List String) (line comment rest : String),
      '@' ∉ line.toList → '@' ∉ comment.toList →
      compileLines (above ++ (line ++ "#" ++ (comment ++ "@" ++ rest)) :: below) =
        compileReadings 1
          (above.map reading ++ readingUnlabelled rest.toList :: below.map reading) ∧
      ('@' ∉ rest.toList →
        compileLines (above ++ (line ++ "#" ++ (comment ++ "@" ++ rest)) :: below) =
          compileLines (above ++ rest :: below)) := by
  refine ⟨?_, ?_⟩
  · intro lines lines' h
    refine (compileFrom_congr 1 (h.imp fun line line' hline => ?_)).symm
    exact (reading_of_decorated hline).symm
  · intro above below line comment rest hline hcomment
    have hafter : after '@' (line ++ "#" ++ (comment ++ "@" ++ rest)).toList = rest.toList := by
      have hlabel : '@' ∉ line.toList ++ '#' :: comment.toList := by simp [hline, hcomment]
      rw [← after_append (b := rest.toList) hlabel]
      simp [String.toList_append]
    have hreading : reading (line ++ "#" ++ (comment ++ "@" ++ rest)) =
        readingUnlabelled rest.toList := by
      rw [reading_eq_readingUnlabelled, hafter]
    refine ⟨?_, fun hrest => ?_⟩
    · rw [compileLines, compileFrom_eq, List.map_append, List.map_cons, hreading]
    · have hsame : reading rest = readingUnlabelled rest.toList := by
        rw [reading_eq_readingUnlabelled, after_of_notMem hrest]
      rw [compileLines, compileLines, compileFrom_eq, compileFrom_eq, List.map_append,
        List.map_append, List.map_cons, List.map_cons, hreading, hsame]

/-- A second `@` belongs to the statement. -/
example : reading "tag,1 # see @ adv,2@" = .error (.invalidOperand, "adv,2@") := by decide

end OneBit.Assembly
