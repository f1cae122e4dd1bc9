/-
# The ends of lines in a source

A source means the same whichever way its lines end.  A line of it has at most one carriage return
more at its end if the line ends another way (`Text.linesOf_withReturns`,
`Text.linesOf_concat_feed`), and a carriage return is a blank, which decorates a line and no more
(`reading_of_returnBehind`).  So every line goes on to say what it said, under the same number, and
the text that goes with an error has no carriage return of a line's end in it.
-/
import OneBit.Proofs.Assembly.Decoration
import OneBit.Proofs.Text.LineEnds

namespace OneBit.Assembly

open Text

/-- A carriage return behind a line is a blank there. -/
theorem statement_of_returnBehind {line line' : List Char} (h : ReturnBehind line line') :
    statement line = statement line' := by
  rcases h with rfl | rfl
  · rfl
  · have hblank : Decorates line ([] ++ line ++ ['\r']) :=
      .blanks (by simp) (List.forall_mem_singleton.mpr (by decide))
    exact hblank.statement_eq.symm

theorem reading_of_returnBehind {line line' : List Char} (h : ReturnBehind line line') :
    reading (String.ofList line) = reading (String.ofList line') := by
  simp only [reading, String.toList_ofList, statement_of_returnBehind h]

/-- **Texts come to the same** if their lines differ by carriage returns at the end. -/
theorem compile_of_returnBehind {s t : String}
    (h : List.Forall₂ ReturnBehind (linesOf s.toList) (linesOf t.toList)) :
    compile s = compile t := by
  apply compileFrom_congr
  rw [lines, lines, List.forall₂_map_left_iff, List.forall₂_map_right_iff]
  exact h.imp fun _ _ hline => reading_of_returnBehind hline

/-- **The ends of lines do not count.**  A source comes to the same with a carriage return put
before each line feed, whether it has carriage returns already or not: the program, the number of
lines, and the error with its line and its text are what they were.  It comes to the same too with a
line feed at its end, if it is not empty and has none there yet. -/
theorem compile_lineEnds :
    (∀ source : String, compile (String.ofList (withReturns source.toList)) = compile source) ∧
    ∀ source : String, source ≠ "" → source.toList.getLast? ≠ some '\n' →
      compile (source ++ "\n") = compile source := by
  refine ⟨fun source => ?_, fun source hne hlast => ?_⟩
  · refine (compile_of_returnBehind ?_).symm
    rw [String.toList_ofList]
    exact linesOf_withReturns source.toList
  · apply compile_of_returnBehind
    rw [String.toList_append]
    exact linesOf_concat_feed (fun hnil => hne (String.toList_eq_nil_iff.mp hnil)) hlast

end OneBit.Assembly
