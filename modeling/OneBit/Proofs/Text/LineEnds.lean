/-
# Two ways to end a line

A line may end in a line feed, or in a carriage return and a line feed.  Where the first way is
replaced by the second throughout (`withReturns`), all lines stay what they are, but for one
character: a text that has the second way somewhere already gets one carriage return more there,
and keeps it at the end of the line (`linesOf_withReturns`).

A line feed at the end of a text whose last line has none makes no new line.  It takes a carriage
return at the end of that line for a part of the line's end (`linesOf_concat_feed`).
-/
import Mathlib.Data.List.Forall2
import OneBit.Proofs.Text.Lines

namespace OneBit.Text

/-- The second line is the first, perhaps with a carriage return behind it. -/
def ReturnBehind (line line' : List Char) : Prop := line' = line ∨ line' = line ++ ['\r']

theorem ReturnBehind.cons {line line' : List Char} (h : ReturnBehind line line') (c : Char) :
    ReturnBehind (c :: line) (c :: line') := by
  rcases h with rfl | rfl
  · exact .inl rfl
  · exact .inr rfl

theorem returnBehind_self (lines : List (List Char)) : List.Forall₂ ReturnBehind lines lines :=
  List.forall₂_same.mpr fun _ _ => .inl rfl

/-- The text with a carriage return before each line feed. -/
def withReturns (s : List Char) : List Char :=
  s.flatMap fun c => if c = '\n' then ['\r', '\n'] else [c]

theorem withReturns_cons_of_ne {c : Char} (h : c ≠ '\n') (s : List Char) :
    withReturns (c :: s) = c :: withReturns s := by
  simp [withReturns, h]

/-- No line feed stands at the front any more. -/
theorem withReturns_ne_feed (s more : List Char) : withReturns s ≠ '\n' :: more := by
  cases s with
  | nil => simp [withReturns]
  | cons c s =>
    by_cases h : c = '\n'
    · simp [withReturns, h]
    · rw [withReturns_cons_of_ne h]
      exact fun heq => h (List.cons.inj heq).1

/-- A character at the front is no matter of the line's end. -/
theorem forall₂_atFront {lines lines' : List (List Char)} (c : Char)
    (h : List.Forall₂ ReturnBehind lines lines') :
    List.Forall₂ ReturnBehind (atFront c lines) (atFront c lines') := by
  cases h with
  | nil => exact returnBehind_self _
  | cons hfirst hmore => exact .cons (hfirst.cons c) hmore

/-- **All lines stay what they are** but for a carriage return at the end. -/
theorem linesOf_withReturns (s : List Char) :
    List.Forall₂ ReturnBehind (linesOf s) (linesOf (withReturns s)) := by
  induction s using linesOf_induction with
  | nil => exact .nil
  | feed rest ih => exact .cons (.inl rfl) ih
  | returnFeed rest ih =>
    -- the carriage return that was there is none of the line's end any more
    have hrest : linesOf (withReturns ('\r' :: '\n' :: rest)) =
        ['\r'] :: linesOf (withReturns rest) := by
      change linesOf ('\r' :: '\r' :: '\n' :: withReturns rest) = _
      rw [linesOf_cons (by decide) (by simp), linesOf_return_feed, atFront]
    rw [hrest, linesOf_return_feed]
    exact .cons (.inr rfl) ih
  | other c rest hfeed hreturn ih =>
    rw [withReturns_cons_of_ne hfeed, linesOf_cons hfeed hreturn,
      linesOf_cons hfeed fun more _ => withReturns_ne_feed rest more]
    exact forall₂_atFront c ih

/-- A single character in the last line, which may be a carriage return. -/
theorem linesOf_singleton_concat_feed {c : Char} (h : c ≠ '\n') :
    List.Forall₂ ReturnBehind (linesOf [c, '\n']) (linesOf [c]) := by
  by_cases hc : c = '\r'
  · subst hc
    exact .cons (.inr rfl) .nil
  · have hreturn (rest more : List Char) (hc' : c = '\r') : rest ≠ '\n' :: more := absurd hc' hc
    rw [linesOf_cons h (hreturn ['\n']), linesOf_cons h (hreturn [])]
    exact returnBehind_self _

/-- **A line feed at the end makes no new line**, if the last line has none. -/
theorem linesOf_concat_feed {s : List Char} (hne : s ≠ []) (hlast : s.getLast? ≠ some '\n') :
    List.Forall₂ ReturnBehind (linesOf (s ++ ['\n'])) (linesOf s) := by
  induction s using linesOf_induction with
  | nil => exact absurd rfl hne
  | feed rest ih =>
    cases rest with
    | nil => exact absurd rfl hlast
    | cons d rest => exact .cons (.inl rfl) (ih (List.cons_ne_nil d rest) hlast)
  | returnFeed rest ih =>
    cases rest with
    | nil => exact absurd rfl hlast
    | cons d rest => exact .cons (.inl rfl) (ih (List.cons_ne_nil d rest) hlast)
  | other c rest hfeed hreturn ih =>
    cases rest with
    | nil => exact linesOf_singleton_concat_feed hfeed
    | cons d rest =>
      have hreturn' : ∀ more, c = '\r' → d :: rest ++ ['\n'] ≠ '\n' :: more := by
        rintro more hc hmore
        cases hmore
        exact hreturn rest hc rfl
      rw [List.cons_append, linesOf_cons hfeed hreturn', linesOf_cons hfeed hreturn]
      exact forall₂_atFront c (ih (List.cons_ne_nil d rest) hlast)

end OneBit.Text
