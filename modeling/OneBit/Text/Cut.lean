/-
# Cutting a text at a character

Three ways to cut at the FIRST occurrence of a character: what comes before it, what comes
after it, and both.  They differ when the character does not occur.  `before` and `after` then
give the whole text, since there is nothing to leave out, and `splitAt?` gives nothing, since
there are no two parts.
-/
namespace OneBit.Text

/-- The part of `s` before its first `c`, all of `s` if it has none. -/
def before (c : Char) (s : List Char) : List Char := s.takeWhile (· != c)

/-- The part of `s` after its first `c`, all of `s` if it has none. -/
def after (c : Char) (s : List Char) : List Char :=
  match s.dropWhile (· != c) with
  | [] => s
  | _ :: rest => rest

/-- The parts of `s` before and after its first `c`. -/
def splitAt? (c : Char) (s : List Char) : Option (List Char × List Char) :=
  match s.dropWhile (· != c) with
  | [] => none
  | _ :: rest => some (s.takeWhile (· != c), rest)

/-- Only a text without the character cannot be split at it. -/
theorem splitAt?_eq_none_iff {c : Char} {s : List Char} : splitAt? c s = none ↔ c ∉ s := by
  induction s with
  | nil => simp [splitAt?]
  | cons d s ih =>
    by_cases hd : d = c
    · simp [splitAt?, hd]
    · have hne : (d != c) = true := by simp [hd]
      have hstep : splitAt? c (d :: s) = none ↔ splitAt? c s = none := by
        simp only [splitAt?, List.dropWhile_cons, hne, if_true]
        cases s.dropWhile (· != c) <;> simp
      rw [hstep, ih, List.mem_cons, not_or]
      exact ⟨fun h => ⟨Ne.symm hd, h⟩, fun h => h.2⟩

end OneBit.Text
