/-
# Lines that are put together and taken apart

A text made of lines with a line feed between them has these lines again, if no line has a line
feed inside or a carriage return at its end, where it would be taken for a part of the line's
own end (`linesOf_intercalate`).  The last line must not be empty, since nothing marks an empty
line at the end of a text.  Where each line has a line feed behind it, as lines are printed, there
is no such exception (`lines_join`).

What is proved about all texts is proved by `linesOf_induction`: a text begins with one of the two
ends of a line, or with a character that is put at the front of its first line (`linesOf_cons`).
-/
import OneBit.Proofs.Text.Numeral
import OneBit.Text.Lines

namespace OneBit.Text

/-! ## 1. A text, character by character -/

/-- The lines with a character put before the first of them. -/
def atFront (c : Char) : List (List Char) → List (List Char)
  | [] => [[c]]
  | line :: more => (c :: line) :: more

section Characters

variable {c : Char} {rest : List Char}

theorem linesOf_return_feed : linesOf ('\r' :: '\n' :: rest) = [] :: linesOf rest := rfl

/-- Any other character belongs to the first line. -/
theorem linesOf_cons (hfeed : c ≠ '\n') (hreturn : ∀ more, c = '\r' → rest ≠ '\n' :: more) :
    linesOf (c :: rest) = atFront c (linesOf rest) :=
  linesOf.eq_4 c rest hfeed hreturn

/-- Two ways to end a line, an empty line, and a carriage return that ends no line. -/
example :
    linesOf ['a', '\r', '\n', '\n', '\r', 'b', '\r'] = [['a'], [], ['\r', 'b', '\r']] := by
  decide

/-- Induction over a text in which a line's end is one step. -/
@[elab_as_elim]
theorem linesOf_induction {motive : List Char → Prop} (nil : motive [])
    (feed : ∀ rest, motive rest → motive ('\n' :: rest))
    (returnFeed : ∀ rest, motive rest → motive ('\r' :: '\n' :: rest))
    (other : ∀ c rest, c ≠ '\n' → (∀ more, c = '\r' → rest ≠ '\n' :: more) → motive rest →
      motive (c :: rest))
    (s : List Char) : motive s := by
  induction s using linesOf.induct with
  | case1 => exact nil
  | case2 rest ih => exact feed rest ih
  | case3 rest ih => exact returnFeed rest ih
  | case4 c rest hfeed hreturn _ ih => exact other c rest hfeed hreturn ih
  | case5 c rest hfeed hreturn _ _ _ ih => exact other c rest hfeed hreturn ih

end Characters

/-! ## 2. Lines with an end behind them -/

/-- `line` can stand as one line of a text. -/
def Unbroken (line : List Char) : Prop :=
  '\n' ∉ line ∧ line.getLast? ≠ some '\r'

/-- No character of a line's end is in the text, so it can stand anywhere in a line. -/
def Inline (s : List Char) : Prop := '\n' ∉ s ∧ '\r' ∉ s

instance : DecidablePred Inline := fun _ => inferInstanceAs (Decidable (_ ∧ _))

theorem Inline.unbroken {s : List Char} (h : Inline s) : Unbroken s :=
  ⟨h.1, fun hlast => h.2 (List.mem_of_mem_getLast? hlast)⟩

/-- A text is inline if its pieces are. -/
theorem inline_append {a b : List Char} : Inline (a ++ b) ↔ Inline a ∧ Inline b := by
  simp only [Inline, List.mem_append, not_or]
  exact and_and_and_comm

theorem inline_flatMap {α : Type} {pieces : List α} {g : α → List Char}
    (h : ∀ a ∈ pieces, Inline (g a)) : Inline (pieces.flatMap g) := by
  induction pieces with
  | nil => exact ⟨List.not_mem_nil, List.not_mem_nil⟩
  | cons a pieces ih =>
    rw [List.flatMap_cons, inline_append]
    exact ⟨h a List.mem_cons_self, ih fun b hb => h b (List.mem_cons_of_mem a hb)⟩

/-- A text is inline if its characters are of a kind to which no line's end belongs. -/
theorem inline_of_forall {s : List Char} {p : Char → Prop} (h : ∀ c ∈ s, p c) (hfeed : ¬ p '\n')
    (hreturn : ¬ p '\r') : Inline s :=
  ⟨fun hmem => hfeed (h _ hmem), fun hmem => hreturn (h _ hmem)⟩

theorem inline_toString (n : Nat) : Inline (toString n).toList :=
  inline_of_forall (fun _ => isDigit_of_mem_toString) (by decide) (by decide)

theorem inline_padStart {width : Nat} {fill : Char} {s : String} (hfill : Inline [fill])
    (hs : Inline s.toList) : Inline (padStart width fill s).toList := by
  rw [padStart, String.toList_ofList, List.leftpad, inline_append]
  refine ⟨?_, hs⟩
  rw [Inline, List.mem_singleton, List.mem_singleton] at hfill
  exact ⟨fun h => hfill.1 (List.eq_of_mem_replicate h),
    fun h => hfill.2 (List.eq_of_mem_replicate h)⟩

theorem unbroken_of_cons {c : Char} {line : List Char} (h : Unbroken (c :: line)) :
    Unbroken line := by
  obtain ⟨hfeed, hlast⟩ := h
  refine ⟨fun hmem => hfeed (List.mem_cons_of_mem c hmem), fun hcr => hlast ?_⟩
  cases line with
  | nil => exact absurd hcr (by simp)
  | cons d rest => rwa [List.getLast?_cons_cons]

/-- The first character of an unbroken line is no part of a line's end, whatever follows the
line. -/
theorem linesOf_cons_of_unbroken {c : Char} {line : List Char} (h : Unbroken (c :: line))
    (rest : List Char) :
    linesOf (c :: (line ++ rest)) = atFront c (linesOf (line ++ rest)) := by
  have hfeed : c ≠ '\n' := by
    rintro rfl
    exact h.1 List.mem_cons_self
  have hcr : ∀ after, c = '\r' → line ++ rest ≠ '\n' :: after := by
    rintro after rfl hafter
    cases line with
    | nil => exact h.2 rfl
    | cons d line =>
      cases hafter
      exact h.1 (by simp)
  exact linesOf_cons hfeed hcr

/-- **The first line of a text is all that stands before its line feed.** -/
theorem linesOf_append_feed {line : List Char} (h : Unbroken line) (rest : List Char) :
    linesOf (line ++ '\n' :: rest) = line :: linesOf rest := by
  induction line with
  | nil => rfl
  | cons c line ih =>
    rw [List.cons_append, linesOf_cons_of_unbroken h, ih (unbroken_of_cons h), atFront]

/-- A text without a line feed is one line. -/
theorem linesOf_unbroken {line : List Char} (h : Unbroken line) (hne : line ≠ []) :
    linesOf line = [line] := by
  induction line with
  | nil => exact absurd rfl hne
  | cons c line ih =>
    have hstep := linesOf_cons_of_unbroken h []
    rw [List.append_nil] at hstep
    rw [hstep]
    cases line with
    | nil => rfl
    | cons d line => rw [ih (unbroken_of_cons h) (List.cons_ne_nil d line), atFront]

/-- **Lines with a line feed between them are found again.** -/
theorem linesOf_intercalate {ls : List (List Char)} (h : ∀ line ∈ ls, Unbroken line)
    (hlast : ∀ line, ls.getLast? = some line → line ≠ []) :
    linesOf (['\n'].intercalate ls) = ls := by
  induction ls with
  | nil => rfl
  | cons line more ih =>
    have hline : Unbroken line := h line List.mem_cons_self
    cases more with
    | nil => rw [List.intercalate_singleton, linesOf_unbroken hline (hlast line rfl)]
    | cons next more =>
      rw [List.intercalate_cons_cons, List.append_assoc, List.singleton_append,
        linesOf_append_feed hline, ih fun l hl => h l (List.mem_cons_of_mem line hl)]
      intro l hl
      exact hlast l (by rwa [List.getLast?_cons_cons])

/-- The same for texts. -/
theorem lines_intercalate {ls : List String} (h : ∀ line ∈ ls, Unbroken line.toList)
    (hlast : ∀ line, ls.getLast? = some line → line ≠ "") :
    lines ("\n".intercalate ls) = ls := by
  have hlists : linesOf (['\n'].intercalate (ls.map String.toList)) = ls.map String.toList := by
    apply linesOf_intercalate
    · intro line hline
      obtain ⟨text, htext, rfl⟩ := List.mem_map.mp hline
      exact h text htext
    · intro line hline
      rw [List.getLast?_map] at hline
      obtain ⟨text, htext, rfl⟩ := Option.map_eq_some_iff.mp hline
      exact fun hnil => hlast text htext (String.toList_eq_nil_iff.mp hnil)
  rw [lines, String.toList_intercalate]
  change (linesOf (['\n'].intercalate (ls.map String.toList))).map String.ofList = ls
  rw [hlists, List.map_map]
  simp [Function.comp_def]

/-- **Lines that are printed are found again**, those that are empty too, and what is printed after
them has its own lines. -/
theorem lines_join_append {ls : List String} (h : ∀ line ∈ ls, Unbroken line.toList)
    (rest : String) :
    lines (String.join (ls.map fun line => line ++ "\n") ++ rest) = ls ++ lines rest := by
  induction ls with
  | nil => rw [List.map_nil, String.join_nil, String.empty_append, List.nil_append]
  | cons line more ih =>
    have hmore := ih fun l hl => h l (List.mem_cons_of_mem line hl)
    have hfirst : Unbroken line.toList := h line List.mem_cons_self
    have hchars : (String.join ((line :: more).map fun l => l ++ "\n") ++ rest).toList =
        line.toList ++ '\n' :: (String.join (more.map fun l => l ++ "\n") ++ rest).toList := by
      rw [List.map_cons, String.join_cons, String.append_assoc, String.append_assoc,
        String.toList_append, String.toList_append]
      rfl
    rw [lines, hchars, linesOf_append_feed hfirst, List.map_cons, String.ofList_toList,
      List.cons_append]
    exact congrArg (line :: ·) hmore

/-- The same where nothing more is printed. -/
theorem lines_join {ls : List String} (h : ∀ line ∈ ls, Unbroken line.toList) :
    lines (String.join (ls.map fun line => line ++ "\n")) = ls := by
  have hlines := lines_join_append h ""
  rwa [String.append_empty, show lines "" = [] from rfl, List.append_nil] at hlines

/-! ## 3. What is in a line -/

end OneBit.Text
