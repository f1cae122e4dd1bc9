/-
# Cuts and trims, said with concatenation

The cutting functions walk along a text.  Here each of them is said without walking: the text is
a concatenation, and the function gives one of its parts.  `after_eq_iff`, `before_eq_iff` and
`trim_eq_iff` are exact, so a statement about sources can be made in these terms alone, and a
proof about a text that is given as a concatenation needs no recursion.
-/
import Mathlib.Data.List.TakeWhile
import OneBit.Text.Blank
import OneBit.Text.Cut

namespace OneBit.Text

/-! ## 1. The first occurrence of a character -/

section Cut

variable {c : Char} {s a b u : List Char}

theorem bne_of_notMem (h : c ∉ a) : ∀ x ∈ a, (x != c) = true := by
  intro x hx
  rw [bne_iff_ne]
  rintro rfl
  exact h hx

theorem before_append (h : c ∉ a) : before c (a ++ c :: b) = a := by
  rw [before, List.takeWhile_append_of_pos (bne_of_notMem h)]
  simp

theorem before_of_notMem (h : c ∉ s) : before c s = s :=
  List.takeWhile_eq_self_iff.mpr (bne_of_notMem h)

theorem after_append (h : c ∉ a) : after c (a ++ c :: b) = b := by
  rw [after, List.dropWhile_append_of_pos (bne_of_notMem h)]
  simp

theorem after_of_notMem (h : c ∉ s) : after c s = s := by
  rw [after, List.dropWhile_eq_nil_iff.mpr (bne_of_notMem h)]

/-- A text behind the first occurrence is cut off with it. -/
theorem before_append_of_mem (h : c ∈ a) : before c (a ++ b) = before c a := by
  obtain ⟨u, v, rfl, hu⟩ := List.eq_append_cons_of_mem h
  rw [List.append_assoc, List.cons_append, before_append hu, before_append hu]

theorem before_append_of_notMem (h : c ∉ a) : before c (a ++ b) = a ++ before c b :=
  List.takeWhile_append_of_pos (bne_of_notMem h)

/-- A text behind the first occurrence is kept. -/
theorem after_append_of_mem (h : c ∈ a) : after c (a ++ b) = after c a ++ b := by
  obtain ⟨u, v, rfl, hu⟩ := List.eq_append_cons_of_mem h
  rw [List.append_assoc, List.cons_append, after_append hu, after_append hu]

theorem after_append_of_notMem (h : c ∉ a) (hb : c ∈ b) : after c (a ++ b) = after c b := by
  obtain ⟨u, v, rfl, hu⟩ := List.eq_append_cons_of_mem hb
  have hau : c ∉ a ++ u := by simp [h, hu]
  rw [← List.append_assoc, after_append hau, after_append hu]

theorem splitAt?_append (h : c ∉ a) : splitAt? c (a ++ c :: b) = some (a, b) := by
  rw [splitAt?, List.dropWhile_append_of_pos (bne_of_notMem h),
    List.takeWhile_append_of_pos (bne_of_notMem h)]
  simp

/-- `u` is `s` without all that goes up to its first `c`, if it has one. -/
def AfterFirst (c : Char) (s u : List Char) : Prop :=
  (∃ a, c ∉ a ∧ s = a ++ c :: u) ∨ c ∉ s ∧ u = s

/-- `u` is `s` without all that comes from its first `c` on, if it has one. -/
def BeforeFirst (c : Char) (s u : List Char) : Prop :=
  (∃ b, c ∉ u ∧ s = u ++ c :: b) ∨ c ∉ s ∧ u = s

theorem after_eq_iff : after c s = u ↔ AfterFirst c s u := by
  constructor
  · rintro rfl
    by_cases h : c ∈ s
    · obtain ⟨a, b, rfl, ha⟩ := List.eq_append_cons_of_mem h
      exact .inl ⟨a, ha, by rw [after_append ha]⟩
    · exact .inr ⟨h, after_of_notMem h⟩
  · rintro (⟨a, ha, rfl⟩ | ⟨h, rfl⟩)
    · exact after_append ha
    · exact after_of_notMem h

theorem before_eq_iff : before c s = u ↔ BeforeFirst c s u := by
  constructor
  · rintro rfl
    by_cases h : c ∈ s
    · obtain ⟨a, b, rfl, ha⟩ := List.eq_append_cons_of_mem h
      exact .inl ⟨b, by rw [before_append ha]; exact ⟨ha, rfl⟩⟩
    · exact .inr ⟨h, before_of_notMem h⟩
  · rintro (⟨b, hu, rfl⟩ | ⟨h, rfl⟩)
    · exact before_append hu
    · exact before_of_notMem h

end Cut

/-! ## 2. Blanks at the ends -/

section Trim

variable {s t a b : List Char}

/-- `t` neither starts nor ends with a blank. -/
def Tight (t : List Char) : Prop :=
  (∀ x, t.head? = some x → isBlank x = false) ∧ ∀ x, t.getLast? = some x → isBlank x = false

/-- `t` is `s` without the blanks at its ends. -/
def Trimmed (s t : List Char) : Prop :=
  ∃ a b, s = a ++ t ++ b ∧ (∀ x ∈ a, isBlank x = true) ∧ (∀ x ∈ b, isBlank x = true) ∧ Tight t

theorem trimEnd_append (hb : ∀ x ∈ b, isBlank x = true) : trimEnd (s ++ b) = trimEnd s := by
  rw [trimEnd, List.reverse_append,
    List.dropWhile_append_of_pos fun x hx => hb x (List.mem_reverse.mp hx), trimEnd]

/-- **Blanks around a text do not count.** -/
theorem trim_append_append (ha : ∀ x ∈ a, isBlank x = true) (hb : ∀ x ∈ b, isBlank x = true) :
    trim (a ++ s ++ b) = trim s := by
  have hstart : trimStart (a ++ s ++ b) = trimStart (s ++ b) := by
    rw [trimStart, List.append_assoc, List.dropWhile_append_of_pos ha, trimStart]
  rw [trim, trim, hstart, trimStart, List.dropWhile_append]
  split
  · rename_i hs
    rw [List.dropWhile_eq_nil_iff.mpr hb, trimStart, List.isEmpty_iff.mp hs]
  · exact trimEnd_append hb

theorem dropWhile_of_head {p : Char → Bool} (h : ∀ x, s.head? = some x → p x = false) :
    s.dropWhile p = s := by
  cases s with
  | nil => rfl
  | cons x s => simp [h x rfl]

theorem trim_of_tight (h : Tight t) : trim t = t := by
  have hstart : trimStart t = t := dropWhile_of_head h.1
  have hend : t.reverse.dropWhile isBlank = t.reverse :=
    dropWhile_of_head fun x hx => h.2 x (by rwa [List.head?_reverse] at hx)
  rw [trim, hstart, trimEnd, hend, List.reverse_reverse]

theorem head?_dropWhile {p : Char → Bool} :
    ∀ s : List Char, ∀ x, (s.dropWhile p).head? = some x → p x = false
  | [], x, h => by simp at h
  | y :: s, x, h => by
    rw [List.dropWhile_cons] at h
    split at h
    · exact head?_dropWhile s x h
    · cases h
      simpa using ‹¬ p y = true›

/-- What `trimEnd` leaves out is blank. -/
theorem trimEnd_decomp (s : List Char) :
    ∃ b, s = trimEnd s ++ b ∧ ∀ x ∈ b, isBlank x = true := by
  refine ⟨(s.reverse.takeWhile isBlank).reverse, ?_, ?_⟩
  · rw [trimEnd, ← List.reverse_append, List.takeWhile_append_dropWhile, List.reverse_reverse]
  · intro x hx
    exact List.mem_takeWhile_imp (List.mem_reverse.mp hx)

/-- **A text is its trimmed part with blanks around it.** -/
theorem trimmed_trim (s : List Char) : Trimmed s (trim s) := by
  obtain ⟨b, hb, hblank⟩ := trimEnd_decomp (trimStart s)
  refine ⟨s.takeWhile isBlank, b, ?_, fun x hx => List.mem_takeWhile_imp hx, hblank, ?_, ?_⟩
  · rw [List.append_assoc, trim, ← hb, trimStart, List.takeWhile_append_dropWhile]
  · intro x hx
    apply head?_dropWhile s x
    rw [← trimStart, hb]
    rw [trim] at hx
    simp [List.head?_append, hx]
  · intro x hx
    rw [trim, trimEnd, List.getLast?_reverse] at hx
    exact head?_dropWhile _ x hx

theorem trim_eq_iff : trim s = t ↔ Trimmed s t := by
  constructor
  · rintro rfl
    exact trimmed_trim s
  · rintro ⟨a, b, rfl, ha, hb, ht⟩
    rw [trim_append_append ha hb, trim_of_tight ht]

/-- A text without blanks is trimmed. -/
theorem trimmed_self (h : ∀ c ∈ t, isBlank c = false) : Trimmed t t := by
  refine ⟨[], [], by simp, by simp, by simp, ?_, ?_⟩
  · exact fun c hc => h c (List.mem_of_mem_head? hc)
  · exact fun c hc => h c (List.mem_of_mem_getLast? hc)

end Trim

end OneBit.Text
