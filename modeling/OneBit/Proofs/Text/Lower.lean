/-
# Small letters

Texts that are the same up to the case of their letters have the same form in SMALL LETTERS
(`sameUpToCase_iff_lower`).  Everything that is done to a source text before names are compared can
be done to this form as well: to cut a text, to trim it, to take its lines apart and to read a
numeral gives the same on the small form, or the small form of what it gives.  The reason is always
that the characters that are looked for are no letters (`apply_toLower`).
-/
import OneBit.Proofs.Text.Case
import OneBit.Proofs.Text.Lines
import OneBit.Text.Cut
import OneBit.Text.Numeral

namespace OneBit.Text

/-! ## 1. The small form -/

/-- The text in small letters. -/
def lower (s : List Char) : List Char := s.map Char.toLower

theorem toList_toLower (s : String) : s.toLower.toList = lower s.toList := String.toList_map

theorem sameUpToCase_iff_lower {s t : List Char} : SameUpToCase s t ↔ lower s = lower t := by
  rw [← equalUpToCase_iff_sameUpToCase, equalUpToCase_iff]
  rfl

/-- Only capital letters have a small form of their own. -/
theorem toLower_of_not_isUpper {c : Char} (h : ¬ c.isUpper = true) : c.toLower = c := by
  rw [← Char.toNat_inj, toNat_toLower, if_neg h]

theorem not_isUpper_toLower (c : Char) : ¬ c.toLower.isUpper = true := by
  rw [isUpper_iff, toNat_toLower]
  by_cases hc : c.isUpper = true
  · rw [if_pos hc]
    rw [isUpper_iff] at hc
    omega
  · rw [if_neg hc]
    rwa [isUpper_iff] at hc

/-- A small form is its own small form. -/
theorem lower_lower (s : List Char) : lower (lower s) = lower s := by
  rw [lower, lower, List.map_map]
  exact List.map_congr_left fun c _ => toLower_of_not_isUpper (not_isUpper_toLower c)

theorem isAlpha_iff {c : Char} :
    c.isAlpha = true ↔ 65 ≤ c.toNat ∧ c.toNat ≤ 90 ∨ 97 ≤ c.toNat ∧ c.toNat ≤ 122 := by
  change (c.isUpper || c.isLower) = true ↔ _
  rw [Bool.or_eq_true, isUpper_iff, isLower_iff]

/-- **What does not tell letters apart does not see their case.** -/
theorem apply_toLower {α : Type} {p : Char → α}
    (hp : ∀ a b, a.isAlpha = true → b.isAlpha = true → p a = p b) (c : Char) :
    p c.toLower = p c := by
  by_cases hc : c.isUpper = true
  · have hrange := isUpper_iff.mp hc
    refine hp _ _ (isAlpha_iff.mpr ?_) (isAlpha_iff.mpr (.inl hrange))
    rw [toNat_toLower, if_pos hc]
    omega
  · rw [toLower_of_not_isUpper hc]

/-- A test that only other characters pass gives the same for the small form. -/
theorem test_toLower {p : Char → Bool} (hp : ∀ c, c.isAlpha = true → p c = false) (c : Char) :
    p c.toLower = p c :=
  apply_toLower (fun a b ha hb => (hp a ha).trans (hp b hb).symm) c

theorem isDigit_toLower (c : Char) : c.toLower.isDigit = c.isDigit := by
  refine test_toLower (fun c hc => ?_) c
  rw [isAlpha_iff] at hc
  rw [Bool.eq_false_iff, Ne, Char.isDigit_iff_toNat]
  change ¬ (48 ≤ c.toNat ∧ c.toNat ≤ 57)
  omega

theorem isBlank_toLower (c : Char) : isBlank c.toLower = isBlank c :=
  test_toLower (fun c hc => isBlank_of_isAlphanum (by rw [Char.isAlphanum, hc, Bool.true_or])) c

/-- A character that is no letter is found in the same places. -/
theorem beq_toLower {d : Char} (hd : d.isAlpha = false) (c : Char) :
    (c.toLower == d) = (c == d) := by
  refine test_toLower (p := (· == d)) (fun c hc => ?_) c
  rw [beq_eq_false_iff_ne]
  rintro rfl
  rw [hd] at hc
  cases hc

theorem toLower_eq_iff {c d : Char} (hd : d.isAlpha = false) : c.toLower = d ↔ c = d := by
  rw [← beq_iff_eq, beq_toLower hd, beq_iff_eq]

/-! ## 2. Cuts and trims -/

section Cut

variable {p : Char → Bool}

theorem takeWhile_lower (hp : ∀ c, p c.toLower = p c) (s : List Char) :
    (lower s).takeWhile p = lower (s.takeWhile p) := by
  rw [lower, List.takeWhile_map, Function.comp_def, funext hp, lower]

theorem dropWhile_lower (hp : ∀ c, p c.toLower = p c) (s : List Char) :
    (lower s).dropWhile p = lower (s.dropWhile p) := by
  rw [lower, List.dropWhile_map, Function.comp_def, funext hp, lower]

variable {d : Char}

theorem before_lower (hd : d.isAlpha = false) (s : List Char) :
    before d (lower s) = lower (before d s) :=
  takeWhile_lower (fun c => by rw [bne, bne, beq_toLower hd]) s

theorem after_lower (hd : d.isAlpha = false) (s : List Char) :
    after d (lower s) = lower (after d s) := by
  rw [after, dropWhile_lower fun c => by rw [bne, bne, beq_toLower hd], after]
  cases s.dropWhile (· != d) <;> rfl

theorem splitAt?_lower (hd : d.isAlpha = false) (s : List Char) :
    splitAt? d (lower s) = (splitAt? d s).map (Prod.map lower lower) := by
  have hp : ∀ c : Char, (c.toLower != d) = (c != d) := fun c => by rw [bne, bne, beq_toLower hd]
  rw [splitAt?, dropWhile_lower hp, takeWhile_lower hp, splitAt?]
  cases s.dropWhile (· != d) <;> rfl

theorem reverse_lower (s : List Char) : (lower s).reverse = lower s.reverse :=
  List.map_reverse.symm

theorem trim_lower (s : List Char) : trim (lower s) = lower (trim s) := by
  rw [trim, trimStart, dropWhile_lower isBlank_toLower, trimEnd, reverse_lower,
    dropWhile_lower isBlank_toLower, reverse_lower, trim, trimEnd, trimStart]

end Cut

/-! ## 3. Lines -/

/-- A character that neither is a line's end nor starts one does not become one in small form. -/
theorem linesOf_lower_cons {c : Char} {rest : List Char} (hfeed : c ≠ '\n')
    (hreturn : ∀ more, c = '\r' → rest ≠ '\n' :: more) :
    linesOf (lower (c :: rest)) = atFront c.toLower (linesOf (lower rest)) := by
  refine linesOf_cons ?_ ?_
  · exact fun h => hfeed ((toLower_eq_iff (by decide)).mp h)
  · intro more hc hrest
    cases rest with
    | nil => cases hrest
    | cons d rest =>
      obtain ⟨hd, -⟩ := List.cons.inj hrest
      refine hreturn rest ((toLower_eq_iff (by decide)).mp hc) ?_
      rw [(toLower_eq_iff (by decide)).mp hd]

/-- **The small form has the lines of the text, in small form.** -/
theorem linesOf_lower (s : List Char) : linesOf (lower s) = (linesOf s).map lower := by
  induction s using linesOf_induction with
  | nil => rfl
  | feed rest ih => exact congrArg (List.cons []) ih
  | returnFeed rest ih => exact congrArg (List.cons []) ih
  | other c rest hfeed hreturn ih =>
    rw [linesOf_lower_cons hfeed hreturn, linesOf_cons hfeed hreturn, ih]
    cases linesOf rest <;> rfl

theorem lines_toLower (s : String) : lines s.toLower = (lines s).map String.toLower := by
  rw [lines, toList_toLower, linesOf_lower, lines, List.map_map, List.map_map]
  refine List.map_congr_left fun line _ => ?_
  rw [← String.toList_inj]
  simp [toList_toLower]

/-! ## 4. Numerals -/

theorem natural?_lower (s : List Char) : natural? (lower s) = natural? s := by
  have hall : (lower s).all Char.isDigit = s.all Char.isDigit := by
    rw [lower, List.all_map, Function.comp_def, funext isDigit_toLower]
  by_cases hs : s.all Char.isDigit = true
  · -- There is no letter in the text.
    have hsame : lower s = s := by
      refine (List.map_congr_left fun c hc => ?_).trans (List.map_id s)
      refine toLower_of_not_isUpper fun hupper => ?_
      have hdigit := Char.isDigit_iff_toNat.mp (List.all_eq_true.mp hs c hc)
      change 48 ≤ c.toNat ∧ c.toNat ≤ 57 at hdigit
      rw [isUpper_iff] at hupper
      omega
    rw [hsame]
  · rw [natural?, natural?, if_neg fun h => hs (hall.symm.trans h.2), if_neg fun h => hs h.2]

theorem signed?_of_ne {c : Char} (hplus : c ≠ '+') (hminus : c ≠ '-') (s : List Char) :
    signed? (c :: s) = (natural? (c :: s)).map Int.ofNat := by
  rw [signed?]
  · rintro _ h
    exact hplus (List.cons.inj h).1
  · rintro _ h
    exact hminus (List.cons.inj h).1

theorem signed?_lower (s : List Char) : signed? (lower s) = signed? s := by
  cases s with
  | nil => rfl
  | cons c s =>
    by_cases hplus : c = '+'
    · subst hplus
      change signed? ('+' :: lower s) = _
      rw [signed?, natural?_lower, signed?]
    by_cases hminus : c = '-'
    · subst hminus
      change signed? ('-' :: lower s) = _
      rw [signed?, natural?_lower, signed?]
    have hplus' : c.toLower ≠ '+' := fun h => hplus ((toLower_eq_iff (by decide)).mp h)
    have hminus' : c.toLower ≠ '-' := fun h => hminus ((toLower_eq_iff (by decide)).mp h)
    rw [signed?_of_ne hplus hminus, ← natural?_lower]
    exact signed?_of_ne hplus' hminus' (lower s)

end OneBit.Text
