/-
# The two cases of a letter

Two characters are the SAME LETTER if they are equal, or if one is a capital letter of ASCII
and the other the small letter 32 places behind it.  `equalUpToCase_iff_sameUpToCase` says that
the comparison of mnemonics is this relation, character by character, and so that nothing
outside ASCII ever takes part in it: a character from there is the same letter as itself only.
-/
import Mathlib.Data.List.Forall2
import OneBit.Text.Blank
import OneBit.Text.Case

namespace OneBit.Text

/-- The same character, or the two cases of one ASCII letter. -/
def SameLetter (a b : Char) : Prop :=
  a = b ∨ (a.isUpper = true ∧ b.toNat = a.toNat + 32) ∨
    (b.isUpper = true ∧ a.toNat = b.toNat + 32)

/-- The texts have the same letters, one by one. -/
def SameUpToCase : List Char → List Char → Prop := List.Forall₂ SameLetter

theorem isUpper_iff {c : Char} : c.isUpper = true ↔ 65 ≤ c.toNat ∧ c.toNat ≤ 90 := by
  change decide (c.val ≥ 'A'.val ∧ c.val ≤ 'Z'.val) = true ↔ _
  simp [UInt32.le_iff_toNat_le]

theorem isLower_iff {c : Char} : c.isLower = true ↔ 97 ≤ c.toNat ∧ c.toNat ≤ 122 := by
  change (decide (c.val ≥ 'a'.val) && decide (c.val ≤ 'z'.val)) = true ↔ _
  simp [UInt32.le_iff_toNat_le]

/-- Letters and digits are characters of ASCII. -/
theorem toNat_of_isAlphanum {c : Char} (h : c.isAlphanum = true) :
    48 ≤ c.toNat ∧ c.toNat ≤ 122 := by
  change (c.isUpper || c.isLower || c.isDigit) = true at h
  rw [Bool.or_eq_true, Bool.or_eq_true, isUpper_iff, isLower_iff, Char.isDigit_iff_toNat] at h
  change _ ∨ 48 ≤ c.toNat ∧ c.toNat ≤ 57 at h
  omega

/-- They are not blank. -/
theorem isBlank_of_isAlphanum {c : Char} (h : c.isAlphanum = true) : isBlank c = false := by
  have hrange := toNat_of_isAlphanum h
  simp only [isBlank, blankRanges, List.any_cons, List.any_nil, Bool.or_false,
    Bool.or_eq_false_iff, Bool.and_eq_false_imp, decide_eq_true_eq, decide_eq_false_iff_not,
    Nat.not_le]
  omega

/-- The small letter stands 32 places behind the capital one. -/
theorem toNat_toLower (c : Char) :
    c.toLower.toNat = if c.isUpper = true then c.toNat + 32 else c.toNat := by
  by_cases h : c.isUpper = true
  · have hle : c.toNat ≤ 90 := (isUpper_iff.mp h).2
    have hsum : (c.val + 32).toNat = c.toNat + 32 := by
      rw [UInt32.toNat_add]
      exact Nat.mod_eq_of_lt (by change c.toNat + 32 < 2 ^ 32; omega)
    rw [if_pos h, ← hsum]
    unfold Char.toLower
    rw [dif_pos (of_decide_eq_true h)]
    rfl
  · rw [if_neg h]
    unfold Char.toLower
    rw [dif_neg fun hc => h (decide_eq_true hc)]

theorem toLower_eq_toLower_iff {a b : Char} : a.toLower = b.toLower ↔ SameLetter a b := by
  have hnat : a.toLower = b.toLower ↔ a.toLower.toNat = b.toLower.toNat := Char.toNat_inj.symm
  have heq : a = b ↔ a.toNat = b.toNat := Char.toNat_inj.symm
  rw [hnat, toNat_toLower a, toNat_toLower b, SameLetter, heq]
  simp only [isUpper_iff]
  split <;> split <;> omega

/-- **The comparison of mnemonics goes letter by letter.** -/
theorem equalUpToCase_iff_sameUpToCase {s t : List Char} :
    equalUpToCase s t = true ↔ SameUpToCase s t := by
  rw [equalUpToCase_iff, ← List.forall₂_eq_eq_eq, List.forall₂_map_left_iff,
    List.forall₂_map_right_iff, SameUpToCase]
  simp only [toLower_eq_toLower_iff]

/-- The Kelvin sign is not the letter k. -/
example : equalUpToCase ['s', '\u212A'] ['s', 'k'] = false := by decide

/-- The other case of a letter or a digit is a character of ASCII. -/
theorem SameLetter.toNat_lt {a b : Char} (h : SameLetter a b) (ha : a.isAlphanum = true) :
    b.toNat < 128 := by
  rcases h with rfl | ⟨hupper, hb⟩ | ⟨hupper, -⟩
  · have hrange := toNat_of_isAlphanum ha
    omega
  · rw [isUpper_iff] at hupper
    omega
  · rw [isUpper_iff] at hupper
    omega

theorem sameUpToCase_self (s : List Char) : SameUpToCase s s := by
  rw [← equalUpToCase_iff_sameUpToCase, equalUpToCase_self]

end OneBit.Text
