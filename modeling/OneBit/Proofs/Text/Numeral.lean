/-
# What a numeral is worth

`Digits s n` builds a text of digits from its front: one digit is worth itself, and a digit
behind a text of digits makes ten times its worth and the digit.  A NUMERAL is such a text with
or without a sign, and it is UNSIGNED if the sign can only be a plus.  The readers agree with these
relations exactly (`natural?_eq_some_iff`, `signed?_eq_some_iff`, `unsigned?_eq_some_iff`).  The
relations know no limit, so neither do the readers: a numeral of any length is worth the number it
denotes and no other one.

A numeral starts with a digit or a sign (`Numeral.head`), so no word that starts with a letter
is one.

The reader that has a limit watches it digit by digit.  It takes the same numerals as the reader
without one, as far as they are below the limit (`readBelow_eq_ok_iff`).
-/
import Mathlib.Data.List.Induction
import OneBit.Text.Numeral

namespace OneBit.Text

/-! ## 1. Digits -/

/-- `s` is one or more digits, which are worth `n`. -/
inductive Digits : List Char → Nat → Prop
  | single {d : Nat} (hd : d < 10) : Digits [d.digitChar] d
  | concat {s : List Char} {n d : Nat} (hs : Digits s n) (hd : d < 10) :
      Digits (s ++ [d.digitChar]) (10 * n + d)

/-- The digits are the characters from `0` to `9`. -/
theorem exists_digitChar_of_isDigit {c : Char} (h : c.isDigit = true) :
    ∃ d, d < 10 ∧ c = d.digitChar := by
  have hrange : 48 ≤ c.toNat ∧ c.toNat ≤ 57 := Char.isDigit_iff_toNat.mp h
  have hd : c.toNat - 48 < 10 := by omega
  refine ⟨c.toNat - 48, hd, Char.toNat_inj.mp ?_⟩
  rw [Nat.toNat_digitChar_of_lt_ten hd]
  omega

theorem isDigit_digitChar_of_lt {d : Nat} (hd : d < 10) : d.digitChar.isDigit = true := by
  rw [Nat.isDigit_digitChar, decide_eq_true hd]

theorem ofDigitChars_concat {s : List Char} {d : Nat} (hd : d < 10) :
    Nat.ofDigitChars 10 (s ++ [d.digitChar]) 0 = 10 * Nat.ofDigitChars 10 s 0 + d := by
  rw [Nat.ofDigitChars_append, Nat.ofDigitChars_cons_digitChar_of_lt_ten hd, Nat.ofDigitChars_nil]

theorem Digits.isDigit {s : List Char} {n : Nat} (h : Digits s n) :
    s ≠ [] ∧ s.all Char.isDigit = true := by
  induction h with
  | single hd => exact ⟨List.cons_ne_nil _ _, by simp [isDigit_digitChar_of_lt hd]⟩
  | concat _ hd ih => exact ⟨by simp, by simp [ih.2, isDigit_digitChar_of_lt hd]⟩

theorem Digits.ofDigitChars {s : List Char} {n : Nat} (h : Digits s n) :
    Nat.ofDigitChars 10 s 0 = n := by
  induction h with
  | single hd => exact (ofDigitChars_concat (s := []) hd).trans (Nat.zero_add _)
  | concat _ hd ih => rw [ofDigitChars_concat hd, ih]

/-- Every text of digits is worth something. -/
theorem digits_of_isDigit {s : List Char} (hne : s ≠ []) (h : s.all Char.isDigit = true) :
    Digits s (Nat.ofDigitChars 10 s 0) := by
  induction s using List.reverseRecOn with
  | nil => exact absurd rfl hne
  | append_singleton s c ih =>
    rw [List.all_append, Bool.and_eq_true] at h
    obtain ⟨hs, hc⟩ := h
    obtain ⟨d, hd, rfl⟩ := exists_digitChar_of_isDigit (c := c) (by simpa using hc)
    rw [ofDigitChars_concat hd]
    by_cases hnil : s = []
    · subst hnil
      simpa using Digits.single hd
    · exact .concat (ih hnil hs) hd

/-- **The reader of digits finds what they are worth.** -/
theorem natural?_eq_some_iff {s : List Char} {n : Nat} : natural? s = some n ↔ Digits s n := by
  constructor
  · intro h
    unfold natural? at h
    split at h
    · rename_i hs
      cases h
      exact digits_of_isDigit hs.1 hs.2
    · exact absurd h (by simp)
  · intro h
    rw [natural?, if_pos h.isDigit, h.ofDigitChars]

/-- Zeros in front are worth nothing. -/
theorem Digits.zeros {s : List Char} {n : Nat} (h : Digits s n) (k : Nat) :
    Digits (List.replicate k '0' ++ s) n := by
  rw [← natural?_eq_some_iff, natural?, if_pos, Nat.ofDigitChars_append,
    Nat.ofDigitChars_replicate_zero, Nat.mul_zero, h.ofDigitChars]
  obtain ⟨hne, hall⟩ := h.isDigit
  exact ⟨by simp [hne], by simp [hall]⟩

/-! ## 2. Signs -/

/-- `s` is digits with or without a sign, which are worth `v`. -/
inductive Numeral : List Char → Int → Prop
  | plain {s : List Char} {n : Nat} (hs : Digits s n) : Numeral s n
  | plus {s : List Char} {n : Nat} (hs : Digits s n) : Numeral ('+' :: s) n
  | minus {s : List Char} {n : Nat} (hs : Digits s n) : Numeral ('-' :: s) (-n)

theorem Digits.head {s : List Char} {n : Nat} (h : Digits s n) :
    ∃ c rest, s = c :: rest ∧ c.isDigit = true := by
  obtain ⟨hne, hall⟩ := h.isDigit
  obtain ⟨c, rest, rfl⟩ := List.exists_cons_of_ne_nil hne
  exact ⟨c, rest, rfl, List.all_eq_true.mp hall c List.mem_cons_self⟩

/-- A numeral starts with a digit or a sign. -/
theorem Numeral.head {s : List Char} {v : Int} (h : Numeral s v) :
    ∃ c rest, s = c :: rest ∧ (c.isDigit = true ∨ c = '+' ∨ c = '-') := by
  cases h with
  | plain hs =>
    obtain ⟨c, rest, rfl, hc⟩ := hs.head
    exact ⟨c, rest, rfl, .inl hc⟩
  | plus => exact ⟨_, _, rfl, .inr (.inl rfl)⟩
  | minus => exact ⟨_, _, rfl, .inr (.inr rfl)⟩

/-- A numeral has digits and signs only. -/
theorem Numeral.mem {s : List Char} {v : Int} (h : Numeral s v) {c : Char} (hc : c ∈ s) :
    c.isDigit = true ∨ c = '+' ∨ c = '-' := by
  have hdigits : ∀ {t : List Char} {n : Nat}, Digits t n → c ∈ t → c.isDigit = true :=
    fun ht hmem => List.all_eq_true.mp ht.isDigit.2 c hmem
  cases h with
  | plain hs => exact .inl (hdigits hs hc)
  | plus hs =>
    rcases List.mem_cons.mp hc with rfl | hmem
    · exact .inr (.inl rfl)
    · exact .inl (hdigits hs hmem)
  | minus hs =>
    rcases List.mem_cons.mp hc with rfl | hmem
    · exact .inr (.inr rfl)
    · exact .inl (hdigits hs hmem)

/-- **The reader of numerals finds what they are worth.** -/
theorem signed?_eq_some_iff {s : List Char} {v : Int} : signed? s = some v ↔ Numeral s v := by
  constructor
  · intro h
    unfold signed? at h
    split at h
    all_goals obtain ⟨n, hn, rfl⟩ := Option.map_eq_some_iff.mp h
    · exact .plus (natural?_eq_some_iff.mp hn)
    · exact .minus (natural?_eq_some_iff.mp hn)
    · exact .plain (natural?_eq_some_iff.mp hn)
  · intro h
    cases h with
    | plain hs =>
      have hn := natural?_eq_some_iff.mpr hs
      obtain ⟨c, rest, rfl, hc⟩ := hs.head
      rw [signed?, hn, Option.map_some]
      · rfl
      · intro _ hplus
        cases hplus
        exact absurd hc (by decide)
      · intro _ hminus
        cases hminus
        exact absurd hc (by decide)
    | plus hs => rw [signed?, natural?_eq_some_iff.mpr hs]; rfl
    | minus hs => rw [signed?, natural?_eq_some_iff.mpr hs]; rfl

/-- `s` is digits with or without a `+`, which are worth `n`. -/
inductive Unsigned : List Char → Nat → Prop
  | plain {s : List Char} {n : Nat} (hs : Digits s n) : Unsigned s n
  | plus {s : List Char} {n : Nat} (hs : Digits s n) : Unsigned ('+' :: s) n

/-- **The reader of numerals without a minus** finds what they are worth. -/
theorem unsigned?_eq_some_iff {s : List Char} {n : Nat} : unsigned? s = some n ↔ Unsigned s n := by
  constructor
  · intro h
    unfold unsigned? at h
    split at h
    · exact .plus (natural?_eq_some_iff.mp h)
    · exact .plain (natural?_eq_some_iff.mp h)
  · intro h
    cases h with
    | plain hs =>
      obtain ⟨c, rest, rfl, hc⟩ := hs.head
      rw [unsigned?, natural?_eq_some_iff.mpr hs]
      intro _ hplus
      cases hplus
      exact absurd hc (by decide)
    | plus hs => exact natural?_eq_some_iff.mpr hs

/-- A number that is written in decimal is worth itself. -/
theorem digits_toString (n : Nat) : Digits (toString n).toList n :=
  natural?_eq_some_iff.mp (natural?_toString n)

/-- What is written in decimal is a numeral. -/
theorem numeral_toString (n : Nat) : Numeral (toString n).toList n := .plain (digits_toString n)

/-- A number is written with digits only. -/
theorem isDigit_of_mem_toString {n : Nat} {c : Char} (h : c ∈ (toString n).toList) :
    c.isDigit = true := by
  rw [Nat.toString_eq_ofList_toDigits, String.toList_ofList] at h
  exact Nat.isDigit_of_mem_toDigits (by decide) (by decide) h

/-! ## 3. Below a limit -/

/-- The worth of a text of digits only grows with each digit. -/
theorem le_ofDigitChars (s : List Char) (n : Nat) : n ≤ Nat.ofDigitChars 10 s n := by
  induction s generalizing n with
  | nil => exact Nat.le_refl n
  | cons c s ih =>
    rw [Nat.ofDigitChars_cons]
    have hrest := ih (10 * n + (c.toNat - '0'.toNat))
    omega

/-- Digits that are read one by one stay below the limit exactly if all of them together do. -/
theorem foldlM_appendDigit_eq_ok_iff {limit n m : Nat} {s : List Char} (hn : n < limit) :
    s.foldlM (appendDigit limit) n = .ok m ↔
      s.all Char.isDigit = true ∧ Nat.ofDigitChars 10 s n = m ∧ m < limit := by
  induction s generalizing n with
  | nil =>
    simp only [List.foldlM_nil, pure, Except.pure, Except.ok.injEq, List.all_nil, true_and,
      Nat.ofDigitChars_nil]
    constructor
    · rintro rfl
      exact ⟨rfl, hn⟩
    · rintro ⟨rfl, _⟩
      rfl
  | cons c s ih =>
    rw [List.foldlM_cons, List.all_cons, Bool.and_eq_true, Nat.ofDigitChars_cons, appendDigit]
    by_cases hc : c.isDigit = true
    · rw [if_pos hc]
      by_cases hlimit : 10 * n + (c.toNat - '0'.toNat) < limit
      · simp only [hlimit, if_true, hc, true_and]
        exact ih hlimit
      · -- The rest cannot bring the number back below the limit.
        have hgrows := le_ofDigitChars s (10 * n + (c.toNat - '0'.toNat))
        simp only [hlimit, if_false]
        constructor
        · intro h
          cases h
        · rintro ⟨-, rfl, hm⟩
          omega
    · rw [if_neg hc]
      constructor
      · intro h
        cases h
      · rintro ⟨⟨hdigit, -⟩, -⟩
        exact absurd hdigit hc

/-- **The reader with a limit** takes what the reader without one takes, below the limit. -/
theorem readBelow_eq_ok_iff {limit n : Nat} {s : List Char} (hlimit : 0 < limit) :
    readBelow limit s = .ok n ↔ unsigned? s = some n ∧ n < limit := by
  have hdigits : ∀ t : List Char, t ≠ [] →
      (t.foldlM (appendDigit limit) 0 = .ok n ↔ natural? t = some n ∧ n < limit) := by
    intro t ht
    rw [foldlM_appendDigit_eq_ok_iff hlimit, natural?]
    by_cases hall : t.all Char.isDigit = true
    · rw [if_pos ⟨ht, hall⟩, Option.some.injEq]
      simp only [hall, true_and]
    · rw [if_neg fun h => hall h.2]
      simp only [hall, false_and, reduceCtorEq]
  unfold readBelow
  split
  · simp [unsigned?, natural?]
  · simp [unsigned?, natural?]
  · rename_i rest hrest
    exact hdigits rest hrest
  · rename_i hnil _ hplus
    rw [hdigits _ hnil, unsigned?]
    exact hplus

end OneBit.Text
