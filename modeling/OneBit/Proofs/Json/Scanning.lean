/-
# The tokens of what is written

Every piece of a written document is one token, and the scanner finds it whatever follows:

* blanks between tokens are passed over (`scan_gap`);
* a string in its quotes is that string (`token?_quoted`), because each character is escaped to
  one piece of a string, which reads as that character and nothing else (`exists_piece_escape`);
* a whole number in decimal is that number, provided that what follows cannot belong to it
  (`EndsNumber`, `token?_toString`).  It has no needless zero in front, which the scanner would
  refuse.
-/
import OneBit.Json.Printer
import OneBit.Json.Token
import OneBit.Proofs.Text.Numeral

namespace OneBit.Json

/-! ## 1. One token after the other -/

/-- What the scanner does with the text that is left when the blanks in front are gone. -/
theorem scan_eq (s : List Char) :
    scan s = match s.dropWhile isGap with
      | [] => some []
      | c :: r => (token? (c :: r)).bind fun t => (scan t.2).map (t.1 :: ·) := by
  rw [scan]
  split
  · rename_i hs
    rw [hs]
  · rename_i c r hs
    rw [hs]
    split
    · rename_i ht
      simp only [ht, Option.bind_none]
    · rename_i t rest ht
      simp only [ht, Option.bind_some]

/-- Blanks between tokens are passed over. -/
theorem scan_gap {gap : List Char} (h : ∀ c ∈ gap, isGap c = true) (s : List Char) :
    scan (gap ++ s) = scan s := by
  rw [scan_eq (gap ++ s), scan_eq s, List.dropWhile_append_of_pos h]

/-- A text that starts with a token. -/
theorem scan_token {c : Char} {s rest : List Char} {t : Token} (hc : isGap c = false)
    (h : token? (c :: s) = some (t, rest)) : scan (c :: s) = (scan rest).map (t :: ·) := by
  rw [scan_eq, List.dropWhile_cons_of_neg (by simp [hc])]
  exact congrArg (fun r => r.bind fun t => (scan t.2).map (t.1 :: ·)) h

theorem scan_nil : scan [] = some [] := scan_eq []

/-! ## 2. Strings -/

theorem hexDigit?_digitChar {d : Nat} (hd : d < 16) : hexDigit? d.digitChar = some d := by
  revert d
  decide

/-- A code below the surrogates is the character of that number, whatever comes after it. -/
theorem textOf_code {n : Nat} (hn : n < 0xD800) (ps : List Piece) :
    textOf (.code n :: ps) = (textOf ps).map (Char.ofNat n :: ·) := by
  have hlead : isLead n = false := by simp [isLead]; omega
  have htrail : isTrail n = false := by simp [isTrail]; omega
  cases ps with
  | nil => simp [textOf, hlead, htrail]
  | cons p ps => cases p <;> simp [textOf, hlead, htrail]

/-- **A character is written as one piece of a string**, and the piece is that character. -/
theorem exists_piece_escape (c : Char) :
    ∃ p : Piece, (∀ rest, pieces (escape c ++ rest) = p.before (pieces rest)) ∧
      ∀ ps, textOf (p :: ps) = (textOf ps).map (c :: ·) := by
  unfold escape
  split
  case h_8 hquote hslash _ _ _ _ _ =>
    split
    · rename_i hc
      refine ⟨.code c.toNat, fun rest => ?_, fun ps => ?_⟩
      · have hhigh := hexDigit?_digitChar (d := c.toNat / 16) (by omega)
        have hlow := hexDigit?_digitChar (d := c.toNat % 16) (by omega)
        have hcode : hexCode? '0' '0' (Nat.digitChar (c.toNat / 16))
            (Nat.digitChar (c.toNat % 16)) = some c.toNat := by
          have hzero : hexDigit? '0' = some 0 := rfl
          simp only [hexCode?, hzero, hhigh, hlow, Option.bind_eq_bind, Option.bind_some,
            Option.pure_def, Option.some.injEq]
          omega
        simp only [List.cons_append, List.nil_append, pieces, hcode]
      · rw [textOf_code (by omega), Char.ofNat_toNat]
    · rename_i hc
      refine ⟨.char c, fun rest => ?_, fun ps => rfl⟩
      rw [List.singleton_append, pieces, if_neg]
      · simpa [hc] using hslash
      · exact hquote
      · rintro _ _ _ _ _ rfl
        exact absurd rfl hslash
      · rintro _ _ rfl
        exact absurd rfl hslash
  all_goals exact ⟨.char _, fun rest => rfl, fun ps => rfl⟩

/-- The characters of a string, up to the quote. -/
theorem exists_pieces_escape (s rest : List Char) :
    ∃ ps, pieces (s.flatMap escape ++ '"' :: rest) = some (ps, rest) ∧ textOf ps = some s := by
  induction s with
  | nil => exact ⟨[], rfl, rfl⟩
  | cons c s ih =>
    obtain ⟨ps, hps, htext⟩ := ih
    obtain ⟨p, hp, hpiece⟩ := exists_piece_escape c
    refine ⟨p :: ps, ?_, ?_⟩
    · rw [List.flatMap_cons, List.append_assoc, hp, hps]
      rfl
    · rw [hpiece, htext]
      rfl

/-- **A string in its quotes is one token**, also a string that is no text. -/
theorem token?_quoted (s : Option String) (rest : List Char) :
    token? (quoted s ++ rest) = some (.text s, rest) := by
  cases s with
  | none => rfl
  | some s =>
    obtain ⟨ps, hps, htext⟩ := exists_pieces_escape s.toList rest
    have hquoted : quoted (some s) ++ rest = '"' :: (s.toList.flatMap escape ++ '"' :: rest) := by
      simp [quoted]
    rw [hquoted, token?, hps, Option.map_some, htext, Option.map_some, String.ofList_toList]

theorem scan_quoted (s : Option String) (rest : List Char) :
    scan (quoted s ++ rest) = (scan rest).map (.text s :: ·) := by
  have hquoted : ∃ tail, quoted s ++ rest = '"' :: tail := by
    cases s <;> exact ⟨_, rfl⟩
  obtain ⟨tail, htail⟩ := hquoted
  rw [htail]
  exact scan_token rfl (htail ▸ token?_quoted s rest)

/-! ## 3. Whole numbers -/

/-- Can a whole number go on with `c`, as itself or as a longer number? -/
def continuesNumber (c : Char) : Bool := c.isDigit || c == '.' || c == 'e' || c == 'E'

/-- No number goes on with `rest`. -/
def EndsNumber (rest : List Char) : Prop := ∀ c ∈ rest.head?, continuesNumber c = false

theorem endsNumber_nil : EndsNumber [] := by simp [EndsNumber]

theorem endsNumber_cons {c : Char} (h : continuesNumber c = false) (rest : List Char) :
    EndsNumber (c :: rest) := by
  rintro c' hc
  cases hc
  exact h

/-- A number above zero starts with another digit than zero. -/
theorem head?_toDigits_ne_zero {n : Nat} (hn : 0 < n) : (Nat.toDigits 10 n).head? ≠ some '0' := by
  induction n using Nat.strongRecOn with
  | ind n ih =>
    by_cases hlt : n < 10
    · rw [Nat.toDigits_of_lt_base hlt]
      intro hzero
      have hdigit : n.digitChar = '0' := Option.some.inj hzero
      rw [Nat.digitChar_eq_zero] at hdigit
      omega
    · rw [Nat.toDigits_of_base_le (by decide) (by omega), List.head?_append,
        List.head?_eq_some_head Nat.toDigits_ne_nil, Option.some_or,
        ← List.head?_eq_some_head]
      exact ih (n / 10) (by omega) (by omega)

/-- **No needless zero**: a zero in front stands alone. -/
theorem toString_ne_zero_cons (n : Nat) (c : Char) (s : List Char) :
    (toString n).toList ≠ '0' :: c :: s := by
  rw [Nat.toString_eq_ofList_toDigits, String.toList_ofList]
  intro h
  obtain rfl | hn := Nat.eq_zero_or_pos n
  · simp at h
  · exact head?_toDigits_ne_zero hn (by rw [h]; rfl)

theorem digits?_toString (n : Nat) {rest : List Char} (h : EndsNumber rest) :
    digits? ((toString n).toList ++ rest) = some ((toString n).toList, rest) := by
  have hdigits : ∀ c ∈ (toString n).toList, c.isDigit = true :=
    fun c hc => Text.isDigit_of_mem_toString hc
  have hrest : rest.takeWhile Char.isDigit = [] ∧ rest.dropWhile Char.isDigit = rest := by
    cases rest with
    | nil => exact ⟨rfl, rfl⟩
    | cons c rest =>
      have hc : c.isDigit = false := by
        have hcontinues := h c rfl
        simp only [continuesNumber, Bool.or_eq_false_iff] at hcontinues
        exact hcontinues.1.1.1
      simp [hc]
  have hne : (toString n).toList ≠ [] := (Text.digits_toString n).isDigit.1
  rw [digits?, List.takeWhile_append_of_pos hdigits, List.dropWhile_append_of_pos hdigits, hrest.1,
    hrest.2, List.append_nil]
  split
  · rename_i hnil
    exact absurd hnil hne
  · rfl

/-- **A whole number is read whole**, where no number can go on. -/
theorem unsignedNumber?_toString (n : Nat) {rest : List Char} (h : EndsNumber rest) :
    unsignedNumber? ((toString n).toList ++ rest) = some ((toString n).toList, rest) := by
  have hwhole : whole? ((toString n).toList ++ rest) = some ((toString n).toList, rest) := by
    rw [whole?, digits?_toString n h]
    split
    · rename_i c s r hzero
      exact absurd (Prod.mk.inj (Option.some.inj hzero)).1 (toString_ne_zero_cons n c s)
    · rfl
  have hfraction : fraction? rest = some ([], rest) := by
    unfold fraction?
    split
    · exact absurd (h '.' rfl) (by decide)
    · rfl
  have hexponent : exponent? rest = some ([], rest) := by
    unfold exponent?
    split
    · exact absurd (h 'e' rfl) (by decide)
    · exact absurd (h 'E' rfl) (by decide)
    · rfl
  simp only [unsignedNumber?, hwhole, hfraction, hexponent, Option.bind_eq_bind, Option.bind_some,
    List.append_nil, Option.pure_def]

theorem ne_of_isDigit {c d : Char} (hc : c.isDigit = true) (hd : d.isDigit = false) : c ≠ d := by
  rintro rfl
  exact absurd hc (by simp [hd])

/-- A text that starts with a digit starts with a number. -/
theorem token?_of_isDigit {c : Char} (hc : c.isDigit = true) (s : List Char) :
    token? (c :: s) =
      (unsignedNumber? (c :: s)).map fun r => (.atom (.number (String.ofList r.1)), r.2) := by
  have hnumber : number? (c :: s) = unsignedNumber? (c :: s) := by
    unfold number?
    split
    · rename_i heq
      exact absurd (List.cons.inj heq).1 (ne_of_isDigit hc rfl)
    · rfl
  unfold token?
  split
  case h_11 => rw [hnumber]
  all_goals
    rename_i heq
    exact absurd (List.cons.inj heq).1 (ne_of_isDigit hc rfl)

theorem scan_toString (n : Nat) {rest : List Char} (h : EndsNumber rest) :
    scan ((toString n).toList ++ rest) =
      (scan rest).map (.atom (.number (toString n)) :: ·) := by
  obtain ⟨c, s, hcons, hc⟩ := (Text.digits_toString n).head
  have hgap : isGap c = false := by
    simp [isGap, ne_of_isDigit hc]
  have hnumber := unsignedNumber?_toString n h
  rw [hcons, List.cons_append] at hnumber ⊢
  refine scan_token hgap ?_
  rw [token?_of_isDigit hc, hnumber, Option.map_some, ← hcons, String.ofList_toList]

end OneBit.Json
