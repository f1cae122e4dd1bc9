/-
# JSON tokens

A document is first cut into tokens.  Between tokens there may be spaces, tabs, line feeds and
carriage returns, and no other blanks.  A token is a bracket, a comma, a colon, a string, or an
atom: `null`, `true`, `false` or a number.

* A number is an optional `-`, digits without a needless zero in front, an optional fraction
  and an optional exponent.
* A string has no bare control character.  An escape is a backslash with one of
  `"\/bfnrt`, or with `u` and four hexadecimal digits.  Two such codes that form a surrogate
  pair are one character; a code that is half a pair makes the string no text.
-/
import OneBit.Json.Value

namespace OneBit.Json

/-- The smallest pieces of a document that have a meaning. -/
inductive Token
  | openArray
  | closeArray
  | openObject
  | closeObject
  | comma
  | colon
  | text (s : Option String)
  | atom (value : Json)

/-! ## 1. Strings -/

/-- A piece of a string: a character, or the code of a `\u` escape. -/
inductive Piece
  | char (c : Char)
  | code (n : Nat)
deriving DecidableEq, Repr

/-- The value of a hexadecimal digit. -/
def hexDigit? (c : Char) : Option Nat :=
  if c.isDigit then some (c.toNat - 48)
  else if 'a' ≤ c ∧ c ≤ 'f' then some (c.toNat - 87)
  else if 'A' ≤ c ∧ c ≤ 'F' then some (c.toNat - 55)
  else none

/-- The value of four hexadecimal digits. -/
def hexCode? (a b c d : Char) : Option Nat := do
  let a ← hexDigit? a
  let b ← hexDigit? b
  let c ← hexDigit? c
  let d ← hexDigit? d
  return ((a * 16 + b) * 16 + c) * 16 + d

/-- The character that a backslash and `c` stand for. -/
def escaped? (c : Char) : Option Char :=
  match c with
  | '"' => some '"'
  | '\\' => some '\\'
  | '/' => some '/'
  | 'b' => some '\x08'
  | 'f' => some '\x0c'
  | 'n' => some '\n'
  | 'r' => some '\r'
  | 't' => some '\t'
  | _ => none

/-- Put a piece in front of what was read after it. -/
def Piece.before (p : Piece) (rest : Option (List Piece × List Char)) :
    Option (List Piece × List Char) :=
  rest.map fun r => (p :: r.1, r.2)

/-- The pieces of a string up to its closing quote, and what follows the quote. -/
def pieces : List Char → Option (List Piece × List Char)
  | [] => none
  | '"' :: rest => some ([], rest)
  | '\\' :: 'u' :: a :: b :: c :: d :: rest =>
    match hexCode? a b c d with
    | some n => (Piece.code n).before (pieces rest)
    | none => none
  | '\\' :: e :: rest =>
    match escaped? e with
    | some c => (Piece.char c).before (pieces rest)
    | none => none
  | c :: rest => if c.toNat < 0x20 || c == '\\' then none else (Piece.char c).before (pieces rest)

/-- Is `n` the first half of a surrogate pair? -/
def isLead (n : Nat) : Bool := 0xD800 ≤ n && n < 0xDC00

/-- Is `n` the second half of a surrogate pair? -/
def isTrail (n : Nat) : Bool := 0xDC00 ≤ n && n < 0xE000

/-- The text of a list of pieces, none if half a surrogate pair is among them. -/
def textOf : List Piece → Option (List Char)
  | [] => some []
  | .char c :: rest => (textOf rest).map (c :: ·)
  | .code n :: .code m :: rest =>
    if isLead n && isTrail m then
      (textOf rest).map (Char.ofNat (0x10000 + (n - 0xD800) * 0x400 + (m - 0xDC00)) :: ·)
    else if isLead n || isTrail n then none
    else (textOf (.code m :: rest)).map (Char.ofNat n :: ·)
  | .code n :: rest =>
    if isLead n || isTrail n then none else (textOf rest).map (Char.ofNat n :: ·)

/-! ## 2. Numbers -/

/-- One or more digits, and what follows them. -/
def digits? (s : List Char) : Option (List Char × List Char) :=
  match s.takeWhile Char.isDigit with
  | [] => none
  | ds => some (ds, s.dropWhile Char.isDigit)

/-- The digits before a fraction or an exponent: a zero stands alone. -/
def whole? (s : List Char) : Option (List Char × List Char) :=
  match digits? s with
  | some ('0' :: _ :: _, _) => none
  | r => r

/-- A fraction, if there is one. -/
def fraction? : List Char → Option (List Char × List Char)
  | '.' :: rest => (digits? rest).map fun r => ('.' :: r.1, r.2)
  | s => some ([], s)

/-- The digits of an exponent with their sign. -/
def exponentDigits? : List Char → Option (List Char × List Char)
  | '+' :: rest => (digits? rest).map fun r => ('+' :: r.1, r.2)
  | '-' :: rest => (digits? rest).map fun r => ('-' :: r.1, r.2)
  | s => digits? s

/-- An exponent, if there is one. -/
def exponent? : List Char → Option (List Char × List Char)
  | 'e' :: rest => (exponentDigits? rest).map fun r => ('e' :: r.1, r.2)
  | 'E' :: rest => (exponentDigits? rest).map fun r => ('E' :: r.1, r.2)
  | s => some ([], s)

/-- A number without its sign. -/
def unsignedNumber? (s : List Char) : Option (List Char × List Char) := do
  let (a, s) ← whole? s
  let (b, s) ← fraction? s
  let (c, s) ← exponent? s
  return (a ++ b ++ c, s)

/-- A number. -/
def number? : List Char → Option (List Char × List Char)
  | '-' :: rest => (unsignedNumber? rest).map fun r => ('-' :: r.1, r.2)
  | s => unsignedNumber? s

/-! ## 3. The scanner -/

/-- May `c` stand between two tokens? -/
def isGap (c : Char) : Bool := c == ' ' || c == '\n' || c == '\t' || c == '\r'

/-- The token that a text starts with, and what follows it. -/
def token? : List Char → Option (Token × List Char)
  | '[' :: rest => some (.openArray, rest)
  | ']' :: rest => some (.closeArray, rest)
  | '{' :: rest => some (.openObject, rest)
  | '}' :: rest => some (.closeObject, rest)
  | ',' :: rest => some (.comma, rest)
  | ':' :: rest => some (.colon, rest)
  | '"' :: rest => (pieces rest).map fun r => (.text ((textOf r.1).map String.ofList), r.2)
  | 'n' :: 'u' :: 'l' :: 'l' :: rest => some (.atom .null, rest)
  | 't' :: 'r' :: 'u' :: 'e' :: rest => some (.atom (.bool true), rest)
  | 'f' :: 'a' :: 'l' :: 's' :: 'e' :: rest => some (.atom (.bool false), rest)
  | s => (number? s).map fun r => (.atom (.number (String.ofList r.1)), r.2)

/-! ### The scanner gets on

Each piece of the scanner returns a rest that is not longer than its input, and `token?` returns
a shorter one. -/

theorem length_pieces_le {s : List Char} {ps : List Piece} {rest : List Char}
    (h : pieces s = some (ps, rest)) : rest.length ≤ s.length := by
  fun_induction pieces s generalizing ps rest with
  | case1 => simp at h
  | case2 r => cases h; simp
  | case3 a b c d r n hn ih =>
    obtain ⟨q, hq, he⟩ := Option.map_eq_some_iff.mp h
    cases he
    have := ih hq
    simp only [List.length_cons]
    omega
  | case4 => simp at h
  | case5 e r hr c hc ih =>
    obtain ⟨q, hq, he⟩ := Option.map_eq_some_iff.mp h
    cases he
    have := ih hq
    simp only [List.length_cons]
    omega
  | case6 => simp at h
  | case7 => simp at h
  | case8 c r h1 h2 h3 hc ih =>
    obtain ⟨q, hq, he⟩ := Option.map_eq_some_iff.mp h
    cases he
    have := ih hq
    simp only [List.length_cons]
    omega

theorem length_digits?_lt {s ds rest : List Char} (h : digits? s = some (ds, rest)) :
    rest.length < s.length := by
  unfold digits? at h
  split at h
  · simp at h
  · rename_i ds' hne
    cases h
    have hsum : (s.takeWhile Char.isDigit).length + (s.dropWhile Char.isDigit).length
        = s.length := by
      rw [← List.length_append, List.takeWhile_append_dropWhile]
    have hpos : 0 < (s.takeWhile Char.isDigit).length := List.length_pos_iff.mpr hne
    omega

theorem length_whole?_lt {s ds rest : List Char} (h : whole? s = some (ds, rest)) :
    rest.length < s.length := by
  unfold whole? at h
  split at h
  · simp at h
  · exact length_digits?_lt h

theorem length_fraction?_le {s ds rest : List Char} (h : fraction? s = some (ds, rest)) :
    rest.length ≤ s.length := by
  unfold fraction? at h
  split at h
  · obtain ⟨q, hq, he⟩ := Option.map_eq_some_iff.mp h
    cases he
    have := length_digits?_lt hq
    simp only [List.length_cons]
    omega
  · cases h
    exact Nat.le_refl _

theorem length_exponentDigits?_lt {s ds rest : List Char}
    (h : exponentDigits? s = some (ds, rest)) : rest.length < s.length := by
  unfold exponentDigits? at h
  split at h
  · obtain ⟨q, hq, he⟩ := Option.map_eq_some_iff.mp h
    cases he
    have := length_digits?_lt hq
    simp only [List.length_cons]
    omega
  · obtain ⟨q, hq, he⟩ := Option.map_eq_some_iff.mp h
    cases he
    have := length_digits?_lt hq
    simp only [List.length_cons]
    omega
  · exact length_digits?_lt h

theorem length_exponent?_le {s ds rest : List Char} (h : exponent? s = some (ds, rest)) :
    rest.length ≤ s.length := by
  unfold exponent? at h
  split at h
  · obtain ⟨q, hq, he⟩ := Option.map_eq_some_iff.mp h
    cases he
    have := length_exponentDigits?_lt hq
    simp only [List.length_cons]
    omega
  · obtain ⟨q, hq, he⟩ := Option.map_eq_some_iff.mp h
    cases he
    have := length_exponentDigits?_lt hq
    simp only [List.length_cons]
    omega
  · cases h
    exact Nat.le_refl _

theorem length_unsignedNumber?_lt {s ds rest : List Char}
    (h : unsignedNumber? s = some (ds, rest)) : rest.length < s.length := by
  unfold unsignedNumber? at h
  obtain ⟨⟨a, s1⟩, h1, h⟩ := Option.bind_eq_some_iff.mp h
  obtain ⟨⟨b, s2⟩, h2, h⟩ := Option.bind_eq_some_iff.mp h
  obtain ⟨⟨c, s3⟩, h3, h⟩ := Option.bind_eq_some_iff.mp h
  cases h
  have := length_whole?_lt h1
  have := length_fraction?_le h2
  have := length_exponent?_le h3
  omega

theorem length_number?_lt {s ds rest : List Char} (h : number? s = some (ds, rest)) :
    rest.length < s.length := by
  unfold number? at h
  split at h
  · obtain ⟨q, hq, he⟩ := Option.map_eq_some_iff.mp h
    cases he
    have := length_unsignedNumber?_lt hq
    simp only [List.length_cons]
    omega
  · exact length_unsignedNumber?_lt h

/-- **A token takes at least one character.** -/
theorem length_token?_lt {s rest : List Char} {t : Token} (h : token? s = some (t, rest)) :
    rest.length < s.length := by
  unfold token? at h
  split at h
  case h_7 =>
    obtain ⟨q, hq, he⟩ := Option.map_eq_some_iff.mp h
    cases he
    have := length_pieces_le hq
    simp only [List.length_cons]
    omega
  case h_11 =>
    obtain ⟨q, hq, he⟩ := Option.map_eq_some_iff.mp h
    cases he
    exact length_number?_lt hq
  all_goals
    cases h
    simp only [List.length_cons]
    omega

set_option linter.unusedVariables false in
/-- The tokens of a text. -/
def scan (s : List Char) : Option (List Token) :=
  match hs : s.dropWhile isGap with
  | [] => some []
  | c :: r =>
    match ht : token? (c :: r) with
    | none => none
    | some (t, rest) => (scan rest).map (t :: ·)
termination_by s.length
decreasing_by
  have h1 := length_token?_lt ht
  have h2 := (List.dropWhile_suffix isGap (l := s)).length_le
  rw [hs] at h2
  omega

end OneBit.Json
