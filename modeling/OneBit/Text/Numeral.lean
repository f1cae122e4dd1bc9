/-
# Decimal numerals

Reading and writing whole numbers in decimal.  A numeral is one or more ASCII digits, with a
sign in front where the reader at hand allows one; zeros in front are allowed everywhere.  The
readers are exact: a value has no upper limit unless the reader names one, so a long numeral
never wraps around into the range of a short one.

* `natural?`:  digits only;
* `unsigned?`: a `+` may stand in front;
* `signed?`:   a `+` or a `-` may stand in front;
* `readBelow`: as `unsigned?`, below a limit, and it tells what is wrong with a bad numeral.

Writing is `toString`, which `natural?` undoes (`natural?_toString`).
-/
namespace OneBit.Text

/-! ## 1. Reading -/

/-- The value of a text of digits. -/
def natural? (s : List Char) : Option Nat :=
  if s ≠ [] ∧ s.all Char.isDigit = true then some (Nat.ofDigitChars 10 s 0) else none

/-- Digits, with or without a `+` in front. -/
def unsigned? : List Char → Option Nat
  | '+' :: rest => natural? rest
  | s => natural? s

/-- Digits, with or without a sign in front. -/
def signed? : List Char → Option Int
  | '+' :: rest => (natural? rest).map Int.ofNat
  | '-' :: rest => (natural? rest).map fun n => -(Int.ofNat n)
  | s => (natural? s).map Int.ofNat

/-- What is written is what is read. -/
theorem natural?_toString (n : Nat) : natural? (toString n).toList = some n := by
  rw [Nat.toString_eq_ofList_toDigits, String.toList_ofList]
  have hd : (Nat.toDigits 10 n).all Char.isDigit = true := by
    rw [List.all_eq_true]
    intro c hc
    exact Nat.isDigit_of_mem_toDigits (by decide) (by decide) hc
  rw [natural?, if_pos ⟨Nat.toDigits_ne_nil, hd⟩, Nat.ofDigitChars_ten_toDigits]

/-! ## 2. Reading below a limit -/

/-- Why a text is not a numeral below a limit. -/
inductive NumeralError
  | empty
  | notDigit
  | tooLarge
deriving DecidableEq, Repr

/-- The wording of a numeral error. -/
def NumeralError.message : NumeralError → String
  | .empty => "cannot parse integer from empty string"
  | .notDigit => "invalid digit found in string"
  | .tooLarge => "number too large to fit in target type"

/-- Put the digit `c` behind the number `n`. -/
def appendDigit (limit n : Nat) (c : Char) : Except NumeralError Nat :=
  if c.isDigit then
    let m := 10 * n + (c.toNat - '0'.toNat)
    if m < limit then .ok m else .error .tooLarge
  else .error .notDigit

/-- The value of a numeral below `limit`.  The first character that makes the text bad decides
the error: a character that is no digit, or a digit that takes the value to the limit. -/
def readBelow (limit : Nat) : List Char → Except NumeralError Nat
  | [] => .error .empty
  | ['+'] => .error .notDigit
  | '+' :: rest => rest.foldlM (appendDigit limit) 0
  | s => s.foldlM (appendDigit limit) 0

/-! ## 3. Columns -/

/-- `s` with copies of `fill` in front, to a width of at least `width`. -/
def padStart (width : Nat) (fill : Char) (s : String) : String :=
  String.ofList (s.toList.leftpad width fill)

/-- `s` with spaces behind it, to a width of at least `width`. -/
def padEnd (width : Nat) (s : String) : String :=
  String.ofList (s.toList.rightpad width ' ')

/-- A byte as two hexadecimal digits, with the digits ten to fifteen in lower case. -/
def hexByte (b : UInt8) : String :=
  String.ofList [Nat.digitChar (b.toNat / 16), Nat.digitChar (b.toNat % 16)]

/-- A byte as two hexadecimal digits, with the digits ten to fifteen in upper case. -/
def hexByteUpper (b : UInt8) : String := (hexByte b).map Char.toUpper

end OneBit.Text
