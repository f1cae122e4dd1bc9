/-
# Guards and headers

An instruction has a HEADER that says what kind it is.  Three headers are about tags: `tag`
marks a place, `advance` and `retreat` go to the nearest such mark after or before them.  The
other five put an operation under a GUARD: a condition on the data bit or on the flag, or no
condition at all.

The codes of the headers are 8 to 15, in the order of `Header.all`; 0 to 7 are no headers.
-/
import OneBit.Field.Basic
import OneBit.Text.Case

namespace OneBit

/-- When an operation is carried out. -/
inductive Guard
  | always
  /-- The data bit is `value`. -/
  | data (value : Bool)
  /-- The flag is `value`. -/
  | flag (value : Bool)
deriving DecidableEq, Repr

/-- Does the guard hold on this field? -/
def Guard.holds (f : Field) : Guard → Bool
  | always => true
  | data value => f.data == value
  | flag value => f.flag == value

/-- The kind of an instruction. -/
inductive Header
  | tag
  | advance
  | retreat
  | guarded (guard : Guard)
deriving DecidableEq, Repr

namespace Header

/-- The headers in the order of their codes. -/
def all : List Header :=
  [.tag, .advance, .retreat, .guarded .always, .guarded (.data false), .guarded (.data true),
   .guarded (.flag false), .guarded (.flag true)]

/-- The header's name in a source text. -/
def mnemonic : Header → String
  | tag => "tag"
  | advance => "adv"
  | retreat => "ret"
  | guarded .always => "exec"
  | guarded (.data false) => "ifd0"
  | guarded (.data true) => "ifd1"
  | guarded (.flag false) => "iff0"
  | guarded (.flag true) => "iff1"

/-- The header's code. -/
def code : Header → UInt8
  | tag => 8
  | advance => 9
  | retreat => 10
  | guarded .always => 11
  | guarded (.data false) => 12
  | guarded (.data true) => 13
  | guarded (.flag false) => 14
  | guarded (.flag true) => 15

/-- The header with a mnemonic, in either case. -/
def ofMnemonic? (text : List Char) : Option Header :=
  all.find? fun h => Text.equalUpToCase h.mnemonic.toList text

/-- The header with a code. -/
def ofCode? (code : UInt8) : Option Header := all.find? fun h => h.code == code

theorem mem_all (h : Header) : h ∈ all := by
  cases h with
  | guarded g =>
    cases g with
    | data v => cases v <;> decide
    | flag v => cases v <;> decide
    | always => decide
  | _ => decide

/-- **The code of a header finds it again.** -/
theorem ofCode?_code (h : Header) : ofCode? h.code = some h := by
  cases h with
  | guarded g =>
    cases g with
    | data v => cases v <;> rfl
    | flag v => cases v <;> rfl
    | always => rfl
  | _ => rfl

/-- A header found by a code has that code. -/
theorem code_of_ofCode? {c : UInt8} {h : Header} (hc : ofCode? c = some h) : h.code = c := by
  simpa using List.find?_some hc

theorem code_lt (h : Header) : h.code < 16 := by
  cases h with
  | guarded g =>
    cases g with
    | data v => cases v <;> decide
    | flag v => cases v <;> decide
    | always => decide
  | _ => decide

end Header

end OneBit
