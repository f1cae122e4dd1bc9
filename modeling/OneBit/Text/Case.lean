/-
# Equality up to letter case

Mnemonics may be written in either case.  Only the 26 letters of ASCII have two cases here: a
letter outside ASCII equals nothing but itself, also when Unicode would fold it into an ASCII
letter.
-/
namespace OneBit.Text

/-- `s` and `t` have the same length and agree, character by character, up to the case of an
ASCII letter. -/
def equalUpToCase (s t : List Char) : Bool := s.map Char.toLower == t.map Char.toLower

theorem equalUpToCase_iff {s t : List Char} :
    equalUpToCase s t = true ↔ s.map Char.toLower = t.map Char.toLower := by
  simp [equalUpToCase]

@[simp] theorem equalUpToCase_self (s : List Char) : equalUpToCase s s = true := by
  simp [equalUpToCase]

end OneBit.Text
