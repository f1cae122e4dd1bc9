/-
# Mnemonics and what they name

A mnemonic is looked up in a list of names, and the first match counts.  The names of the
headers are all different, also when the case of letters does not count, and so are those of
the operations.  So there is never a second match, and the lookup is a relation between a name
and a text that does not know the order of the list (`Header.ofMnemonic?_eq_some_iff`,
`Operation.ofMnemonic?_eq_some_iff`).

All mnemonics start with a letter, so none is a numeral (`Operation.ofMnemonic?_of_numeral`).
-/
import OneBit.Instruction.Basic
import OneBit.Proofs.Text.Case
import OneBit.Proofs.Text.Numeral

namespace OneBit

open Text

/-! ## 1. Lookup by name -/

section Lookup

variable {α : Type} {all : List α} {name : α → List Char}

/-- **What a list of different names finds.** -/
theorem find?_name_eq_some_iff (hall : ∀ a, a ∈ all)
    (hdiff : ∀ a ∈ all, ∀ b ∈ all, equalUpToCase (name a) (name b) = true → a = b)
    {s : List Char} {a : α} :
    all.find? (fun b => equalUpToCase (name b) s) = some a ↔ SameUpToCase (name a) s := by
  rw [← equalUpToCase_iff_sameUpToCase]
  constructor
  · intro h
    exact List.find?_some (p := fun b => equalUpToCase (name b) s) h
  · intro h
    cases hfind : all.find? fun b => equalUpToCase (name b) s with
    | none => exact absurd h (List.find?_eq_none.mp hfind a (hall a))
    | some b =>
      have hb := List.find?_some (p := fun b => equalUpToCase (name b) s) hfind
      rw [equalUpToCase_iff] at h hb
      rw [hdiff b (hall b) a (hall a) (equalUpToCase_iff.mpr (hb.trans h.symm))]

theorem find?_name_eq_none_iff (hall : ∀ a, a ∈ all) {s : List Char} :
    all.find? (fun b => equalUpToCase (name b) s) = none ↔ ¬ ∃ a, SameUpToCase (name a) s := by
  rw [List.find?_eq_none, not_exists]
  simp only [← equalUpToCase_iff_sameUpToCase]
  exact ⟨fun h a => h a (hall a), fun h a _ => h a⟩

end Lookup

theorem Header.ofMnemonic?_eq_some_iff {s : List Char} {h : Header} :
    Header.ofMnemonic? s = some h ↔ SameUpToCase h.mnemonic.toList s :=
  find?_name_eq_some_iff Header.mem_all (by decide)

theorem Header.ofMnemonic?_eq_none_iff {s : List Char} :
    Header.ofMnemonic? s = none ↔ ¬ ∃ h : Header, SameUpToCase h.mnemonic.toList s :=
  find?_name_eq_none_iff Header.mem_all

theorem Operation.ofMnemonic?_eq_some_iff {s : List Char} {op : Operation} :
    Operation.ofMnemonic? s = some op ↔ SameUpToCase op.mnemonic.toList s :=
  find?_name_eq_some_iff Operation.mem_all (by decide)

theorem Operation.ofMnemonic?_eq_none_iff {s : List Char} :
    Operation.ofMnemonic? s = none ↔ ¬ ∃ op : Operation, SameUpToCase op.mnemonic.toList s :=
  find?_name_eq_none_iff Operation.mem_all

/-! ## 2. The characters of a mnemonic -/

theorem Operation.head_mnemonic (op : Operation) :
    ∃ c rest, op.mnemonic.toList = c :: rest ∧ 97 ≤ c.toNat := by
  have hall : ∀ op ∈ Operation.all, op.mnemonic.toList.head?.any (97 ≤ ·.toNat) = true := by decide
  have hop := hall op op.mem_all
  cases hs : op.mnemonic.toList with
  | nil => rw [hs] at hop; exact absurd hop (by decide)
  | cons c rest => exact ⟨c, rest, rfl, by simpa [hs] using hop⟩

/-- **A numeral is no mnemonic.**  It starts with a digit or a sign, and neither is the other
case of a letter. -/
theorem Operation.ofMnemonic?_of_numeral {s : List Char} {v : Int} (h : Numeral s v) :
    Operation.ofMnemonic? s = none := by
  rw [Operation.ofMnemonic?_eq_none_iff]
  rintro ⟨op, hop⟩
  obtain ⟨m, rest, hm, hletter⟩ := op.head_mnemonic
  obtain ⟨c, more, rfl, hc⟩ := h.head
  rw [hm] at hop
  obtain ⟨hsame, -⟩ := List.forall₂_cons.mp hop
  have hsmall : c.toNat ≤ 57 := by
    rcases hc with hc | rfl | rfl
    · obtain ⟨d, hd, rfl⟩ := exists_digitChar_of_isDigit hc
      rw [Nat.toNat_digitChar_of_lt_ten hd]
      omega
    · decide
    · decide
  rw [SameLetter, isUpper_iff, isUpper_iff, ← Char.toNat_inj] at hsame
  omega

/-- The names of the headers consist of letters and digits. -/
theorem Header.isAlphanum_mnemonic (h : Header) :
    ∀ c ∈ h.mnemonic.toList, c.isAlphanum = true := by
  have hall : (Header.all.all fun h => h.mnemonic.toList.all Char.isAlphanum) = true := by decide
  exact List.all_eq_true.mp (List.all_eq_true.mp hall h h.mem_all)

/-- The names of the operations consist of letters and digits. -/
theorem Operation.isAlphanum_mnemonic (op : Operation) :
    ∀ c ∈ op.mnemonic.toList, c.isAlphanum = true := by
  have hall : (Operation.all.all fun op => op.mnemonic.toList.all Char.isAlphanum) = true := by
    decide
  exact List.all_eq_true.mp (List.all_eq_true.mp hall op op.mem_all)

/-! ## 3. Codes -/

/-- The code of an operation has four bits. -/
theorem Operation.code_le (op : Operation) : op.code ≤ 15 := by
  rw [UInt8.le_iff_toNat_le]
  exact Nat.le_of_lt_succ (UInt8.lt_iff_toNat_lt.mp op.code_lt)

end OneBit
