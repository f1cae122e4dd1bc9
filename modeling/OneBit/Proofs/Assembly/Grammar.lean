/-
# The grammar of a line

What a line may say, and what is wrong with a line that says something else, are put down here
without the steps that find it out: `IsStatement`, `Parts` and `Operand` are relations between
texts, made of concatenations, letters and the worth of numerals.  `Verdict` is the whole
grammar, one rule for each way a line can end.

The main fact is `compileLines_singleton_iff`: a line alone compiles to what the grammar says
and to nothing else.  So there is exactly one verdict on each line, which also settles the order
in which the three errors are looked for.
-/
import OneBit.Assembly.Compilation
import OneBit.Proofs.Instruction.Mnemonic
import OneBit.Proofs.Text.Cut

namespace OneBit.Assembly

open Text

/-! ## 1. Statements and their parts -/

/-- `text` is the statement of `line`: the label up to the first `@` is left out, then the
comment from the first `#` on, then the blanks at the ends. -/
def IsStatement (line text : List Char) : Prop :=
  ∃ u v, AfterFirst '@' line u ∧ BeforeFirst '#' u v ∧ Trimmed v text

/-- `left` and `right` stand before and after the first comma of `text`, perhaps with blanks
around them. -/
def Parts (text left right : List Char) : Prop :=
  ∃ a b, ',' ∉ a ∧ text = a ++ ',' :: b ∧ Trimmed a left ∧ Trimmed b right

theorem statement_eq_iff {line text : List Char} :
    statement line = text ↔ IsStatement line text := by
  constructor
  · rintro rfl
    exact ⟨_, _, after_eq_iff.mp rfl, before_eq_iff.mp rfl, trim_eq_iff.mp rfl⟩
  · rintro ⟨u, v, hu, hv, ht⟩
    rw [statement, after_eq_iff.mpr hu, before_eq_iff.mpr hv, trim_eq_iff.mpr ht]

/-- A text with a comma has two parts. -/
theorem parts_of_mem {text : List Char} (h : ',' ∈ text) : ∃ left right, Parts text left right := by
  obtain ⟨a, b, rfl, ha⟩ := List.eq_append_cons_of_mem h
  exact ⟨trim a, trim b, a, b, ha, rfl, trimmed_trim a, trimmed_trim b⟩

/-! ## 2. Operands -/

/-- `text` is an operand with a value: the name of an operation or a numeral from 0 to 15. -/
inductive Operand (text : List Char) : UInt8 → Prop
  | operation (op : Operation) (h : SameUpToCase op.mnemonic.toList text) : Operand text op.code
  | numeral {v : Int} (h : Numeral text v) (hv : 0 ≤ v ∧ v ≤ 15) :
      Operand text (UInt8.ofNat v.toNat)

theorem smallNumber?_eq_some {text : List Char} {v : UInt8} (h : smallNumber? text = some v) :
    Operand text v := by
  unfold smallNumber? at h
  split at h
  · rename_i n hn
    split at h
    · rename_i hrange
      cases h
      exact .numeral (signed?_eq_some_iff.mp hn) hrange
    · exact absurd h (by simp)
  · exact absurd h (by simp)

/-- **The value of an operand is found, whichever kind it is.**  Names are looked for first, and
this makes no difference: a numeral is no name. -/
theorem operand?_eq_some_iff {text : List Char} {v : UInt8} :
    operand? text = some v ↔ Operand text v := by
  constructor
  · intro h
    unfold operand? at h
    split at h
    · rename_i op hop
      cases h
      exact .operation op (Operation.ofMnemonic?_eq_some_iff.mp hop)
    · exact smallNumber?_eq_some h
  · intro h
    cases h with
    | operation op hop => rw [operand?, Operation.ofMnemonic?_eq_some_iff.mpr hop]
    | numeral hn hrange =>
      rw [operand?, Operation.ofMnemonic?_of_numeral hn]
      change smallNumber? text = _
      rw [smallNumber?, signed?_eq_some_iff.mpr hn]
      exact if_pos hrange

/-- An operand has four bits. -/
theorem Operand.le {text : List Char} {v : UInt8} (h : Operand text v) : v ≤ 15 := by
  cases h with
  | operation op _ => exact op.code_le
  | @numeral n _ hrange =>
    have hn : n.toNat ≤ 15 := by omega
    rw [UInt8.le_iff_toNat_le, UInt8.toNat_ofNat']
    exact (Nat.mod_le _ _).trans hn

/-- Zeros in front of a numeral make no difference, however many there are. -/
theorem operand_zeros {s : List Char} {n : Nat} (h : Digits s n) (hn : n ≤ 15) (k : Nat) :
    Operand (List.replicate k '0' ++ s) (UInt8.ofNat n) := by
  have hoperand := Operand.numeral (.plain (h.zeros k)) ⟨Int.natCast_nonneg n, by omega⟩
  rwa [Int.toNat_natCast] at hoperand

/-- The smallest numeral that would wrap around to 5 in 64 bits. -/
example : operand? "18446744073709551621".toList = none := by decide

/-! ## 3. The instruction of a statement -/

/-- **An operand of four bits goes with every header.** -/
theorem exists_of_operand_le (header : Header) {v : UInt8} (h : v ≤ 15) :
    ∃ i : Instruction, i.header = header ∧ i.operand = v := by
  have hv : v.toNat < Operation.all.length := Nat.lt_succ_of_le (UInt8.le_iff_toNat_le.mp h)
  have hop : Operation.ofCode? v = some (Operation.all[v.toNat]) := List.getElem?_eq_getElem hv
  cases header with
  | tag => exact ⟨.tag v, rfl, rfl⟩
  | advance => exact ⟨.advance v, rfl, rfl⟩
  | retreat => exact ⟨.retreat v, rfl, rfl⟩
  | guarded g => exact ⟨.guarded g _, rfl, Operation.code_of_ofCode? hop⟩

theorem parse_of_notMem {text : List Char} (h : ',' ∉ text) :
    parse text = .error .missingSeparator := by
  rw [parse, splitAt?_eq_none_iff.mpr h]

/-- What a statement with a comma comes to is decided by its two parts. -/
theorem parse_of_parts {text left right : List Char} (h : Parts text left right) :
    parse text =
      match Header.ofMnemonic? left with
      | none => .error .unknownHeader
      | some header =>
        match (operand? right).bind (Instruction.ofParts? header) with
        | none => .error .invalidOperand
        | some instruction => .ok instruction := by
  obtain ⟨a, b, ha, rfl, hleft, hright⟩ := h
  obtain rfl := trim_eq_iff.mpr hleft
  obtain rfl := trim_eq_iff.mpr hright
  unfold parse
  split
  · rename_i hnone
    rw [splitAt?_append ha] at hnone
    exact absurd hnone (by simp)
  · rename_i hsome
    rw [splitAt?_append ha] at hsome
    cases hsome
    rfl

theorem parse_of_unknownHeader {text left right : List Char} (h : Parts text left right)
    (hheader : ¬ ∃ header : Header, SameUpToCase header.mnemonic.toList left) :
    parse text = .error .unknownHeader := by
  rw [parse_of_parts h, Header.ofMnemonic?_eq_none_iff.mpr hheader]

theorem parse_of_invalidOperand {text left right : List Char} {header : Header}
    (h : Parts text left right) (hheader : SameUpToCase header.mnemonic.toList left)
    (hoperand : ¬ ∃ v, Operand right v) : parse text = .error .invalidOperand := by
  have hnone : operand? right = none := by
    rw [Option.eq_none_iff_forall_ne_some]
    exact fun v hv => hoperand ⟨v, operand?_eq_some_iff.mp hv⟩
  rw [parse_of_parts h, Header.ofMnemonic?_eq_some_iff.mpr hheader, hnone]
  rfl

/-- **A known header and an operand make the instruction that has both.** -/
theorem parse_of_operand {text left right : List Char} {i : Instruction}
    (h : Parts text left right) (hheader : SameUpToCase i.header.mnemonic.toList left)
    (hoperand : Operand right i.operand) : parse text = .ok i := by
  have hi : (operand? right).bind (Instruction.ofParts? i.header) = some i := by
    rw [operand?_eq_some_iff.mpr hoperand, Option.bind_some,
      Instruction.ofParts?_header_operand hoperand.le]
  rw [parse_of_parts h, Header.ofMnemonic?_eq_some_iff.mpr hheader]
  simp only [hi]

/-! ## 4. The verdict on a line -/

/-- The ways a line can end, each with what becomes of the line when it stands alone. -/
inductive Verdict (line : List Char) : Compilation → Prop
  /-- The line says nothing. -/
  | blank (hline : IsStatement line []) : Verdict line ⟨⟨[]⟩, 1, none⟩
  | missingSeparator {text : List Char} (hline : IsStatement line text) (hne : text ≠ [])
      (hcomma : ',' ∉ text) :
      Verdict line ⟨⟨[]⟩, 1, some ⟨.missingSeparator, 1, String.ofList text⟩⟩
  | unknownHeader {text left right : List Char} (hline : IsStatement line text)
      (hparts : Parts text left right)
      (hheader : ¬ ∃ header : Header, SameUpToCase header.mnemonic.toList left) :
      Verdict line ⟨⟨[]⟩, 1, some ⟨.unknownHeader, 1, String.ofList text⟩⟩
  | invalidOperand {text left right : List Char} {header : Header}
      (hline : IsStatement line text) (hparts : Parts text left right)
      (hheader : SameUpToCase header.mnemonic.toList left) (hoperand : ¬ ∃ v, Operand right v) :
      Verdict line ⟨⟨[]⟩, 1, some ⟨.invalidOperand, 1, String.ofList text⟩⟩
  /-- The line says one instruction, the one with this header and this operand. -/
  | instruction {text left right : List Char} {i : Instruction} (hline : IsStatement line text)
      (hparts : Parts text left right) (hheader : SameUpToCase i.header.mnemonic.toList left)
      (hoperand : Operand right i.operand) : Verdict line ⟨⟨[i]⟩, 1, none⟩

theorem Parts.ne_nil {text left right : List Char} (h : Parts text left right) : text ≠ [] := by
  obtain ⟨a, b, -, rfl, -⟩ := h
  simp

theorem compileLines_of_blank {line : String} (h : IsStatement line.toList []) :
    compileLines [line] = ⟨⟨[]⟩, 1, none⟩ := by
  rw [compileLines, compileFrom, statement_eq_iff.mpr h]
  rfl

/-- A line that is not blank comes to what its statement comes to. -/
theorem compileLines_of_statement {line : String} {text : List Char}
    (h : IsStatement line.toList text) (hne : text ≠ []) :
    compileLines [line] =
      match parse text with
      | .ok i => ⟨⟨[i]⟩, 1, none⟩
      | .error kind => ⟨⟨[]⟩, 1, some ⟨kind, 1, String.ofList text⟩⟩ := by
  rw [compileLines, compileFrom, statement_eq_iff.mpr h]
  simp only [List.isEmpty_iff, if_neg hne]
  rfl

/-- Every line has a verdict. -/
theorem exists_verdict (line : List Char) : ∃ c, Verdict line c := by
  have hline : IsStatement line (statement line) := statement_eq_iff.mp rfl
  by_cases hne : statement line = []
  · exact ⟨_, .blank (hne ▸ hline)⟩
  by_cases hcomma : ',' ∈ statement line
  · obtain ⟨left, right, hparts⟩ := parts_of_mem hcomma
    by_cases hheader : ∃ header : Header, SameUpToCase header.mnemonic.toList left
    · obtain ⟨header, hheader⟩ := hheader
      by_cases hoperand : ∃ v, Operand right v
      · obtain ⟨v, hoperand⟩ := hoperand
        obtain ⟨i, rfl, rfl⟩ := exists_of_operand_le header hoperand.le
        exact ⟨_, .instruction hline hparts hheader hoperand⟩
      · exact ⟨_, .invalidOperand hline hparts hheader hoperand⟩
    · exact ⟨_, .unknownHeader hline hparts hheader⟩
  · exact ⟨_, .missingSeparator hline hne hcomma⟩

/-- A verdict is what the line compiles to. -/
theorem compileLines_of_verdict {line : String} {c : Compilation}
    (h : Verdict line.toList c) : compileLines [line] = c := by
  cases h with
  | blank hline => exact compileLines_of_blank hline
  | missingSeparator hline hne hcomma =>
    rw [compileLines_of_statement hline hne, parse_of_notMem hcomma]
  | unknownHeader hline hparts hheader =>
    rw [compileLines_of_statement hline hparts.ne_nil, parse_of_unknownHeader hparts hheader]
  | invalidOperand hline hparts hheader hoperand =>
    rw [compileLines_of_statement hline hparts.ne_nil,
      parse_of_invalidOperand hparts hheader hoperand]
  | instruction hline hparts hheader hoperand =>
    rw [compileLines_of_statement hline hparts.ne_nil, parse_of_operand hparts hheader hoperand]

/-- **A line alone compiles to what the grammar says, and to nothing else.** -/
theorem compileLines_singleton_iff (line : String) (c : Compilation) :
    compileLines [line] = c ↔ Verdict line.toList c := by
  constructor
  · rintro rfl
    obtain ⟨c, hc⟩ := exists_verdict line.toList
    rwa [compileLines_of_verdict hc]
  · exact compileLines_of_verdict

end OneBit.Assembly
