/-
# The case of letters in a source

A source in small letters compiles to what the source compiles to, with the text of the error in
small letters (`compile_toLower`).  Each stage of the work says this for itself: the statement of a
line in small letters is the statement in small letters (`statement_lower`), and a statement makes
the same instruction, or is wrong in the same way, in either form (`parse_lower`).  So two sources
that differ in the case of their letters come to the same.

Nothing else about letters is overlooked.  Names and numerals are made of ASCII characters, and a
character that is not of ASCII is never one of them in another case (`isAscii_of_operand`).  A
line with such a character in its header or in its operand is wrong.
-/
import OneBit.Proofs.Assembly.Grammar
import OneBit.Proofs.Assembly.Sequence
import OneBit.Proofs.Text.Lower

namespace OneBit

open Text

/-! ## 1. Names -/

/-- A name that is looked up in either case is looked up in small letters too. -/
theorem Text.equalUpToCase_lower (s t : List Char) :
    equalUpToCase s (lower t) = equalUpToCase s t := by
  change (lower s == lower (lower t)) = (lower s == lower t)
  rw [lower_lower]

theorem Header.ofMnemonic?_lower (s : List Char) : ofMnemonic? (lower s) = ofMnemonic? s := by
  simp only [ofMnemonic?, equalUpToCase_lower]

theorem Operation.ofMnemonic?_lower (s : List Char) : ofMnemonic? (lower s) = ofMnemonic? s := by
  simp only [ofMnemonic?, equalUpToCase_lower]

namespace Assembly

/-! ## 2. Lines -/

theorem statement_lower (line : List Char) : statement (lower line) = lower (statement line) := by
  rw [statement, after_lower (by decide), before_lower (by decide), trim_lower, statement]

theorem operand?_lower (text : List Char) : operand? (lower text) = operand? text := by
  simp only [operand?, Operation.ofMnemonic?_lower, smallNumber?, signed?_lower]

/-- **A statement says the same in small letters.** -/
theorem parse_lower (text : List Char) : parse (lower text) = parse text := by
  rw [parse, splitAt?_lower (by decide), parse]
  cases splitAt? ',' text with
  | none => rfl
  | some parts =>
    simp only [Option.map_some, Prod.map, trim_lower, Header.ofMnemonic?_lower, operand?_lower]

/-- **So does a line**, but for the statement that goes with an error. -/
theorem reading_toLower (line : String) :
    reading line.toLower = (reading line).mapError fun e => (e.1, e.2.toLower) := by
  have hempty : (lower (statement line.toList)).isEmpty = (statement line.toList).isEmpty :=
    List.isEmpty_map
  simp only [reading, toList_toLower, statement_lower, parse_lower, hempty]
  by_cases hblank : (statement line.toList).isEmpty = true
  · simp only [if_pos hblank]
    rfl
  · simp only [if_neg hblank]
    cases parse (statement line.toList) with
    | ok i => rfl
    | error kind =>
      simp only [Except.mapError, Except.error.injEq, Prod.mk.injEq, true_and]
      rw [← String.toList_inj, toList_toLower, String.toList_ofList, String.toList_ofList]

/-! ## 3. Sources -/

/-- The error with its text in small letters. -/
def CompileError.lower (e : CompileError) : CompileError := { e with text := e.text.toLower }

/-- The compilation with the text of its error in small letters. -/
def Compilation.lower (c : Compilation) : Compilation :=
  { c with error := c.error.map CompileError.lower }

theorem compileFrom_toLower (n : Nat) (lines : List String) :
    compileFrom n (lines.map String.toLower) = (compileFrom n lines).lower := by
  induction lines generalizing n with
  | nil => rfl
  | cons line rest ih =>
    rw [List.map_cons, compileFrom_cons, compileFrom_cons, ih, reading_toLower]
    rcases reading line with ⟨kind, text⟩ | _ | i <;> rfl

/-- The errors are alike: the same is wrong in the same line, and the texts are the same up to the
case of letters. -/
def CompileError.SameUpToCase (e e' : CompileError) : Prop :=
  e.kind = e'.kind ∧ e.line = e'.line ∧ Text.SameUpToCase e.text.toList e'.text.toList

theorem CompileError.lower_eq_iff {e e' : CompileError} :
    e.lower = e'.lower ↔ e.SameUpToCase e' := by
  rw [SameUpToCase, sameUpToCase_iff_lower, ← toList_toLower, ← toList_toLower, String.toList_inj]
  simp only [lower, CompileError.mk.injEq]

theorem rel_of_map_lower_eq {a b : Option CompileError}
    (h : a.map CompileError.lower = b.map CompileError.lower) :
    Option.Rel CompileError.SameUpToCase a b := by
  cases a with
  | none =>
    cases b with
    | none => exact .none
    | some e' => cases h
  | some e =>
    cases b with
    | none => cases h
    | some e' => exact .some (CompileError.lower_eq_iff.mp (Option.some.inj h))

/-- **A source in small letters comes to the same**, with the text of the error in small letters. -/
theorem compile_toLower (source : String) : compile source.toLower = (compile source).lower := by
  rw [compile, lines_toLower]
  exact compileFrom_toLower 1 (lines source)

/-! ## 4. Characters outside ASCII -/

section Ascii

variable {line : String} {text left right : List Char}

/-- A name is written in ASCII, in either case. -/
theorem isAscii_of_sameUpToCase {name : List Char} (h : SameUpToCase name text)
    (hname : ∀ c ∈ name, c.isAlphanum = true) : ∀ c ∈ text, c.toNat < 128 := by
  induction h with
  | nil => simp
  | @cons a b name text hab _ ih =>
    intro c hc
    rcases List.mem_cons.mp hc with rfl | hc
    · exact hab.toNat_lt (hname a List.mem_cons_self)
    · exact ih (fun d hd => hname d (List.mem_cons_of_mem a hd)) c hc

theorem isAscii_of_header {header : Header} (h : SameUpToCase header.mnemonic.toList text) :
    ∀ c ∈ text, c.toNat < 128 :=
  isAscii_of_sameUpToCase h header.isAlphanum_mnemonic

/-- So is an operand, be it a name or a numeral. -/
theorem isAscii_of_operand {v : UInt8} (h : Operand text v) : ∀ c ∈ text, c.toNat < 128 := by
  cases h with
  | operation op hop => exact isAscii_of_sameUpToCase hop op.isAlphanum_mnemonic
  | numeral hn _ =>
    intro c hc
    rcases hn.mem hc with hdigit | rfl | rfl
    · have hrange := toNat_of_isAlphanum (c := c) (by rw [Char.isAlphanum, hdigit, Bool.or_true])
      omega
    · decide
    · decide

/-- **A statement with another character in one of its parts is wrong.** -/
theorem parse_of_not_ascii (hparts : Parts text left right) {c : Char}
    (hmem : c ∈ left ∨ c ∈ right) (hc : 128 ≤ c.toNat) :
    parse text = .error .unknownHeader ∨ parse text = .error .invalidOperand := by
  by_cases hheader : ∃ header : Header, SameUpToCase header.mnemonic.toList left
  · obtain ⟨header, hheader⟩ := hheader
    refine .inr (parse_of_invalidOperand hparts hheader ?_)
    rintro ⟨v, hv⟩
    rcases hmem with hleft | hright
    · exact absurd (isAscii_of_header hheader c hleft) (Nat.not_lt.mpr hc)
    · exact absurd (isAscii_of_operand hv c hright) (Nat.not_lt.mpr hc)
  · exact .inl (parse_of_unknownHeader hparts hheader)

/-- The reading of a line with a wrong statement. -/
theorem reading_of_parse_error {kind : ErrorKind} (hline : IsStatement line.toList text)
    (hne : text ≠ []) (h : parse text = .error kind) :
    reading line = .error (kind, String.ofList text) := by
  simp only [reading, statement_eq_iff.mpr hline, List.isEmpty_iff, if_neg hne, h]

/-- A source with a bad line has an error. -/
theorem error_ne_none_of_mem {lines : List String} {bad : ErrorKind × String}
    (hmem : line ∈ lines) (h : reading line = .error bad) : (compileLines lines).error ≠ none := by
  intro hok
  have hall := List.takeWhile_eq_self_iff.mp (goodLines_of_ok hok)
  have hline := hall line hmem
  rw [isReadable, h] at hline
  cases hline

end Ascii

/-! ## 5. What letters mean -/

/-- **Letters of ASCII mean the same in either case, and no other character means anything.**  Two
sources that are the same up to the case of their letters have the same program and the same number
of lines, and either neither has an error or both have one of the same kind in the same line, with
texts that are the same up to case.  A word with a character outside ASCII is no header and no
operand, whatever letter that character resembles.  So a line that has such a word in one of the two
places is wrong, and so is every source with that line. -/
theorem compile_upToCase :
    (∀ s t : String, SameUpToCase s.toList t.toList →
      (compile s).program = (compile t).program ∧
      (compile s).linesConsumed = (compile t).linesConsumed ∧
      Option.Rel CompileError.SameUpToCase (compile s).error (compile t).error) ∧
    (∀ (word : List Char) (c : Char), c ∈ word → 128 ≤ c.toNat →
      Header.ofMnemonic? word = none ∧ operand? word = none) ∧
    ∀ (line : String) (text left right : List Char) (c : Char),
      IsStatement line.toList text → Parts text left right → c ∈ left ∨ c ∈ right →
      128 ≤ c.toNat →
      ∃ kind, (kind = .unknownHeader ∨ kind = .invalidOperand) ∧
        compileLines [line] = ⟨⟨[]⟩, 1, some ⟨kind, 1, String.ofList text⟩⟩ ∧
        ∀ lines, line ∈ lines → (compileLines lines).error ≠ none := by
  refine ⟨?_, ?_, ?_⟩
  · intro s t h
    have hsame : s.toLower = t.toLower := by
      rw [← String.toList_inj, toList_toLower, toList_toLower, sameUpToCase_iff_lower.mp h]
    have hlower : (compile s).lower = (compile t).lower := by
      rw [← compile_toLower, ← compile_toLower, hsame]
    simp only [Compilation.lower, Compilation.mk.injEq] at hlower
    obtain ⟨hprogram, hlines, herror⟩ := hlower
    exact ⟨hprogram, hlines, rel_of_map_lower_eq herror⟩
  · intro word c hmem hc
    refine ⟨Header.ofMnemonic?_eq_none_iff.mpr ?_, ?_⟩
    · rintro ⟨header, hheader⟩
      exact absurd (isAscii_of_header hheader c hmem) (Nat.not_lt.mpr hc)
    · rw [Option.eq_none_iff_forall_ne_some]
      intro v hv
      exact absurd (isAscii_of_operand (operand?_eq_some_iff.mp hv) c hmem) (Nat.not_lt.mpr hc)
  · intro line text left right c hline hparts hmem hc
    obtain ⟨kind, hkind, hparse⟩ : ∃ kind : ErrorKind,
        (kind = .unknownHeader ∨ kind = .invalidOperand) ∧ parse text = .error kind := by
      rcases parse_of_not_ascii hparts hmem hc with h | h
      · exact ⟨_, .inl rfl, h⟩
      · exact ⟨_, .inr rfl, h⟩
    refine ⟨kind, hkind, ?_, ?_⟩
    · rw [compileLines_of_statement hline hparts.ne_nil, hparse]
    · intro lines hlines
      exact error_ne_none_of_mem hlines (reading_of_parse_error hline hparts.ne_nil hparse)

end Assembly

end OneBit
