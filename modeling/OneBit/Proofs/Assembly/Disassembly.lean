/-
# Programs as texts

An instruction can be written as a line of a source, and the lines of a program can be compiled.
This gives the program again exactly if all its IDs have four bits: a wider ID is printed as it
is, and a source text has no room for it.

The writer and the reader meet at the grammar (`Grammar.lean`).  A written line has letters,
digits and one comma only, so it is its own statement (`isStatement_text`); its parts are what
was written on both sides of the comma (`parts_text`); and what is written as an operand is one,
if it has four bits (`operand_operandText`, `not_operand_operandText`).  The main fact,
`compile_texts`, is then an induction over the program.
-/
import OneBit.Program.Listing
import OneBit.Proofs.Assembly.Grammar
import OneBit.Proofs.Assembly.Sequence
import OneBit.Proofs.Text.Lines

namespace OneBit

open Text

namespace Instruction

/-- The ID of an instruction that has one. -/
def id? : Instruction → Option UInt8
  | tag id => some id
  | advance id => some id
  | retreat id => some id
  | guarded _ _ => none

/-- The ID has four bits, if there is one. -/
def Narrow (i : Instruction) : Prop := ∀ id, i.id? = some id → id ≤ 15

theorem narrow_iff_toNat_le {i : Instruction} : i.Narrow ↔ i.operand.toNat ≤ 15 := by
  have hle : i.Narrow ↔ i.operand ≤ 15 := by
    cases i with
    | guarded g op => simp [Narrow, id?, operand, op.code_le]
    | _ => simp [Narrow, id?, operand]
  exact hle.trans UInt8.le_iff_toNat_le

/-! ## 1. The characters of a written line -/

/-- What is written behind the comma. -/
def operandText (i : Instruction) : String :=
  match i.operation? with
  | some op => op.mnemonic
  | none => toString i.operand.toNat

theorem toList_text (i : Instruction) :
    i.text.toList = i.header.mnemonic.toList ++ ',' :: i.operandText.toList := by
  cases i <;> simp [text, operandText, operation?, String.toList_append]

theorem isAlphanum_operandText (i : Instruction) :
    ∀ c ∈ i.operandText.toList, c.isAlphanum = true := by
  have hdecimal : ∀ n : Nat, ∀ c ∈ (toString n).toList, c.isAlphanum = true := by
    intro n c hc
    rw [Char.isAlphanum, isDigit_of_mem_toString hc, Bool.or_true]
  cases i with
  | guarded g op => exact op.isAlphanum_mnemonic
  | _ => exact hdecimal _

/-- **A written line has letters, digits and commas only.** -/
theorem mem_text {i : Instruction} {c : Char} (h : c ∈ i.text.toList) :
    c.isAlphanum = true ∨ c = ',' := by
  rw [toList_text, List.mem_append, List.mem_cons] at h
  rcases h with h | h | h
  · exact .inl (i.header.isAlphanum_mnemonic c h)
  · exact .inr h
  · exact .inl (i.isAlphanum_operandText c h)

/-- A written line has no character of a line's end in it. -/
theorem inline_text (i : Instruction) : Inline i.text.toList :=
  inline_of_forall (fun _ => i.mem_text) (by decide) (by decide)

end Instruction

namespace Assembly

/-! ## 2. A written line in the grammar -/

/-- Only letters, digits and commas are characters of a written line. -/
theorem ne_of_mem_text {i : Instruction} {c d : Char} (h : c ∈ i.text.toList)
    (hd : d.isAlphanum = false) (hcomma : d ≠ ',') : c ≠ d := by
  rintro rfl
  rcases i.mem_text h with halpha | rfl
  · rw [hd] at halpha
    exact absurd halpha (by decide)
  · exact hcomma rfl

theorem isBlank_of_mem_text {i : Instruction} {c : Char} (h : c ∈ i.text.toList) :
    isBlank c = false := by
  rcases i.mem_text h with halpha | rfl
  · exact isBlank_of_isAlphanum halpha
  · decide

/-- **A written line is its own statement.** -/
theorem isStatement_text (i : Instruction) : IsStatement i.text.toList i.text.toList := by
  have hlabel : '@' ∉ i.text.toList := fun h => ne_of_mem_text h (by decide) (by decide) rfl
  have hcomment : '#' ∉ i.text.toList := fun h => ne_of_mem_text h (by decide) (by decide) rfl
  exact ⟨_, _, .inr ⟨hlabel, rfl⟩, .inr ⟨hcomment, rfl⟩,
    trimmed_self fun _ => isBlank_of_mem_text⟩

/-- **The parts of a written line are what was written.** -/
theorem parts_text (i : Instruction) :
    Parts i.text.toList i.header.mnemonic.toList i.operandText.toList := by
  refine ⟨_, _, ?_, i.toList_text, ?_, ?_⟩
  · intro h
    exact absurd (i.header.isAlphanum_mnemonic _ h) (by decide)
  · exact trimmed_self fun c hc => isBlank_of_isAlphanum (i.header.isAlphanum_mnemonic c hc)
  · exact trimmed_self fun c hc => isBlank_of_isAlphanum (i.isAlphanum_operandText c hc)

/-- The operand of an instruction without an operation is written in decimal. -/
theorem operandText_of_none {i : Instruction} (h : i.operation? = none) :
    Numeral i.operandText.toList i.operand.toNat := by
  rw [Instruction.operandText, h]
  exact numeral_toString _

/-- A written operand of four bits is an operand. -/
theorem operand_operandText {i : Instruction} (h : i.Narrow) :
    Operand i.operandText.toList i.operand := by
  have hle := Instruction.narrow_iff_toNat_le.mp h
  cases hop : i.operation? with
  | some op =>
    cases i with
    | guarded g op => exact .operation op (sameUpToCase_self _)
    | _ => exact absurd hop (by simp [Instruction.operation?])
  | none =>
    have hnum := operandText_of_none hop
    have hv : (0 : Int) ≤ i.operand.toNat ∧ (i.operand.toNat : Int) ≤ 15 := by omega
    have hoperand := Operand.numeral hnum hv
    rwa [Int.toNat_natCast, UInt8.ofNat_toNat] at hoperand

/-- A written operand of more than four bits is none. -/
theorem not_operand_operandText {i : Instruction} (h : ¬ i.Narrow) :
    ¬ ∃ v, Operand i.operandText.toList v := by
  have hop : i.operation? = none := by
    cases i with
    | guarded g op => exact absurd (fun id hid => by simp [Instruction.id?] at hid) h
    | _ => rfl
  have hnum := operandText_of_none hop
  rw [Instruction.narrow_iff_toNat_le] at h
  rintro ⟨v, hv⟩
  cases hv with
  | operation op hname =>
    have hnone := Operation.ofMnemonic?_of_numeral hnum
    rw [Operation.ofMnemonic?_eq_some_iff.mpr hname] at hnone
    exact absurd hnone (by simp)
  | @numeral n hn hrange =>
    have heq := signed?_eq_some_iff.mpr hn
    rw [signed?_eq_some_iff.mpr hnum, Option.some.injEq] at heq
    omega

/-! ## 3. Programs as sources -/

theorem text_ne_nil (i : Instruction) : i.text.toList ≠ [] := (parts_text i).ne_nil

/-- What a written line says. -/
theorem reading_text (i : Instruction) :
    (i.Narrow → reading i.text = .ok (some i)) ∧
      (¬ i.Narrow → reading i.text = .error (.invalidOperand, i.text)) := by
  have hne : ¬ i.text.toList.isEmpty = true := by
    rw [List.isEmpty_iff]
    exact text_ne_nil i
  constructor
  · intro h
    simp only [reading, statement_eq_iff.mpr (isStatement_text i), if_neg hne,
      parse_of_operand (parts_text i) (sameUpToCase_self _) (operand_operandText h)]
  · intro h
    simp only [reading, statement_eq_iff.mpr (isStatement_text i), if_neg hne,
      parse_of_invalidOperand (parts_text i) (sameUpToCase_self _) (not_operand_operandText h),
      String.ofList_toList]

theorem compileFrom_texts {is : List Instruction} (h : ∀ i ∈ is, i.Narrow) (n : Nat) :
    compileFrom n (is.map Instruction.text) = ⟨⟨is⟩, is.length, none⟩ := by
  induction is generalizing n with
  | nil => rfl
  | cons i is ih =>
    rw [List.map_cons, compileFrom_cons, (reading_text i).1 (h i List.mem_cons_self)]
    simp only [ih (fun j hj => h j (List.mem_cons_of_mem i hj)), Compilation.consInstruction,
      List.length_cons]

/-- The first wide ID ends the work. -/
theorem compileFrom_texts_of_wide {a b : List Instruction} {i : Instruction}
    (ha : ∀ j ∈ a, j.Narrow) (hi : ¬ i.Narrow) (n : Nat) :
    compileFrom n ((a ++ i :: b).map Instruction.text) =
      ⟨⟨a⟩, a.length + 1, some ⟨.invalidOperand, n + a.length, i.text⟩⟩ := by
  have hfront := compileFrom_texts ha n
  have hwide : compileFrom (n + a.length) ((i :: b).map Instruction.text) =
      .failed ⟨.invalidOperand, n + a.length, i.text⟩ := by
    rw [List.map_cons, compileFrom_cons, (reading_text i).2 hi]
  rw [List.map_append, compileFrom_append_of_ok (by rw [hfront]), hfront, List.length_map, hwide]
  simp [Compilation.append, Compilation.failed]

/-- The lines of a program, with a line feed between them, are its lines again. -/
theorem lines_texts (p : Program) : lines ("\n".intercalate p.texts) = p.texts := by
  apply lines_intercalate
  · intro line hline
    obtain ⟨i, -, rfl⟩ := List.mem_map.mp hline
    exact i.inline_text.unbroken
  · intro line hline
    obtain ⟨i, -, rfl⟩ := List.mem_map.mp (List.mem_of_mem_getLast? hline)
    intro hnil
    exact text_ne_nil i (by rw [hnil]; rfl)

/-- **The texts of a program compile to the program, if all its IDs have four bits.**  If an ID
is wider, the work ends at the first such instruction, with what comes before it. -/
theorem compile_texts (p : Program) :
    ((∀ i ∈ p.instructions, i.Narrow) →
      compileLines p.texts = ⟨p, p.length, none⟩ ∧
        compile ("\n".intercalate p.texts) = ⟨p, p.length, none⟩) ∧
    ∀ k i, p.get? k = some i → ¬ i.Narrow →
      (∀ j < k, ∀ before, p.get? j = some before → before.Narrow) →
      let stopped : Compilation :=
        ⟨⟨p.instructions.take k⟩, k + 1, some ⟨.invalidOperand, k + 1, i.text⟩⟩
      compileLines p.texts = stopped ∧ compile ("\n".intercalate p.texts) = stopped := by
  rw [compile, lines_texts]
  refine ⟨fun h => ?_, fun k i hi hwide hbefore => ?_⟩
  · have hall : compileLines p.texts = ⟨p, p.length, none⟩ := compileFrom_texts h 1
    exact ⟨hall, hall⟩
  · obtain ⟨hk, hget⟩ := List.getElem?_eq_some_iff.mp hi
    have hsplit : p.instructions = p.instructions.take k ++ i :: p.instructions.drop (k + 1) := by
      rw [← hget, ← List.drop_eq_getElem_cons hk, List.take_append_drop]
    have hlen : (p.instructions.take k).length = k := List.length_take_of_le hk.le
    have hnarrow : ∀ j ∈ p.instructions.take k, j.Narrow := by
      intro before hmem
      obtain ⟨j, hj, rfl⟩ := List.mem_take_iff_getElem.mp hmem
      exact hbefore j (by omega) _ (List.getElem?_eq_getElem _)
    have hstop := compileFrom_texts_of_wide (b := p.instructions.drop (k + 1)) hnarrow hwide 1
    rw [← hsplit, hlen, Nat.add_comm 1 k] at hstop
    exact ⟨hstop, hstop⟩

end Assembly

end OneBit
