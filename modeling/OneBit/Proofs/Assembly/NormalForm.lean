/-
# What a source can come to

A program has three forms besides its own: the bytes of its instructions, the texts of its
instructions, and any source that compiles to it.  The bytes and the texts have room for IDs of
four bits only, and a program that a host builds may have wider ones.  A compiled program has not,
whether its source was good to the end or not (`operand_le_of_mem_compileFrom`): the instruction of
a line is made of a header and a four-bit operand, in whatever way the operand was written.

So the bytes of a compiled program can be decoded again, and its texts are a source that compiles
to it.  They are the normal form of all sources that do: to write the program once more gives the
same texts.
-/
import OneBit.Proofs.Assembly.Disassembly

namespace OneBit

/-! ## 1. Programs as bytes -/

/-- What is made of two parts has an operand of four bits. -/
theorem Instruction.operand_le_of_ofParts? {h : Header} {o : UInt8} {i : Instruction}
    (hi : ofParts? h o = some i) : i.operand ≤ 15 := by
  rw [(parts_of_ofParts? hi).2]
  by_contra hlt
  simp only [ofParts?, if_pos (UInt8.not_le.mp hlt)] at hi
  exact absurd hi (by simp)

/-- **The bytes of a program can be decoded**, one after the other, if all its operands have four
bits. -/
theorem Program.mapM_decode_encode {p : Program} (h : ∀ i ∈ p.instructions, i.operand ≤ 15) :
    p.encode.mapM Instruction.decode = .ok p.instructions := by
  obtain ⟨is⟩ := p
  simp only [encode] at h ⊢
  induction is with
  | nil => rfl
  | cons i is ih =>
    have hrest := ih fun j hj => h j (List.mem_cons_of_mem i hj)
    rw [List.map_cons, List.mapM_cons, Instruction.decode_encode (h i List.mem_cons_self), hrest]
    rfl

namespace Assembly

/-! ## 2. The operands of a compiled program -/

/-- Whatever way an operand was written, it has four bits. -/
theorem operand_le_of_parse {text : List Char} {i : Instruction} (h : parse text = .ok i) :
    i.operand ≤ 15 := by
  unfold parse at h
  split at h
  · exact absurd h (by simp)
  · split at h
    · exact absurd h (by simp)
    · split at h
      · exact absurd h (by simp)
      · rename_i hparts
        cases h
        obtain ⟨o, -, ho⟩ := Option.bind_eq_some_iff.mp hparts
        exact Instruction.operand_le_of_ofParts? ho

/-- What a line says is an instruction only if its statement is one. -/
theorem parse_of_instruction? {line : String} {i : Instruction} (h : instruction? line = some i) :
    (statement line.toList).isEmpty = false ∧ parse (statement line.toList) = .ok i := by
  simp only [instruction?, reading] at h
  by_cases hblank : (statement line.toList).isEmpty
  · simp [hblank] at h
  · cases hparse : parse (statement line.toList) with
    | ok j =>
      simp only [hblank, hparse] at h
      exact ⟨by simpa using hblank, congrArg Except.ok (Option.some.inj h)⟩
    | error kind => simp [hblank, hparse] at h

/-- **All operands of a compiled program have four bits**, also if a bad line has ended the
work. -/
theorem operand_le_of_mem_compileFrom {n : Nat} {lines : List String} {i : Instruction}
    (h : i ∈ (compileFrom n lines).program.instructions) : i.operand ≤ 15 := by
  rw [program_compileFrom] at h
  obtain ⟨line, -, hline⟩ := List.mem_filterMap.mp h
  exact operand_le_of_parse (parse_of_instruction? hline).2

/-! ## 3. The length of a compiled program -/

/-- There is something in the line but a label, a comment and blanks. -/
def IsSpoken (line : String) : Prop := ∃ text, IsStatement line.toList text ∧ text ≠ []

theorem isSpoken_iff {line : String} : IsSpoken line ↔ statement line.toList ≠ [] := by
  constructor
  · rintro ⟨text, htext, hne⟩
    rwa [statement_eq_iff.mpr htext]
  · exact fun hne => ⟨_, statement_eq_iff.mp rfl, hne⟩

instance : DecidablePred IsSpoken := fun _ => decidable_of_iff _ isSpoken_iff.symm

/-- A good line gives an instruction exactly if it says anything. -/
theorem isSome_instruction? {line : String} (h : isReadable line = true) :
    (instruction? line).isSome = true ↔ IsSpoken line := by
  rw [isSpoken_iff]
  simp only [isReadable, instruction?, reading, List.isEmpty_iff] at h ⊢
  by_cases hblank : statement line.toList = []
  · simp [hblank]
  · cases hparse : parse (statement line.toList) with
    | ok i => simp [hblank]
    | error kind => simp [hblank, hparse] at h

/-- **A program has an instruction for each good line that says anything.** -/
theorem length_program_compileFrom (n : Nat) (lines : List String) :
    (compileFrom n lines).program.length = (goodLines lines).countP IsSpoken := by
  rw [program_compileFrom, Program.length, List.length_filterMap_eq_countP]
  refine List.countP_congr ?_
  intro line hline
  rw [isSome_instruction? (List.mem_takeWhile_imp hline), decide_eq_true_eq]

/-- The good lines of a compilation are those that were looked at, but for a bad one. -/
theorem goodLines_eq_take (n : Nat) (lines : List String) :
    goodLines lines =
      lines.take ((compileFrom n lines).linesConsumed -
        if (compileFrom n lines).error = none then 0 else 1) := by
  cases herr : (compileFrom n lines).error with
  | none =>
    rw [linesConsumed_of_ok herr, goodLines_of_ok herr, if_pos rfl, Nat.sub_zero, List.take_length]
  | some e =>
    obtain ⟨k, -, hline, hconsumed, -⟩ := compileFrom_of_error herr
    have hk : e.line - n = k := by omega
    rw [hconsumed, goodLines_of_error herr, if_neg (by simp), hk, Nat.add_sub_cancel]

/-! ## 4. The normal form -/

/-- **Every compiled program has all three forms.**  Let a source come to a program, the whole of
the source or what stands before a bad line.  All operands of the program have four bits, its
bytes can be decoded one by one and give it back, and its texts compile to it, line by line and
without an error.  These texts are a normal form: written once more, the program that they compile
to has the same texts.  The program is as long as there are lines, of those that were looked at and
were not bad, that say anything. -/
theorem compile_normalForm (source : String) :
    (∀ i ∈ (compile source).program.instructions, i.operand ≤ 15) ∧
    (compile source).program.encode.mapM Instruction.decode =
      .ok (compile source).program.instructions ∧
    compileLines (compile source).program.texts =
      ⟨(compile source).program, (compile source).program.length, none⟩ ∧
    (compileLines (compile source).program.texts).program.texts =
      (compile source).program.texts ∧
    (compile source).program.length =
      ((Text.lines source).take ((compile source).linesConsumed -
        if (compile source).error = none then 0 else 1)).countP IsSpoken := by
  have hoperand : ∀ i ∈ (compile source).program.instructions, i.operand ≤ 15 := by
    intro i hi
    exact operand_le_of_mem_compileFrom hi
  have hnarrow : ∀ i ∈ (compile source).program.instructions, i.Narrow := by
    intro i hi
    exact Instruction.narrow_iff_toNat_le.mpr (UInt8.le_iff_toNat_le.mp (hoperand i hi))
  have htexts : compileLines (compile source).program.texts =
      ⟨(compile source).program, (compile source).program.length, none⟩ :=
    compileFrom_texts hnarrow 1
  refine ⟨hoperand, Program.mapM_decode_encode hoperand, htexts, ?_, ?_⟩
  · rw [htexts]
  · exact (length_program_compileFrom 1 _).trans (by rw [goodLines_eq_take 1]; rfl)

/-- A bad line after one that says something and one that does not. -/
example :
    (compile "a @ iff1,+007 # b\n # c\ntag,16\nexec,h").program.texts = ["iff1,ex"] := by
  decide

end Assembly

end OneBit
