/-
# Programs that are read back from JSON

A program is written with whole numbers only (`Program.whole_toJson`), so its document reads as
its JSON form (`Json.Whole.read?_write`), and the form of a program is the form of no other one
(`Program.ofJson?_toJson`).  Tag IDs are written in full, also those that have no place in an
encoded byte.

What a run prints with `--json` is the document of the machine.  It has whole numbers only as
well, and the program is one of its members: the text of the program stands in it, two spaces
further in than alone (`Json.exists_write_object`).
-/
import OneBit.Command.Perform
import OneBit.Proofs.Machine.Document

namespace OneBit

/-! ## 1. A member in the document of its record -/

namespace Json

theorem writeMembers_append (l : Layout) (depth : Nat) (ms ns : List (Option String × Json)) :
    writeMembers l depth (ms ++ ns) = writeMembers l depth ms ++ writeMembers l depth ns := by
  induction ms with
  | nil => rfl
  | cons m ms ih => simp [writeMembers, ih]

/-- **A member of an object stands in its document**, behind its key, one level further in. -/
theorem exists_write_object (l : Layout) (depth : Nat) (ms ns : List (Option String × Json))
    (k : Option String) (v : Json) :
    ∃ before after, write l depth (.object (ms ++ (k, v) :: ns)) =
      before ++ (quoted k ++ l.colon) ++ write l (depth + 1) v ++ after := by
  cases ms with
  | nil =>
    exact ⟨'\x7b' :: l.lineBreak (depth + 1),
      writeMembers l (depth + 1) ns ++ (l.lineBreak depth ++ ['\x7d']), by simp [write]⟩
  | cons m ms =>
    exact ⟨'\x7b' :: (l.lineBreak (depth + 1) ++ quoted m.1 ++ l.colon ++
        write l (depth + 1) m.2 ++ writeMembers l (depth + 1) ms ++
        ',' :: l.lineBreak (depth + 1)),
      writeMembers l (depth + 1) ns ++ (l.lineBreak depth ++ ['\x7d']),
      by simp [write, writeMembers_append, writeMembers]⟩

end Json

/-! ## 2. Programs -/

namespace Program

/-- **The JSON form of a program is the form of no other program.** -/
theorem ofJson?_toJson (p : Program) : ofJson? p.toJson = some p := by
  have hitems : (p.instructions.map Instruction.toJson).mapM Instruction.ofJson? =
      some p.instructions := by
    have hid : Instruction.ofJson? ∘ Instruction.toJson = fun i => pure (id i) :=
      funext Instruction.ofJson?_toJson
    rw [List.mapM_map, hid, List.mapM_pure, List.map_id]
    rfl
  simp [ofJson?, toJson, Json.record, Json.soleField?, Json.items?, hitems]

/-- The program that a document holds. -/
def read? (document : String) : Option Program := (Json.read? document).bind ofJson?

/-- **A program is read back** from its document, in both layouts and at any depth. -/
theorem read?_write (p : Program) (l : Json.Layout) (depth : Nat) :
    read? (String.ofList (p.toJson.write l depth)) = some p := by
  rw [read?, p.whole_toJson.read?_write, Option.bind_some, ofJson?_toJson]

end Program

/-! ## 3. Machines -/

namespace Machine

/-- The document of a machine has the document of its program in it, behind the key. -/
theorem exists_print_toJson (m : Machine) :
    ∃ before after, m.toJson.print .indented =
      before ++ "\"program\": " ++ String.ofList (m.program.toJson.write .indented 1) ++ after := by
  obtain ⟨before, after, hwrite⟩ : ∃ before after, m.toJson.write .indented 0 =
      before ++ (Json.quoted (some "program") ++ Json.Layout.colon .indented) ++
        m.program.toJson.write .indented 1 ++ after :=
    Json.exists_write_object .indented 0 [(some "field", m.field.toJson)] _ _ _
  have hkey : "\"program\": " =
      String.ofList (Json.quoted (some "program") ++ Json.Layout.colon .indented) := by
    decide
  refine ⟨String.ofList before, String.ofList after, ?_⟩
  rw [hkey, ← String.ofList_append, ← String.ofList_append, ← String.ofList_append]
  exact congrArg String.ofList hwrite

/-- The program in the document of a machine. -/
def readProgram? (document : String) : Option Program :=
  (Json.read? document).bind fun dump => (dump.member? "program").bind Program.ofJson?

/-- The document of a machine gives its program back. -/
theorem readProgram?_print (m : Machine) (l : Json.Layout) :
    readProgram? (m.toJson.print l) = some m.program := by
  rw [readProgram?, m.read?_print, Option.bind_some]
  exact m.program.ofJson?_toJson

end Machine

/-! ## 4. The dump of a run -/

namespace Command

/-- **A program is read back from all that is written of it.**  Its own document gives it back in
both layouts.  In the dump that a run prints, its document stands behind its key, and gives it
back; and so does the dump, when it is read as a whole. -/
theorem program_read_back (p : Program) :
    (∀ l, Program.read? (p.toJson.print l) = some p) ∧
    ∀ (status : Status) (m : Machine), ∃ before after,
      let text := String.ofList (p.toJson.write .indented 1)
      let dump := before ++ "\"program\": " ++ text ++ after
      report true status { m with program := p } = [dump] ∧
      Program.read? text = some p ∧ Machine.readProgram? dump = some p := by
  refine ⟨fun l => p.read?_write l 0, fun status m => ?_⟩
  have hread := Machine.readProgram?_print { m with program := p } .indented
  obtain ⟨before, after, hdump⟩ := Machine.exists_print_toJson { m with program := p }
  rw [hdump] at hread
  exact ⟨before, after, congrArg (fun dump => [dump]) hdump, p.read?_write .indented 1, hread⟩

end Command

end OneBit
