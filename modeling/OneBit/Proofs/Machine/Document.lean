/-
# The document of a machine

All that a machine writes of itself is a record of records with whole numbers, so its document
reads as its JSON form, in both layouts (`read?_print`).  The members of the form can be looked at
and changed one by one: another status changes the member `status` and no other one
(`toJson_withStatus`), and the document that is changed in this way can be read as well.
-/
import OneBit.Machine.Dump
import OneBit.Proofs.Json.RoundTrip
import Mathlib.Data.List.Basic

namespace OneBit

/-! ## 1. Records -/

namespace Json

/-- The value of the first member with a key. -/
def member? (key : String) : Json → Option Json
  | .object members => (members.find? fun m => m.1 == some key).map fun m => m.2
  | _ => none

/-- The same object, with another value under a key. -/
def withMember (j : Json) (key : String) (v : Json) : Json :=
  match j with
  | .object members => .object (members.map fun m => if m.1 == some key then (m.1, v) else m)
  | _ => j

theorem Whole.text (s : String) : Whole (.text s) := .string (some s)

theorem Whole.record {members : List (String × Json)} (h : members.Forall fun m => Whole m.2) :
    Whole (.record members) := by
  refine .object fun m hm => ?_
  obtain ⟨n, hn, rfl⟩ := List.mem_map.mp hm
  exact List.forall_iff_forall_mem.mp h n hn

theorem Whole.array_map {α : Type} {f : α → Json} (h : ∀ a, Whole (f a)) (as : List α) :
    Whole (.array (as.map f)) := by
  refine .array fun v hv => ?_
  obtain ⟨a, -, rfl⟩ := List.mem_map.mp hv
  exact h a

end Json

/-! ## 2. All numbers of a machine are whole -/

theorem Instruction.whole_toJson (i : Instruction) : i.toJson.Whole := by
  cases i with
  | guarded g op => exact .record (.record (.text op.name))
  | _ => exact .record (.record (.nat _))

theorem Program.whole_toJson (p : Program) : p.toJson.Whole :=
  .record (.array_map Instruction.whole_toJson p.instructions)

theorem Field.whole_toJson (f : Field) : f.toJson.Whole :=
  .record ⟨.array_map (fun row => .array_map .bool row) _, .bool _, .record ⟨.nat _, .nat _⟩⟩

theorem Status.whole_toJson (s : Status) : s.toJson.Whole := by
  cases s with
  | fault f => exact .record (.text f.name)
  | _ => exact .text _

namespace Machine

theorem whole_toJson (m : Machine) : m.toJson.Whole := by
  refine .record ⟨m.field.whole_toJson, m.program.whole_toJson, ?_, m.status.whole_toJson, .nat _⟩
  cases m.counter with
  | none => exact .null
  | some c => exact .nat c

/-- **The document of a machine reads as its JSON form.** -/
theorem read?_print (m : Machine) (l : Json.Layout) :
    Json.read? (m.toJson.print l) = some m.toJson :=
  m.whole_toJson.read?_write l 0

/-! ## 3. The member with the status -/

/-- The status is one member of a dump. -/
theorem member?_toJson (m : Machine) : m.toJson.member? "status" = some m.status.toJson := rfl

/-- **All that another status changes in a dump** is this member. -/
theorem toJson_withStatus (m : Machine) (s : Status) :
    ({ m with status := s } : Machine).toJson = m.toJson.withMember "status" s.toJson := by
  simp [toJson, Json.record, Json.withMember]

end Machine

end OneBit
