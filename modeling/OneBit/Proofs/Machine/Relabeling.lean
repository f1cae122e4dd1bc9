/-
# IDs are only names

An ID is there to be compared with other IDs, and nothing else is ever done with it.  So the tags of
a program may be given other IDs, in the instructions that search for them too, as long as IDs that
differ stay different: the machine cannot be told from what it was, whatever is done to its field
meanwhile (`session_relabel`).  In particular all eight bits of an ID count, although a source text
or a byte has room for four.

This is the symmetry that leaves guards, operations and fields alone, and for such a symmetry the
changes of the field that a host makes are no hindrance (`Symmetry.session_machine`).
-/
import OneBit.Proofs.Machine.Symmetry

namespace OneBit

/-- **A symmetry that leaves fields alone is not noticed in sessions**, since a change of the field
is the same with and without it. -/
theorem Symmetry.session_machine (σ : Symmetry) (hfield : ∀ f, σ.field f = f) (m : Machine)
    (es : List Event) :
    (σ.machine m).session es = (m.session es).map fun r => (r.1, σ.machine r.2) := by
  have hchange : ∀ {m m' : Machine} (change : Field → Field), m' = σ.machine m →
      m'.withField (change m'.field) = σ.machine (m.withField (change m.field)) := by
    rintro m m' change rfl
    simp only [Symmetry.machine, Machine.withField, hfield]
  rw [eq_comm, ← List.forall₂_eq_eq_eq, List.forall₂_map_left_iff]
  refine (Machine.session_of_lockstep σ.lockstep hchange rfl es).imp ?_
  rintro a b ⟨hstatus, hmachine⟩
  exact Prod.ext hstatus hmachine.symm

/-- New IDs for old ones, in tags and in searches alike. -/
def relabeling (g : UInt8 → UInt8) (hg : Function.Injective g) : Symmetry where
  tagId := g
  guard := id
  operation := id
  field := id
  tagId_inj := hg
  holds_guard _ _ := rfl
  perform_operation _ _ _ := rfl

namespace Machine

/-- **Only the equality of IDs matters.**  Let every ID of a program be replaced by its image under
a map that takes different IDs to different ones.  Then all calls of a session return the same
statuses as before, and after each of them the counter, the field and the number of ticks are the
same, also if the field is changed in between. -/
theorem session_relabel (m : Machine) {g : UInt8 → UInt8} (hg : Function.Injective g)
    (es : List Event) :
    List.Forall₂
      (fun a b =>
        b.1 = a.1 ∧ b.2.counter = a.2.counter ∧ b.2.field = a.2.field ∧ b.2.ticks = a.2.ticks)
      (m.session es) (((relabeling g hg).machine m).session es) := by
  rw [(relabeling g hg).session_machine fun _ => rfl, List.forall₂_map_right_iff,
    List.forall₂_same]
  intro r _
  exact ⟨rfl, rfl, rfl, rfl⟩

/-- A program that jumps over the first halt, and comes to it on its way back. -/
def nearTags : Program :=
  ⟨[.advance 1, .tag 0, .guarded .always .halt, .tag 1, .guarded (.data true) .halt,
    .guarded .always .complementData, .retreat 0]⟩

/-- The same program with an ID whose low four bits are those of the other ID. -/
def farTags : Program :=
  ⟨[.advance 32, .tag 0, .guarded .always .halt, .tag 32, .guarded (.data true) .halt,
    .guarded .always .complementData, .retreat 0]⟩

/-- The exchange of 1 and 32 makes the second of the first, and their sessions are the same. -/
theorem session_relabel_of_nearTags :
    Function.Injective (Equiv.swap (1 : UInt8) 32) ∧
      ((new.install farTags).session [.call (.runLimited 9), .change (·.setFlag true),
          .call (.runLimited 9)]).map (fun r => (r.1, r.2.counter, r.2.ticks)) =
        [(.halted, some 3, 7), (.halted, some 5, 9)] := by
  have hg : Function.Injective (Equiv.swap (1 : UInt8) 32) := Equiv.injective _
  have hfar : (relabeling _ hg).machine (new.install nearTags) = new.install farTags := rfl
  refine ⟨hg, ?_⟩
  calc ((new.install farTags).session _).map _
      = ((new.install nearTags).session [.call (.runLimited 9), .change (·.setFlag true),
          .call (.runLimited 9)]).map (fun r => (r.1, r.2.counter, r.2.ticks)) := by
        rw [eq_comm, ← List.forall₂_eq_eq_eq, List.forall₂_map_left_iff,
          List.forall₂_map_right_iff, ← hfar]
        refine (session_relabel _ hg _).imp ?_
        rintro a b ⟨hstatus, hcounter, -, hticks⟩
        rw [hstatus, hcounter, hticks]
    _ = [(.halted, some 3, 7), (.halted, some 5, 9)] := rfl

end Machine

end OneBit
