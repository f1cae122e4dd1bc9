/-
# Linked programs

A search fails if there is no tag with its ID on its side.  Whether that can happen is seen from
the program alone: a program is LINKED if each instruction that goes to a tag has one to go to.
`isLinked` checks it, by making all the searches once.

The check is exact.  A tick ends with `tagNotFound` if and only if it carries out an instruction
without such a tag, whatever the field holds (`tagNotFound_iff`).  So a linked program never ends
a call with that fault; and if it does not move the pointer either, it never ends a call with any
fault (`linked_sessions`).
-/
import OneBit.Proofs.Machine.Retry
import OneBit.Proofs.Machine.Session
import OneBit.Proofs.Program.Nearest

namespace OneBit

/-! ## 1. The static check -/

namespace Program

/-- Each instruction that goes to a tag has a tag to go to. -/
structure Linked (p : Program) : Prop where
  advance : ∀ i id, p.get? i = some (.advance id) → ∃ j, i < j ∧ p.get? j = some (.tag id)
  retreat : ∀ i id, p.get? i = some (.retreat id) → ∃ j, j < i ∧ p.get? j = some (.tag id)

/-- The instruction at place `i` goes to a tag, and there is none for it. -/
def Dangling (p : Program) (i : Nat) : Prop :=
  (∃ id, p.get? i = some (.advance id) ∧ ∀ j, i < j → p.get? j ≠ some (.tag id)) ∨
    ∃ id, p.get? i = some (.retreat id) ∧ ∀ j, j < i → p.get? j ≠ some (.tag id)

/-- A program is linked exactly if nothing dangles. -/
theorem linked_iff {p : Program} : p.Linked ↔ ∀ i, ¬ p.Dangling i := by
  constructor
  · rintro h i (⟨id, hi, hno⟩ | ⟨id, hi, hno⟩)
    · obtain ⟨j, hj, htag⟩ := h.advance i id hi
      exact hno j hj htag
    · obtain ⟨j, hj, htag⟩ := h.retreat i id hi
      exact hno j hj htag
  · intro h
    constructor
    · intro i id hi
      by_contra hno
      exact h i (.inl ⟨id, hi, fun j hj htag => hno ⟨j, hj, htag⟩⟩)
    · intro i id hi
      by_contra hno
      exact h i (.inr ⟨id, hi, fun j hj htag => hno ⟨j, hj, htag⟩⟩)

/-- **An instruction dangles exactly if it makes a search that fails.** -/
theorem dangling_iff {p : Program} {i : Nat} :
    p.Dangling i ↔ ∃ ins id side, p.get? i = some ins ∧ ins.search? = some (id, side) ∧
      p.findTag i id side = none := by
  constructor
  · rintro (⟨id, hi, hno⟩ | ⟨id, hi, hno⟩)
    · exact ⟨_, id, .forward, hi, rfl, findTag_eq_none_iff.mpr hno⟩
    · exact ⟨_, id, .backward, hi, rfl, findTag_eq_none_iff.mpr hno⟩
  · rintro ⟨ins, id, side, hi, hsearch, hnone⟩
    have hno := findTag_eq_none_iff.mp hnone
    cases ins with
    | advance id' =>
      cases hsearch
      exact .inl ⟨id, hi, hno⟩
    | retreat id' =>
      cases hsearch
      exact .inr ⟨id, hi, hno⟩
    | tag id' => cases hsearch
    | guarded guard op => cases hsearch

/-- Does every search that the instructions of the program can make succeed? -/
def isLinked (p : Program) : Bool :=
  (List.range p.length).all fun i =>
    ((p.get? i).bind Instruction.search?).all fun search =>
      (p.findTag i search.1 search.2).isSome

/-- **The check is exact.** -/
theorem isLinked_iff {p : Program} : p.isLinked = true ↔ p.Linked := by
  rw [linked_iff, isLinked, List.all_eq_true]
  constructor
  · intro h i hdangling
    obtain ⟨ins, id, side, hi, hsearch, hnone⟩ := dangling_iff.mp hdangling
    have hlt : i < p.length := lt_length_of_get? hi
    have hfound := h i (List.mem_range.mpr hlt)
    simp [hi, hsearch, hnone] at hfound
  · intro h i _
    rw [Option.all_eq_true]
    rintro ⟨id, side⟩ hbind
    obtain ⟨ins, hi, hsearch⟩ := Option.bind_eq_some_iff.mp hbind
    rw [Option.isSome_iff_ne_none]
    intro hnone
    exact h i (dangling_iff.mpr ⟨ins, id, side, hi, hsearch, hnone⟩)

instance (p : Program) : Decidable p.Linked := decidable_of_iff _ isLinked_iff

end Program

namespace Machine

/-! ## 2. The tick of a search without a tag -/

/-- **A tick ends with `tagNotFound`** exactly if it carries out an instruction that dangles. -/
theorem tagNotFound_iff {m : Machine} :
    m.tick.1 = .fault .tagNotFound ↔ ∃ here, m.here? = some here ∧ m.program.Dangling here := by
  constructor
  · intro h
    rcases tick_cases m with ⟨-, ht⟩ | ⟨here, i, control, field, hhere, hi, heff, ht⟩
    · rw [ht] at h
      cases h
    · rw [ht] at h
      obtain rfl := Control.eq_fault_of_settle h
      cases heff with
      | noTag hsearch hnone =>
        exact ⟨here, hhere, Program.dangling_iff.mpr ⟨i, _, _, hi, hsearch, hnone⟩⟩
  · rintro ⟨here, hhere, hdangling⟩
    obtain ⟨i, id, side, hi, hsearch, hnone⟩ := Program.dangling_iff.mp hdangling
    rw [tick_of_get? hhere hi, Program.execute_of_search hsearch, Program.seek, hnone]
    rfl

/-- Any other fault of a machine with a program is that of a move. -/
theorem move_of_fault {m : Machine} {k : Fault} (h : m.tick.1 = .fault k)
    (hk : k ≠ .tagNotFound) (hhere : m.here? ≠ none) :
    ∃ i ∈ m.program.instructions, ∃ d, i.operation? = some (.move d) := by
  rcases tick_cases m with ⟨hnone, -⟩ | ⟨here, i, control, field, -, hi, heff, ht⟩
  · exact absurd hnone hhere
  · rw [ht] at h
    obtain rfl := Control.eq_fault_of_settle h
    cases heff with
    | noTag => exact absurd rfl hk
    | edge hop => exact ⟨i, List.mem_of_getElem? hi, _, hop⟩

/-! ## 3. Sessions with a linked program -/

theorem tick_ne_tagNotFound {m : Machine} (h : m.program.Linked) :
    m.tick.1 ≠ .fault .tagNotFound := by
  rw [Ne, tagNotFound_iff]
  rintro ⟨here, -, hdangling⟩
  exact Program.linked_iff.mp h here hdangling

/-- A linked program never ends a call with `tagNotFound`. -/
theorem ne_tagNotFound_of_linked {m : Machine} (h : m.program.Linked) {es : List Event} :
    ∀ r ∈ m.session es, r.1 ≠ .fault .tagNotFound := by
  intro r hr
  rcases session_cases (P := fun last => last.program.Linked)
      (fun last hlast => last.program_tick.symm ▸ hlast) (fun _ _ hlast => hlast)
      (fun _ _ hlast => hlast) h r hr with hok | hstep | ⟨last, hlast, htick⟩
  · simp [hok]
  · simp [hstep]
  · rw [← htick]
    exact tick_ne_tagNotFound hlast

/-- The machine has a next instruction, in this program. -/
structure StandsIn (p : Program) (m : Machine) : Prop where
  program : m.program = p
  here : m.here? ≠ none

namespace StandsIn

variable {p : Program} {m : Machine}

theorem install (hne : p.isEmpty = false) (m : Machine) : (m.install p).StandsIn p where
  program := rfl
  here := by simp [Machine.install, here?, hne]

theorem tick (h : m.StandsIn p) : m.tick.2.StandsIn p := by
  refine ⟨m.program_tick.trans h.program, ?_⟩
  rcases tick_cases m with ⟨hnone, -⟩ | ⟨here, i, control, field, hhere, -, -, ht⟩
  · exact absurd hnone h.here
  · have hne : ¬ m.program.isEmpty = true := by
      have hlt := lt_of_here? hhere
      rw [Program.isEmpty_iff]
      omega
    rw [ht]
    simp [here?, hne]

/-- A linked program without moves never ends a call with a fault. -/
theorem ne_fault (h : m.StandsIn p) (hlinked : p.Linked)
    (hmove : ∀ i ∈ p.instructions, ∀ d, i.operation? ≠ some (.move d)) {es : List Event} :
    ∀ r ∈ m.session es, ∀ k, r.1 ≠ .fault k := by
  intro r hr k
  rcases session_cases (P := StandsIn p) (fun _ hlast => hlast.tick)
      (fun _ _ hlast => ⟨hlast.program, hlast.here⟩) (fun _ _ hlast => ⟨hlast.program, hlast.here⟩)
      h r hr with hok | hstep | ⟨last, ⟨rfl, hhere⟩, htick⟩
  · simp [hok]
  · simp [hstep]
  · intro hk
    rw [← htick] at hk
    by_cases htag : k = .tagNotFound
    · subst htag
      exact tick_ne_tagNotFound hlinked hk
    · obtain ⟨i, hi, d, hop⟩ := move_of_fault hk htag hhere
      exact hmove i hi d hop

end StandsIn

/-- **The static check for tags.**  After a linked program was installed, no call of any session
ends with `tagNotFound`, whatever the field is and however it is changed.  In every program a tick
ends with that fault exactly if it carries out an instruction that goes to a tag and has none,
whatever the field is.  So a linked program that has instructions, but none with a move, never
ends a call with a fault. -/
theorem linked_sessions :
    (∀ (m : Machine) (p : Program), p.Linked →
      ∀ es, ∀ r ∈ (m.install p).session es, r.1 ≠ .fault .tagNotFound) ∧
    (∀ (m : Machine) (f : Field), (m.withField f).tick.1 = .fault .tagNotFound ↔
      ∃ here, m.here? = some here ∧ m.program.Dangling here) ∧
    ∀ (m : Machine) (p : Program), p.Linked → p.isEmpty = false →
      (∀ i ∈ p.instructions, ∀ d, i.operation? ≠ some (.move d)) →
      ∀ es, ∀ r ∈ (m.install p).session es, ∀ k, r.1 ≠ .fault k := by
  refine ⟨?_, ?_, ?_⟩
  · intro m p hp es
    have hlinked : (m.install p).program.Linked := hp
    exact ne_tagNotFound_of_linked hlinked
  · intro m f
    exact tagNotFound_iff
  · intro m p hp hne hmove es
    exact (StandsIn.install hne m).ne_fault hp hmove

/-- A program that goes round for ever and halts on the way. -/
def rounds : Program :=
  ⟨[.tag 200, .guarded (.data false) .halt, .advance 7, .retreat 200, .tag 7,
    .guarded .always .complementData, .retreat 200]⟩

/-- Every session with that program is free of faults. -/
theorem linked_sessions_of_rounds :
    rounds.Linked ∧ rounds.isEmpty = false ∧
      (∀ i ∈ rounds.instructions, ∀ d, i.operation? ≠ some (.move d)) ∧
      ∀ es, ∀ r ∈ (new.install rounds).session es, ∀ k, r.1 ≠ .fault k := by
  have hlinked : rounds.Linked := by decide
  have hmove : ∀ i ∈ rounds.instructions, ∀ d, i.operation? ≠ some (.move d) := by
    simp [rounds, Instruction.operation?]
  exact ⟨hlinked, rfl, hmove, linked_sessions.2.2 new rounds hlinked rfl hmove⟩

/-- The sides matter: a tag before an `advance` is none for it. -/
example : ¬ (⟨[.tag 1, .advance 1]⟩ : Program).Linked := by decide

end Machine

end OneBit
