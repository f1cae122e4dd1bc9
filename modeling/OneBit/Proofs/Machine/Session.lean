/-
# Sessions

A host that works with a machine makes calls, and changes the field between them as it likes.  A
SESSION is any sequence of such events; the program stays what it is.  Its answers are those of
its calls.

Two facts about sessions carry over from ticks:

* `session_cases`: what every tick keeps, and no change of the field can spoil, holds all the way;
  so an answer says `ok` or `stepped`, or it is the status of a tick that was made under it.
* `session_of_lockstep`: machines in lockstep give the same answers, if the relation between them
  survives the changes, which are made to both.  Without changes this is `history_of_lockstep`.
-/
import OneBit.Proofs.Machine.Halting

namespace OneBit

/-- What a host does in a session. -/
inductive Event
  | call (call : Call)
  /-- Make something else of the field.  Each `Edit` is a change, by `Field.after`. -/
  | change (change : Field → Field)

namespace Machine

/-- The machine with another field. -/
def withField (m : Machine) (f : Field) : Machine := { m with field := f }

/-- The answers to the calls of a session.  A run that never ends has no answer, and nothing
comes after it. -/
def session (m : Machine) : List Event → List (Status × Machine)
  | [] => []
  | .call c :: es =>
    match m.call c with
    | none => []
    | some r => r :: session r.2 es
  | .change change :: es => session (m.withField (change m.field)) es

theorem session_cons_call_of_none {m : Machine} {c : Call} (h : m.call c = none)
    (es : List Event) : m.session (.call c :: es) = [] := by
  simp only [session, h]

theorem session_cons_call {m : Machine} {c : Call} {r : Status × Machine} (h : m.call c = some r)
    (es : List Event) : m.session (.call c :: es) = r :: r.2.session es := by
  simp only [session, h]

/-- **What a session can answer**, where all ticks are made by machines with the property `P`. -/
theorem session_cases {P : Machine → Prop} (htick : ∀ m, P m → P m.tick.2)
    (hfield : ∀ m f, P m → P (m.withField f)) (hstatus : ∀ m s, P m → P { m with status := s })
    {m : Machine} (hm : P m) {es : List Event} :
    ∀ r ∈ m.session es, r.1 = .ok ∨ r.1 = .stepped ∨ ∃ last, P last ∧ last.tick.1 = r.1 := by
  induction es generalizing m with
  | nil =>
    intro r hr
    cases hr
  | cons e es ih =>
    intro r hr
    cases e with
    | change change => exact ih (hfield m _ hm) r hr
    | call c =>
      cases hcall : m.call c with
      | none =>
        rw [session_cons_call_of_none hcall] at hr
        cases hr
      | some r' =>
        obtain ⟨s, m'⟩ := r'
        rw [session_cons_call hcall] at hr
        have hcases : P m' ∧ (s = .ok ∨ s = .stepped ∨ ∃ last, P last ∧ last.tick.1 = s) := by
          rcases call_cases hcall with ⟨hs, rfl⟩ | ⟨k, last, hrun, rfl, hs⟩
          · exact ⟨hstatus m _ hm, .inl hs⟩
          · have hlast : P last := by
              have h := runFor_invariant htick k m hm
              rwa [hrun] at h
            refine ⟨hstatus _ _ (htick last hlast), ?_⟩
            rcases hs with hs | ⟨hs, -⟩
            · exact .inr (.inr ⟨last, hlast, hs.symm⟩)
            · exact .inr (.inl hs)
        rcases List.mem_cons.mp hr with rfl | hr
        · exact hcases.2
        · exact ih hcases.1 r hr

section Lockstep

variable {R : Machine → Machine → Prop} {m m' : Machine}

/-- Machines in lockstep answer a call alike. -/
theorem call_of_lockstep (h : Lockstep system system (fun _ => True) R) (hm : R m m') (c : Call) :
    Option.Rel (Agree R) (m.call c) (m'.call c) := by
  rw [← call_system, ← call_system]
  exact h.call hm fun _ _ => trivial

/-- **Machines in lockstep answer all calls alike.** -/
theorem history_of_lockstep (h : Lockstep system system (fun _ => True) R) (hm : R m m')
    (cs : List Call) : List.Forall₂ (Agree R) (m.history cs) (m'.history cs) := by
  rw [history_eq_answers, history_eq_answers]
  exact h.answers hm fun _ _ => trivial

/-- **Machines in lockstep give the same answers in a session**, if the same changes of the field
keep them related. -/
theorem session_of_lockstep (h : Lockstep system system (fun _ => True) R)
    (hchange : ∀ {m m'} (change : Field → Field), R m m' →
      R (m.withField (change m.field)) (m'.withField (change m'.field)))
    (hm : R m m') (es : List Event) :
    List.Forall₂ (Agree R) (m.session es) (m'.session es) := by
  induction es generalizing m m' with
  | nil => exact .nil
  | cons e es ih =>
    cases e with
    | change change => exact ih (hchange change hm)
    | call c =>
      have hcall := call_of_lockstep h hm c
      simp only [session]
      generalize m.call c = a at hcall ⊢
      generalize m'.call c = b at hcall ⊢
      cases hcall with
      | none => exact .nil
      | some hr => exact .cons hr (ih hr.2)

end Lockstep

end Machine

end OneBit
