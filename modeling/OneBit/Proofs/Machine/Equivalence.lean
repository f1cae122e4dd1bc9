/-
# What a machine's behaviour depends on

A machine that has come to its end keeps its counter at the end, or one place behind it; a fresh
one has it at the top.  From all three it goes on in the same way.  Two machines are EQUIVALENT if
they have the same field and program and the same counter, where a counter at the end or behind it
counts as the top.  Equivalent machines cannot be told apart by what they answer, whatever calls
are made and however the field is changed meanwhile (`equivalent_sessions`): neither the kept
status nor the number of ticks has an influence, and the difference of the counters is gone with
the first tick.

In particular a machine keeps nothing of its past but the field when it loads a source, be it good
or bad: it is then the machine that one would build around the field by installing the
instructions of the good lines (`load_eq_install`).
-/
import OneBit.Proofs.Assembly.Sequence
import OneBit.Proofs.Machine.Session

namespace OneBit.Machine

/-! ## 1. Equivalent machines -/

/-- The counter, with the top in place of the end and of all that is behind it. -/
def rewound (m : Machine) : Option Nat :=
  m.counter.map fun c => if c < m.program.length then c else 0

/-- The two machines differ at most in the kept status, in the number of ticks, and in the counter
where it is not in the program. -/
structure Equivalent (m m' : Machine) : Prop where
  field : m.field = m'.field
  program : m.program = m'.program
  counter : m.rewound = m'.rewound

/-- The next place is the rewound counter, if there is an instruction at all. -/
theorem here?_eq_rewound (m : Machine) :
    m.here? = if m.program.isEmpty then none else m.rewound := by
  unfold here? rewound
  cases m.counter with
  | none => simp
  | some c => rfl

theorem Equivalent.alike {m m' : Machine} (h : m.Equivalent m') : m.Alike m' where
  program := h.program
  field := h.field
  here := by rw [here?_eq_rewound, here?_eq_rewound, h.program, h.counter]

/-! ## 2. Two machines side by side -/

/-- Equivalent machines on the way from ticks `t` and `t'`: they have made the same number of
ticks since, and after the first of these the counters are equal. -/
structure Abreast (t t' : Nat) (m m' : Machine) : Prop where
  equivalent : m.Equivalent m'
  ticks : m.ticks + t' = m'.ticks + t
  counter : t < m.ticks → m.counter = m'.counter

theorem Equivalent.abreast {m m' : Machine} (h : m.Equivalent m') :
    Abreast m.ticks m'.ticks m m' :=
  ⟨h, Nat.add_comm _ _, fun hlt => absurd hlt (Nat.lt_irrefl _)⟩

namespace Abreast

variable {t t' : Nat} {m m' : Machine}

/-- **Machines that are abreast stay so**, tick by tick. -/
theorem tick (h : Abreast t t' m m') : Agree (Abreast t t') m.tick m'.tick := by
  have halike := h.equivalent.alike
  cases hhere : m.here? with
  | none =>
    -- There is no instruction, so nothing happens on either side.
    rw [tick_of_here?_none hhere, tick_of_here?_none (halike.here ▸ hhere)]
    exact ⟨rfl, h⟩
  | some n =>
    obtain ⟨i, -, ht⟩ := tick_of_here?_some hhere
    have hticks : m.tick.2.ticks = m.ticks + 1 := by rw [ht]
    have hprogram : m.tick.2.program = m'.program := m.program_tick.trans h.equivalent.program
    rw [halike.tick_eq hhere]
    refine ⟨rfl, ⟨rfl, hprogram, ?_⟩, ?_, fun _ => rfl⟩
    · simp only [rewound, hprogram]
    · have h' := h.ticks
      simp only
      omega

/-- Being abreast is no matter of the field, as long as it is the same on both sides. -/
theorem change (h : Abreast t t' m m') (change : Field → Field) :
    Abreast t t' (m.withField (change m.field)) (m'.withField (change m'.field)) :=
  ⟨⟨congrArg change h.equivalent.field, h.equivalent.program, h.equivalent.counter⟩, h.ticks,
    h.counter⟩

end Abreast

theorem abreast_lockstep (t t' : Nat) :
    Lockstep system system (fun _ => True) (Abreast t t') where
  tick _ _ h _ := h.tick
  keep _ _ _ h := ⟨⟨h.equivalent.field, h.equivalent.program, h.equivalent.counter⟩, h.ticks,
    h.counter⟩

/-! ## 3. Loads -/

/-- The answer of a load is the error of the compilation, if there is one. -/
theorem error_of_load (m : Machine) (source : String) :
    (∀ n, (m.load source).1 = .ok n → (Assembly.compile source).error = none) ∧
      ∀ e, (m.load source).1 = .error e → (Assembly.compile source).error = some e := by
  cases herr : (Assembly.compile source).error with
  | none => simp [load, herr]
  | some e => simp [load, herr]

/-- **A load leaves nothing of the past but the field**: the machine is then the new one around
the field, with the instructions of the good lines installed. -/
theorem load_eq_install (m : Machine) (source : String) :
    (m.load source).2 =
      (ofField m.field).install
        ⟨(Assembly.goodLines (Text.lines source)).filterMap Assembly.instruction?⟩ := by
  rw [← Assembly.program_compileFrom 1]
  rfl

/-! ## 4. Sessions of equivalent machines -/

/-- **Behaviour depends on the field, the program and the rewound counter only.**  Equivalent
machines answer every call of a session with the same status, also if the field is changed in
between; they stay equivalent, they make the same number of ticks, and once a tick was made their
counters are equal.  A load keeps the field and nothing else: good or bad, it makes the machine
the very one that comes of installing, in a new machine around the field, the instructions of the
lines before the bad line, or of all lines if there is none. -/
theorem equivalent_sessions :
    (∀ m m' : Machine, m.Equivalent m' → ∀ es : List Event,
      List.Forall₂
        (fun a b =>
          a.1 = b.1 ∧ a.2.Equivalent b.2 ∧ a.2.ticks + m'.ticks = b.2.ticks + m.ticks ∧
            (m.ticks < a.2.ticks → a.2.counter = b.2.counter))
        (m.session es) (m'.session es)) ∧
    ∀ (m : Machine) (source : String),
      (m.load source).2.field = m.field ∧
      (m.load source).2 =
        (ofField m.field).install
          ⟨(Assembly.goodLines (Text.lines source)).filterMap Assembly.instruction?⟩ ∧
      (∀ n, (m.load source).1 = .ok n →
        Assembly.goodLines (Text.lines source) = Text.lines source) ∧
      ∀ e, (m.load source).1 = .error e →
        Assembly.goodLines (Text.lines source) = (Text.lines source).take (e.line - 1) := by
  refine ⟨?_, ?_⟩
  · intro m m' h es
    refine (session_of_lockstep (abreast_lockstep m.ticks m'.ticks)
      (fun change hab => hab.change change) h.abreast es).imp ?_
    rintro a b ⟨hstatus, habreast⟩
    exact ⟨hstatus, habreast.equivalent, habreast.ticks, habreast.counter⟩
  · intro m source
    refine ⟨rfl, load_eq_install m source, ?_, ?_⟩
    · intro n hn
      exact Assembly.goodLines_of_ok ((m.error_of_load source).1 n hn)
    · intro e he
      exact Assembly.goodLines_of_error ((m.error_of_load source).2 e he)

/-- A machine at the top of a program that goes left if the flag is set, and skips if the data bit
is not. -/
def resting : Machine :=
  new.install ⟨[.guarded (.flag true) (.move .left), .guarded (.data false) .skip]⟩

/-- The same machine after it has come to the end, on a set bit that was taken away again. -/
def restingAtEnd : Machine :=
  ((resting.withField (resting.field.setData true)).runLimited 2).2.withField resting.field

/-- The same machine after it has skipped out of its program. -/
def restingBehind : Machine := (resting.runLimited 2).2

/-- Three places of rest that no session tells apart: with limit zero, into a fault at the top, and
out of the program once the flag is cleared. -/
theorem equivalent_sessions_of_resting :
    resting.Equivalent restingAtEnd ∧ resting.Equivalent restingBehind ∧
      [resting.counter, restingAtEnd.counter, restingBehind.counter] = [some 0, some 2, some 3] ∧
      ∀ m ∈ [restingAtEnd, restingBehind],
        (m.session [.call (.runLimited 0), .change (·.setFlag true), .call .step,
            .change (·.setFlag false), .call (.runLimited 5)]).map Prod.fst =
          [.ok, .fault .pointerOutOfRange, .terminated] := by
  have hend : resting.Equivalent restingAtEnd := ⟨rfl, rfl, rfl⟩
  have hbehind : resting.Equivalent restingBehind := ⟨rfl, rfl, rfl⟩
  have hsame : ∀ m, resting.Equivalent m → ∀ es,
      (resting.session es).map Prod.fst = (m.session es).map Prod.fst := by
    intro m h es
    rw [← List.forall₂_eq_eq_eq, List.forall₂_map_left_iff, List.forall₂_map_right_iff]
    exact (equivalent_sessions.1 _ _ h es).imp fun _ _ hab => hab.1
  refine ⟨hend, hbehind, rfl, ?_⟩
  intro m hm
  have hm : resting.Equivalent m := by
    simp only [List.mem_cons, List.not_mem_nil, or_false] at hm
    rcases hm with rfl | rfl
    · exact hend
    · exact hbehind
  rw [← hsame m hm]
  rfl

end OneBit.Machine
