/-
# A setting in front of the others

The words behind a command are read one by one, and each is looked at in the light of the draft that
the words before it have left.  This module is about one more word in front, the setting `--step`.
It is noted in the draft, and from there on it makes no difference: the draft `d.withStep` goes
through the same stages as `d`, with the one setting more.

`Tracks` says that of one stage of the reading.  Stages follow each other (`Tracks.bind`), and there
is one lemma for each of them, up to a whole list of words.  Only the setting itself, if it came
again, would be refused; but then it would be in the draft without the word in front as well.

So `readCommand_step` follows: with the word in front, the same is asked for, step by step.
-/
import OneBit.Command.Arguments

namespace OneBit.Command

/-! ## 1. Drafts with the setting in front -/

namespace Draft

/-- The draft with the setting `--step` before all others. -/
def withStep (d : Draft) : Draft := { d with given := d.given ++ [.step] }

/-- What is read after the draft `d` comes out the same with the setting in front, if it does not
have the setting again. -/
def Tracks (d : Draft) (r r' : Except Stop Draft) : Prop :=
  ∀ e, r = .ok e → .step ∉ e.given → .step ∉ d.given ∧ r' = .ok e.withStep

theorem contains_withStep {d : Draft} {s : Setting} (h : s ≠ .step) :
    d.withStep.given.contains s = d.given.contains s := by
  rw [withStep, List.contains_append]
  simp [h]

namespace Tracks

theorem ok {d e : Draft} (he : e.given = d.given) : Tracks d (.ok e) (.ok e.withStep) := by
  rintro e' ⟨⟩ hstep
  exact ⟨he ▸ hstep, rfl⟩

theorem error {d : Draft} {r : Except Stop Draft} (stop : Stop) : Tracks d (.error stop) r := by
  rintro e ⟨⟩

theorem bind {d : Draft} {r r' : Except Stop Draft} {f : Draft → Except Stop Draft}
    (hr : Tracks d r r') (hf : ∀ d, Tracks d (f d) (f d.withStep)) :
    Tracks d (r >>= f) (r' >>= f) := by
  intro e h hstep
  cases hd : r with
  | error stop =>
    rw [hd] at h
    cases h
  | ok d' =>
    rw [hd] at h
    obtain ⟨hstep', hnext⟩ := hf d' e h hstep
    obtain ⟨hfirst, hr'⟩ := hr d' hd hstep'
    refine ⟨hfirst, ?_⟩
    rw [hr']
    exact hnext

/-- A setting that was given already is refused with the other setting in front as well. -/
theorem unlessRepeated (d : Draft) {s : Setting} (hs : s ≠ .step) {r r' : Except Stop Draft}
    (h : Tracks d r r') :
    Tracks d (if d.given.contains s && !s.repeatable then .error (.usage (.repeated s)) else r)
      (if d.withStep.given.contains s && !s.repeatable then .error (.usage (.repeated s))
        else r') := by
  rw [contains_withStep hs]
  split
  · exact error _
  · exact h

/-- One more setting is given, and perhaps something else is noted with it. -/
theorem given {d e : Draft} {s : Setting} (he : e.given = s :: d.given) :
    Tracks d (.ok e) (.ok e.withStep) := by
  rintro e' ⟨⟩ hstep
  rw [he, List.mem_cons, not_or] at hstep
  exact ⟨hstep.2, rfl⟩

end Tracks

/-! ## 2. The stages of the reading -/

theorem note_tracks (d : Draft) (s : Setting) : Tracks d (d.note s) (d.withStep.note s) := by
  by_cases hs : s = .step
  · subst hs
    intro e h hstep
    simp only [note] at h
    split at h
    · cases h
    · cases h
      exact absurd List.mem_cons_self hstep
  · cases s with
    | version => exact .error _
    | help => exact .error _
    | _ => exact .unlessRepeated d hs (.given rfl)

theorem accept_tracks (d : Draft) (s : Setting) (value : String) :
    Tracks d (d.accept s value) (d.withStep.accept s value) := by
  by_cases hs : s = .step
  · subst hs
    simp only [accept]
    split
    · exact .error _
    · exact .error _
  · refine .unlessRepeated d hs ?_
    cases s with
    | maxTicks =>
      cases Text.readBelow UInt64.size value.toList with
      | ok n => exact .given rfl
      | error e => exact .error _
    | set =>
      cases parseCell value with
      | ok c => exact .given rfl
      | error e => exact .error _
    | pointer =>
      cases parseCell value with
      | ok c => exact .given rfl
      | error e => exact .error _
    | _ => exact .error _

theorem settle_tracks (d : Draft) : Tracks d d.settle d.withStep.settle := by
  obtain ⟨file, given, limit, set, pointer, pending, plainOnly⟩ := d
  rcases pending with _ | ⟨s, _ | value⟩
  · exact .ok rfl
  · exact .error _
  · exact accept_tracks ⟨file, given, limit, set, pointer, none, plainOnly⟩ s value

theorem readPath_tracks (d : Draft) (word : String) :
    Tracks d (d.readPath word) (d.withStep.readPath word) := by
  cases hfile : d.file with
  | some path =>
    simp only [readPath, hfile]
    exact .error _
  | none =>
    have hfile' : d.withStep.file = none := hfile
    simp only [readPath, hfile, hfile']
    exact d.settle_tracks.bind fun _ => .ok rfl

theorem readSetting_tracks (d : Draft) (s : Setting) (value : Option String) :
    Tracks d (d.readSetting s value) (d.withStep.readSetting s value) := by
  unfold readSetting
  cases s.valueName? with
  | some name =>
    cases value with
    | some v => exact d.settle_tracks.bind fun d => d.accept_tracks s v
    | none => exact d.settle_tracks.bind fun _ => .ok rfl
  | none =>
    cases value with
    | some v => exact .error _
    | none => exact d.settle_tracks.bind fun d => d.note_tracks s

/-- The first letter, and then the others. -/
theorem readLetters_of_letter {scope : Scope} {c : Char} {s : Setting}
    (hletter : scope.ofLetter? c = some s) (rest : List Char) (d : Draft) :
    readLetters scope (c :: rest) d =
      if s.valueName?.isSome then d.readSetting s (attachedValue? rest)
      else d.readSetting s none >>= readLetters scope rest := by
  simp only [readLetters, hletter]
  cases d.readSetting s none <;> rfl

theorem readLetters_tracks (scope : Scope) (letters : List Char) (d : Draft) :
    Tracks d (readLetters scope letters d) (readLetters scope letters d.withStep) := by
  induction letters generalizing d with
  | nil => exact .ok rfl
  | cons c rest ih =>
    cases hletter : scope.ofLetter? c with
    | none =>
      simp only [readLetters, hletter]
      exact .error _
    | some s =>
      rw [readLetters_of_letter hletter, readLetters_of_letter hletter]
      split
      · exact d.readSetting_tracks s (attachedValue? rest)
      · exact (d.readSetting_tracks s none).bind ih

theorem readLong_tracks (scope : Scope) (name : String) (value : Option String) (d : Draft) :
    Tracks d (readLong scope name value d) (readLong scope name value d.withStep) := by
  unfold readLong
  cases scope.ofName? name with
  | none => exact .error _
  | some s => exact d.readSetting_tracks s value

theorem readWord_tracks (scope : Scope) (d : Draft) (word : String) :
    Tracks d (d.readWord scope word) (d.withStep.readWord scope word) := by
  have hpath := d.readPath_tracks word
  obtain ⟨file, given, limit, set, pointer, pending, plainOnly⟩ := d
  cases plainOnly with
  | true => exact hpath
  | false =>
    simp only [readWord, withStep, Bool.false_eq_true, if_false]
    cases Word.of word with
    | separator => exact .ok rfl
    | long name value => exact readLong_tracks scope name value _
    | short letters => exact readLetters_tracks scope letters _
    | plain text =>
      rcases pending with _ | ⟨s, _ | value⟩
      · exact readPath_tracks _ text
      · exact .ok rfl
      · exact readPath_tracks _ text

theorem foldlM_tracks (scope : Scope) (words : List String) (d : Draft) :
    Tracks d (words.foldlM (readWord scope) d) (words.foldlM (readWord scope) d.withStep) := by
  induction words generalizing d with
  | nil => exact .ok rfl
  | cons word words ih => exact (readWord_tracks scope d word).bind ih

/-- What the setting in front changes in a request to run. -/
theorem toRequest_withStep {d : Draft} {path : String} {o : RunOptions}
    (h : d.toRequest .run = .ok (.run path o)) :
    (o.step = false → .step ∉ d.given) ∧
      d.withStep.toRequest .run = .ok (.run path { o with step := true }) := by
  have hflag : d.withStep.given.contains .flag = d.given.contains .flag :=
    contains_withStep (by decide)
  have hjson : d.withStep.given.contains .json = d.given.contains .json :=
    contains_withStep (by decide)
  have hstep : d.withStep.given.contains .step = true := by simp [withStep]
  cases hfile : d.file with
  | none =>
    simp only [toRequest, hfile] at h
    cases h
  | some path' =>
    simp only [toRequest, hfile] at h
    cases h
    have hfile' : d.withStep.file = some path := hfile
    refine ⟨fun hnot => by simpa using hnot, ?_⟩
    simp only [toRequest, hfile', hflag, hjson, hstep]
    rfl

end Draft

/-! ## 3. The whole command -/

/-- **The setting in front of all others** changes nothing else of what is asked for. -/
theorem readCommand_step {words : List String} {path : String} {o : RunOptions}
    (h : readCommand .run words = .ok (.run path o)) (hstep : o.step = false) :
    readCommand .run ("--step" :: words) = .ok (.run path { o with step := true }) := by
  have htracks := (Draft.foldlM_tracks Verb.run.scope words .empty).bind Draft.settle_tracks
  have hfirst : Draft.empty.readWord Verb.run.scope "--step" = .ok Draft.empty.withStep :=
    rfl
  unfold readCommand at h ⊢
  rw [← bind_assoc] at h ⊢
  cases hd : words.foldlM (Draft.readWord Verb.run.scope) .empty >>= Draft.settle with
  | error stop =>
    rw [hd] at h
    cases h
  | ok d =>
    rw [hd] at h
    obtain ⟨hgiven, hrequest⟩ := Draft.toRequest_withStep h
    obtain ⟨-, hd'⟩ := htracks d hd (hgiven hstep)
    have hwords : ("--step" :: words).foldlM (Draft.readWord Verb.run.scope) .empty =
        words.foldlM (Draft.readWord Verb.run.scope) Draft.empty.withStep := by
      rw [List.foldlM_cons, hfirst]
      rfl
    rw [hwords, hd']
    exact hrequest

end OneBit.Command
