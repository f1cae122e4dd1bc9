/-
# The search in words

A search forward goes over the places from one behind the start up to the length of the program; a
search backward goes down from the start, or from the length if that is less.  The start may be any
word.  The greatest one has none behind it, and the search forward then starts at itself.

Each place that the search comes to is looked up, and the look-up traps if the program has no such
place.  `findTag_word` says that this never happens, and that the search finds what
`Program.findTag` finds: the places stay below the length, whatever the start.

With that, `findTag_nearest` says which place this is, for numbers and for words: of the tags with
the ID that lie strictly on the asked side, the one that has no other between it and the start.
-/
import OneBit.Proofs.Machine.Reference
import OneBit.Proofs.Program.Nearest
import OneBit.Proofs.Words.Word

namespace OneBit

namespace Program

/-! ## 1. The two loops -/

/-- Half of the greatest word with a sign. -/
def maxLength : Nat := Word.Signed.max / 2

/-- The length of the program as a word. -/
def size (p : Program) : UInt64 := UInt64.ofNat p.length

/-- The instruction at a place. -/
def instructionAt (p : Program) (i : UInt64) : Except Trap Instruction :=
  match p.get? i.toNat with
  | some ins => .ok ins
  | none => .error .index

/-- Look for an instruction at `i` and the places after it, below `stop`. -/
def findUp (p : Program) (target : Instruction) (i stop : UInt64) :
    Except Trap (Option UInt64) :=
  if _ : i < stop then
    match p.instructionAt i with
    | .error t => .error t
    | .ok ins => if ins = target then .ok (some i) else findUp p target (i + 1) stop
  else .ok none
termination_by stop.toNat - i.toNat
decreasing_by
  have hlt : i.toNat < stop.toNat := UInt64.lt_iff_toNat_lt.mp ‹i < stop›
  rw [Word.toNat_succ_of_lt ‹i < stop›]
  omega

/-- Look for an instruction at the places before `i`, the nearest first. -/
def findDown (p : Program) (target : Instruction) (i : UInt64) : Except Trap (Option UInt64) :=
  if _ : 0 < i then
    match p.instructionAt (i - 1) with
    | .error t => .error t
    | .ok ins => if ins = target then .ok (some (i - 1)) else findDown p target (i - 1)
  else .ok none
termination_by i.toNat
decreasing_by
  have hpos : 0 < i.toNat := UInt64.lt_iff_toNat_lt.mp ‹0 < i›
  have hle : (1 : UInt64) ≤ i := UInt64.le_iff_toNat_le.mpr hpos
  rw [UInt64.toNat_sub_of_le _ _ hle]
  exact Nat.sub_lt hpos Nat.one_pos

/-- Look for the nearest tag with an ID on one side of a word. -/
def findTagWord (p : Program) (start : UInt64) (id : UInt8) :
    Search → Except Trap (Option UInt64)
  | .forward => p.findUp (.tag id) (Word.saturatingAdd start 1) p.size
  | .backward => p.findDown (.tag id) (if start ≤ p.size then start else p.size)

/-! ## 2. Each loop stays in the program -/

variable {p : Program}

theorem lt_size_of_le_maxLength (h : p.length ≤ maxLength) : p.length < UInt64.size :=
  Nat.lt_of_le_of_lt h (by decide)

/-- A place of the program can be looked up. -/
theorem instructionAt_ofNat {i : Nat} {ins : Instruction} (hi : i < UInt64.size)
    (h : p.get? i = some ins) : p.instructionAt (UInt64.ofNat i) = .ok ins := by
  rw [instructionAt, Word.toNat_ofNat hi, h]

/-- **The loop upwards never leaves the program**, and finds what the scan finds. -/
theorem findUp_ofNat (hp : p.length < UInt64.size) (id : UInt8) {i : Nat}
    (hi : i < UInt64.size) :
    p.findUp (.tag id) (UInt64.ofNat i) p.size =
      .ok ((Reference.scanForward p id i).map UInt64.ofNat) := by
  have hword : ∀ j, j < UInt64.size → (UInt64.ofNat j < p.size ↔ j < p.length) := by
    intro j hj
    exact UInt64.ofNat_lt_iff_lt hj hp
  fun_induction Reference.scanForward p id i with
  | case1 i hlt htag =>
    rw [findUp, dif_pos ((hword i hi).mpr hlt), instructionAt_ofNat hi htag]
    simp
  | case2 i hlt htag ih =>
    have hget : p.get? i = some p.instructions[i] := List.getElem?_eq_getElem hlt
    have hne : p.instructions[i] ≠ .tag id := by
      intro heq
      exact htag (hget.trans (congrArg some heq))
    rw [findUp, dif_pos ((hword i hi).mpr hlt), instructionAt_ofNat hi hget]
    simp only [hne, if_false]
    rw [← ih (Nat.lt_of_le_of_lt hlt hp), UInt64.ofNat_add]
    rfl
  | case3 i hge =>
    rw [findUp, dif_neg (mt (hword i hi).mp hge)]
    rfl

/-- **The loop downwards never leaves the program**, and finds what the scan finds. -/
theorem findDown_ofNat (hp : p.length < UInt64.size) (id : UInt8) {i : Nat}
    (hi : i ≤ p.length) :
    p.findDown (.tag id) (UInt64.ofNat i) =
      .ok ((Reference.scanBackward p id i).map UInt64.ofNat) := by
  induction i with
  | zero =>
    rw [findDown, dif_neg (by decide)]
    rfl
  | succ i ih =>
    have hsize : i + 1 < UInt64.size := Nat.lt_of_le_of_lt hi hp
    have hpos : 0 < UInt64.ofNat (i + 1) := by
      rw [UInt64.lt_iff_toNat_lt, Word.toNat_ofNat hsize]
      exact Nat.succ_pos i
    have hpred : UInt64.ofNat (i + 1) - 1 = UInt64.ofNat i := by
      rw [UInt64.ofNat_add]
      exact UInt64.add_sub_cancel _ _
    have hget : p.get? i = some p.instructions[i] := List.getElem?_eq_getElem hi
    rw [findDown, dif_pos hpos, hpred, instructionAt_ofNat (Nat.lt_of_succ_lt hsize) hget,
      Reference.scanBackward, hget]
    by_cases htag : p.instructions[i] = .tag id
    · simp [htag]
    · simp only [htag, if_false, Option.some.injEq]
      exact ih (Nat.le_of_succ_le hi)

/-! ## 3. The search -/

/-- Behind the end there is nothing to find. -/
theorem findTag_forward_of_le {start : Nat} (h : p.length ≤ start + 1) (id : UInt8) :
    p.findTag start id .forward = none := by
  have hdrop : p.instructions.zipIdx.drop (start + 1) = [] :=
    List.drop_eq_nil_of_le (by rwa [List.length_zipIdx])
  rw [findTag, onSide, hdrop]
  rfl

/-- From behind the end a search backward sees the whole program. -/
theorem findTag_backward_of_le {start : Nat} (h : p.length ≤ start) (id : UInt8) :
    p.findTag start id .backward = p.findTag p.length id .backward := by
  have htake : ∀ n, p.length ≤ n → p.instructions.zipIdx.take n = p.instructions.zipIdx := by
    intro n hn
    exact List.take_of_length_le (by rwa [List.length_zipIdx])
  simp only [findTag, onSide, htake start h, htake p.length (Nat.le_refl _)]

/-- **A search never looks outside the program**, from any word and for any ID, and finds the
nearest tag. -/
theorem findTag_word (h : p.length ≤ maxLength) (start : UInt64) (id : UInt8) (side : Search) :
    p.findTagWord start id side = .ok ((p.findTag start.toNat id side).map UInt64.ofNat) := by
  have hp := lt_size_of_le_maxLength h
  cases side with
  | forward =>
    have hnext : Word.saturatingAdd start 1 =
        UInt64.ofNat (min (start.toNat + 1) (UInt64.size - 1)) := by
      rw [← Word.toNat_saturatingAdd_one, UInt64.ofNat_toNat]
    rw [findTagWord, hnext, findUp_ofNat hp id (by omega)]
    by_cases hlast : start.toNat + 1 < UInt64.size
    · rw [Nat.min_eq_left (by omega), Reference.scanForward_eq]
    · -- The greatest word stays where it is, and that is behind the end already.
      rw [Nat.min_eq_right (by omega), findTag_forward_of_le (by omega), Reference.scanForward,
        if_neg (by omega)]
  | backward =>
    have hword : start ≤ p.size ↔ start.toNat ≤ p.length := by
      rw [UInt64.le_iff_toNat_le, size, Word.toNat_ofNat hp]
    have hfrom : (if start ≤ p.size then start else p.size) =
        UInt64.ofNat (min start.toNat p.length) := by
      by_cases hle : start.toNat ≤ p.length
      · rw [if_pos (hword.mpr hle), Nat.min_eq_left hle, UInt64.ofNat_toNat]
      · rw [if_neg (mt hword.mp hle), Nat.min_eq_right (Nat.le_of_not_le hle), size]
    rw [findTagWord, hfrom, findDown_ofNat hp id (Nat.min_le_right _ _), Reference.scanBackward_eq]
    rcases Nat.le_total start.toNat p.length with hle | hge
    · rw [Nat.min_eq_left hle]
    · rw [Nat.min_eq_right hge, findTag_backward_of_le hge]

/-! ## 4. Which tag is found -/

/-- **The tag that is found is the nearest one strictly on the asked side**, from any start, also
far outside the program.  A search forward finds the tag with the ID that has no such tag between
the start and itself.  A search backward finds the one that has no such tag between itself and the
start, or the end of the program if the start lies behind it.  There is no answer exactly if no
place on that side has such a tag.  Instructions that go to a tag with the ID are not found.  From
every word the search in words finds the same, without a trap. -/
theorem findTag_nearest (p : Program) (start : Nat) (id : UInt8) :
    (∀ k, p.findTag start id .forward = some k ↔
      start < k ∧ k < p.length ∧ p.get? k = some (.tag id) ∧
        ∀ j, start < j → j < k → p.get? j ≠ some (.tag id)) ∧
    (∀ k, p.findTag start id .backward = some k ↔
      k < start ∧ k < p.length ∧ p.get? k = some (.tag id) ∧
        ∀ j, k < j → j < min start p.length → p.get? j ≠ some (.tag id)) ∧
    (p.findTag start id .forward = none ↔
      ∀ j, start < j → j < p.length → p.get? j ≠ some (.tag id)) ∧
    (p.findTag start id .backward = none ↔
      ∀ j, j < start → j < p.length → p.get? j ≠ some (.tag id)) ∧
    (∀ side k, p.findTag start id side = some k →
      p.get? k ≠ some (.advance id) ∧ p.get? k ≠ some (.retreat id)) ∧
    (p.length ≤ maxLength → ∀ w : UInt64, w.toNat = start → ∀ side,
      p.findTagWord w id side = .ok ((p.findTag start id side).map UInt64.ofNat)) := by
  have hnone : ∀ side, p.findTag start id side = none ↔
      ∀ j, side.Beyond start j → j < p.length → p.get? j ≠ some (.tag id) := by
    intro side
    rw [findTag_eq_none_iff]
    constructor
    · intro h j hj _
      exact h j hj
    · intro h j hj htag
      exact h j hj (lt_length_of_get? htag) htag
  refine ⟨fun k => ?_, fun k => ?_, hnone .forward, hnone .backward, ?_, ?_⟩
  · rw [findTag_eq_some_iff]
    constructor
    · rintro ⟨hget, hstart, hno⟩
      exact ⟨hstart, lt_length_of_get? hget, hget, hno⟩
    · rintro ⟨hstart, -, hget, hno⟩
      exact ⟨hget, hstart, hno⟩
  · rw [findTag_eq_some_iff]
    constructor
    · rintro ⟨hget, hstart, hno⟩
      refine ⟨hstart, lt_length_of_get? hget, hget, fun j hk hj => ?_⟩
      exact hno j (Nat.lt_of_lt_of_le hj (Nat.min_le_left _ _)) hk
    · rintro ⟨hstart, -, hget, hno⟩
      refine ⟨hget, hstart, fun j hj hk htag => ?_⟩
      exact hno j hk (Nat.lt_min.mpr ⟨hj, lt_length_of_get? htag⟩) htag
  · intro side k hfound
    rw [get?_of_findTag hfound]
    simp
  · rintro hlength w rfl side
    exact findTag_word hlength w id side

/-- Between two tags, and from the greatest word backward past instructions with the same ID. -/
theorem findTag_nearest_of_greatest :
    let p : Program := ⟨[.tag 200, .tag 3, .advance 3, .tag 3, .retreat 3]⟩
    p.findTag 1 3 .forward = some 3 ∧
      p.findTagWord 18446744073709551615 3 .backward = .ok (some 3) ∧
      p.findTagWord 18446744073709551615 3 .forward = .ok none := by
  intro p
  have hlength : p.length ≤ maxLength := by decide
  have hbefore : ∀ j, 1 < j → j < 3 → p.get? j ≠ some (.tag 3) := by
    intro j hlow hhigh
    obtain rfl : j = 2 := by omega
    decide
  have hbehind : ∀ j, 3 < j → j < 5 → p.get? j ≠ some (.tag 3) := by
    intro j hlow hhigh
    obtain rfl : j = 4 := by omega
    decide
  obtain ⟨hnext, -⟩ := findTag_nearest p 1 3
  obtain ⟨-, hlast, hnone, -, -, hwords⟩ := findTag_nearest p 18446744073709551615 3
  refine ⟨(hnext 3).mpr ⟨by decide, by decide, rfl, hbefore⟩, ?_, ?_⟩
  · rw [hwords hlength _ rfl, (hlast 3).mpr ⟨by decide, by decide, rfl, hbehind⟩]
    rfl
  · rw [hwords hlength _ rfl, hnone.mpr fun j hlow hhigh => ?_]
    · rfl
    · exact absurd (hlow.trans hhigh) (by decide)

end Program

end OneBit
