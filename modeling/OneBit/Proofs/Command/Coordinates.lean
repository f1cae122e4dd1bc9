/-
# Which texts name a cell

What a text must say to name a cell, and what is answered to a text that says something else, is put
down here without the steps that find it out.  The text has two parts, as a statement has
(`Assembly.Parts`), and each of them is a numeral that may have a plus sign and is worth less than
16.  `CellAnswer` has one rule for each way the reading can end, with the wording of the refusal.

The main fact is `answer_eq_iff`: the answer to a text is the one that the rules give, and no other.
The rules exclude each other, so this settles which of two mistakes is reported as well.  It holds
of the reading as words too: a numeral that does not fit into a word is refused like any other that
is too large.
-/
import OneBit.Proofs.Assembly.Grammar
import OneBit.Proofs.Words.CommandLine

namespace OneBit.Command

open Text
open Assembly (Parts parts_of_mem)

/-! ## 1. Coordinates -/

/-- The text, which has no blanks around it, is a numeral for the coordinate `n`. -/
def SpellsCoordinate (text : List Char) (n : Nat) : Prop := Unsigned text n ∧ n < 16

section Coordinate

variable {part text : List Char}

/-- **A coordinate is found** if one is spelt, with or without blanks around it. -/
theorem coordinate?_eq_some_iff (h : Trimmed part text) {c : Coordinate} :
    coordinate? part = some c ↔ SpellsCoordinate text c := by
  rw [coordinate?, trim_eq_iff.mpr h, SpellsCoordinate, ← unsigned?_eq_some_iff]
  cases unsigned? text with
  | none => simp
  | some n =>
    by_cases hn : n < 16
    · simp only [dif_pos hn, Option.some.injEq, Fin.ext_iff, c.isLt, and_true]
    · simp only [dif_neg hn, Option.some.injEq, reduceCtorEq, false_iff, not_and]
      rintro rfl
      exact absurd c.isLt hn

theorem coordinate?_eq_none_iff (h : Trimmed part text) :
    coordinate? part = none ↔ ¬ ∃ n, SpellsCoordinate text n := by
  rw [Option.eq_none_iff_forall_ne_some, not_exists]
  constructor
  · intro hnone n hn
    exact hnone ⟨n, hn.2⟩ ((coordinate?_eq_some_iff h).mpr hn)
  · intro hnone c hc
    exact hnone c ((coordinate?_eq_some_iff h).mp hc)

end Coordinate

/-! ## 2. The answer to a text -/

/-- The ways the reading of a text can end: with a column and a row, or with a refusal. -/
inductive CellAnswer (text : String) : Except String (Nat × Nat) → Prop
  | noComma (hcomma : ',' ∉ text.toList) :
      CellAnswer text (.error ("expected X,Y but got `" ++ text ++ "`"))
  | badColumn {left right : List Char} (hparts : Parts text.toList left right)
      (hleft : ¬ ∃ x, SpellsCoordinate left x) :
      CellAnswer text (.error ("coordinate `" ++ String.ofList left ++ "` is not in 0-15"))
  | badRow {left right : List Char} {x : Nat} (hparts : Parts text.toList left right)
      (hleft : SpellsCoordinate left x) (hright : ¬ ∃ y, SpellsCoordinate right y) :
      CellAnswer text (.error ("coordinate `" ++ String.ofList right ++ "` is not in 0-15"))
  | cell {left right : List Char} {x y : Nat} (hparts : Parts text.toList left right)
      (hleft : SpellsCoordinate left x) (hright : SpellsCoordinate right y) :
      CellAnswer text (.ok (x, y))

/-- The answer to a text, as numbers and words. -/
def answer (text : String) : Except String (Nat × Nat) :=
  ((parseCell text).mapError CellError.message).map fun c => (c.x.val, c.y.val)

/-- The same, if the coordinates are read as words. -/
def wordAnswer (text : String) : Except String (Nat × Nat) :=
  ((parseCoords text).mapError CellError.message).map fun c => (c.1.toNat, c.2.toNat)

theorem wordAnswer_eq (text : String) : wordAnswer text = answer text := by
  rw [wordAnswer, answer, parseCoords_eq]
  cases parseCell text with
  | error e => rfl
  | ok c => simp only [Except.map, Except.mapError, Coordinate.toNat_word]

section Reading

variable {text : String} {left right : List Char}

theorem parseCell_of_notMem (h : ',' ∉ text.toList) : parseCell text = .error (.noComma text) := by
  rw [parseCell, splitAt?_eq_none_iff.mpr h]

/-- What is read of a text with a comma is decided by its two parts. -/
theorem exists_parseCell_of_parts (h : Parts text.toList left right) :
    ∃ a b, Trimmed a left ∧ Trimmed b right ∧
      parseCell text =
        match coordinate? a with
        | none => .error (.badCoordinate (String.ofList left))
        | some x =>
          match coordinate? b with
          | none => .error (.badCoordinate (String.ofList right))
          | some y => .ok ⟨x, y⟩ := by
  obtain ⟨a, b, ha, htext, hleft, hright⟩ := h
  refine ⟨a, b, hleft, hright, ?_⟩
  obtain rfl := trim_eq_iff.mpr hleft
  obtain rfl := trim_eq_iff.mpr hright
  have hsplit : splitAt? ',' text.toList = some (a, b) := by rw [htext, splitAt?_append ha]
  unfold parseCell
  split
  · rename_i hnone
    rw [hsplit] at hnone
    cases hnone
  · rename_i hsome
    rw [hsplit] at hsome
    cases hsome
    rfl

/-- The rules are right: what they give is the answer. -/
theorem answer_of_cellAnswer {r : Except String (Nat × Nat)} (h : CellAnswer text r) :
    answer text = r := by
  cases h with
  | noComma hcomma =>
    rw [answer, parseCell_of_notMem hcomma]
    rfl
  | badColumn hparts hleft =>
    obtain ⟨a, b, ha, hb, hread⟩ := exists_parseCell_of_parts hparts
    rw [answer, hread, (coordinate?_eq_none_iff ha).mpr hleft]
    rfl
  | @badRow _ _ x hparts hleft hright =>
    obtain ⟨a, b, ha, hb, hread⟩ := exists_parseCell_of_parts hparts
    have hx : coordinate? a = some ⟨x, hleft.2⟩ := (coordinate?_eq_some_iff ha).mpr hleft
    rw [answer, hread, hx, (coordinate?_eq_none_iff hb).mpr hright]
    rfl
  | @cell _ _ x y hparts hleft hright =>
    obtain ⟨a, b, ha, hb, hread⟩ := exists_parseCell_of_parts hparts
    have hx : coordinate? a = some ⟨x, hleft.2⟩ := (coordinate?_eq_some_iff ha).mpr hleft
    have hy : coordinate? b = some ⟨y, hright.2⟩ := (coordinate?_eq_some_iff hb).mpr hright
    rw [answer, hread, hx, hy]
    rfl

/-- The rules are complete: they give an answer to every text. -/
theorem exists_cellAnswer (text : String) : ∃ r, CellAnswer text r := by
  by_cases hcomma : ',' ∈ text.toList
  · obtain ⟨left, right, hparts⟩ := parts_of_mem hcomma
    by_cases hleft : ∃ x, SpellsCoordinate left x
    · obtain ⟨x, hx⟩ := hleft
      by_cases hright : ∃ y, SpellsCoordinate right y
      · obtain ⟨y, hy⟩ := hright
        exact ⟨_, .cell hparts hx hy⟩
      · exact ⟨_, .badRow hparts hx hright⟩
    · exact ⟨_, .badColumn hparts hleft⟩
  · exact ⟨_, .noComma hcomma⟩

end Reading

/-- **A text is read as the rules say, and in no other way**, whether its coordinates are numbers of
any size or words. -/
theorem answer_eq_iff (text : String) (r : Except String (Nat × Nat)) :
    (answer text = r ↔ CellAnswer text r) ∧ (wordAnswer text = r ↔ CellAnswer text r) := by
  have hrules : answer text = r ↔ CellAnswer text r := by
    constructor
    · rintro rfl
      obtain ⟨r, hr⟩ := exists_cellAnswer text
      rwa [answer_of_cellAnswer hr]
    · exact answer_of_cellAnswer
  exact ⟨hrules, by rw [wordAnswer_eq, hrules]⟩

/-- Blanks, a plus sign and zeros do not count. -/
example : parseCell "\u00a0+007 ,15\t" = .ok ⟨7, 15⟩ := by decide

/-- A numeral for a row that would wrap around to 1 in a word. -/
example : parseCell "1, 18446744073709551617" =
    .error (.badCoordinate "18446744073709551617") := by decide

end OneBit.Command
