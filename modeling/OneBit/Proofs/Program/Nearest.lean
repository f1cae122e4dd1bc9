/-
# What a search finds

`Program.findTag` walks along the instructions on one side of a place and takes the first tag
with the ID.  This module says the same by places alone.  A place lies BEYOND another one on a
side if the search comes to it later; the search succeeds with place `k` exactly if there is a
tag with the ID at `k`, beyond the start, and none on the way (`findTag_eq_some_iff`), and it
fails exactly if there is no such tag on the whole side (`findTag_eq_none_iff`).

The instructions on a side stand in the order in which the search comes to them
(`pairwise_onSide`), and that is why the first match is the nearest one.
-/
import OneBit.Program.Basic

namespace OneBit

/-- Place `b` lies beyond place `a` on this side. -/
def Search.Beyond : Search → Nat → Nat → Prop
  | forward, a, b => a < b
  | backward, a, b => b < a

theorem Search.Beyond.asymm {side : Search} {a b : Nat} (h : side.Beyond a b) :
    ¬ side.Beyond b a := by
  cases side with
  | forward => exact Nat.lt_asymm h
  | backward => exact Nat.lt_asymm h

namespace Program

variable {p : Program} {start k : Nat} {id : UInt8} {side : Search}

/-! ## 1. The instructions on a side -/

/-- Only places of the program have an instruction. -/
theorem lt_length_of_get? {i : Instruction} (h : p.get? k = some i) : k < p.length :=
  (List.getElem?_eq_some_iff.mp h).1

theorem zipIdx_getElem?_eq_some_iff {i : Instruction} {n : Nat} :
    p.instructions.zipIdx[n]? = some (i, k) ↔ n = k ∧ p.get? k = some i := by
  rw [List.getElem?_zipIdx, Option.map_eq_some_iff]
  constructor
  · rintro ⟨i', hi, heq⟩
    simp only [Nat.zero_add, Prod.mk.injEq] at heq
    obtain ⟨rfl, rfl⟩ := heq
    exact ⟨rfl, hi⟩
  · rintro ⟨rfl, hi⟩
    exact ⟨i, hi, by rw [Nat.zero_add]⟩

/-- On one side of a place are the instructions whose places lie beyond it. -/
theorem mem_onSide_iff {i : Instruction} :
    (i, k) ∈ p.onSide start side ↔ side.Beyond start k ∧ p.get? k = some i := by
  cases side with
  | forward =>
    simp only [onSide, Search.Beyond, List.mem_iff_getElem?, List.getElem?_drop,
      zipIdx_getElem?_eq_some_iff]
    constructor
    · rintro ⟨n, hn, hi⟩
      exact ⟨by omega, hi⟩
    · rintro ⟨hlt, hi⟩
      exact ⟨k - (start + 1), by omega, hi⟩
  | backward =>
    rw [onSide, List.mem_reverse]
    simp only [Search.Beyond, List.mem_iff_getElem?, List.getElem?_take,
      Option.ite_none_right_eq_some, zipIdx_getElem?_eq_some_iff]
    constructor
    · rintro ⟨n, hn, rfl, hi⟩
      exact ⟨hn, hi⟩
    · rintro ⟨hlt, hi⟩
      exact ⟨k, hlt, rfl, hi⟩

/-- They stand in the order in which the search comes to them. -/
theorem pairwise_onSide (p : Program) (start : Nat) (side : Search) :
    (p.onSide start side).Pairwise fun a b => side.Beyond a.2 b.2 := by
  have hsorted : p.instructions.zipIdx.Pairwise fun a b => a.2 < b.2 := by
    have hnumbers : (p.instructions.zipIdx.map Prod.snd).Pairwise (· < ·) := by
      rw [List.zipIdx_map_snd]
      exact List.pairwise_lt_range' 1
    exact List.pairwise_map.mp hnumbers
  cases side with
  | forward => exact hsorted.drop
  | backward => exact List.pairwise_reverse.mpr hsorted.take

/-! ## 2. The tag that is found -/

/-- **A search that succeeds has found the nearest tag**, and the nearest tag is found. -/
theorem findTag_eq_some_iff :
    p.findTag start id side = some k ↔
      p.get? k = some (.tag id) ∧ side.Beyond start k ∧
        ∀ j, side.Beyond start j → side.Beyond j k → p.get? j ≠ some (.tag id) := by
  have hsorted := pairwise_onSide p start side
  constructor
  · intro h
    obtain ⟨⟨i, n⟩, hfind, rfl⟩ := Option.map_eq_some_iff.mp h
    have hmem := mem_onSide_iff.mp (List.mem_of_find?_eq_some hfind)
    obtain ⟨htag, before, behind, hsplit, hno⟩ := List.find?_eq_some_iff_append.mp hfind
    obtain rfl : i = .tag id := by simpa using htag
    refine ⟨hmem.2, hmem.1, ?_⟩
    intro j hstart hj hget
    -- A tag on the way would stand before the one that was found.
    have hjmem : (Instruction.tag id, j) ∈ p.onSide start side := mem_onSide_iff.mpr ⟨hstart, hget⟩
    rw [hsplit] at hjmem hsorted
    rcases List.mem_append.mp hjmem with hin | hin
    · exact absurd (hno _ hin) (by simp)
    · rcases List.mem_cons.mp hin with heq | hin
      · cases heq
        exact hj.asymm hj
      · have hlater := (List.pairwise_cons.mp (List.pairwise_append.mp hsorted).2.1).1 _ hin
        exact hj.asymm hlater
  · rintro ⟨hget, hstart, hno⟩
    obtain ⟨before, behind, hsplit⟩ := List.append_of_mem (mem_onSide_iff.mpr ⟨hstart, hget⟩)
    refine Option.map_eq_some_iff.mpr ⟨(.tag id, k), ?_, rfl⟩
    refine List.find?_eq_some_iff_append.mpr ⟨by simp, before, behind, hsplit, ?_⟩
    rintro ⟨i, j⟩ hin
    have hmem := mem_onSide_iff.mp (hsplit ▸ List.mem_append_left _ hin)
    rw [hsplit] at hsorted
    have hj := (List.pairwise_append.mp hsorted).2.2 _ hin _ List.mem_cons_self
    have hne : i ≠ .tag id := by
      rintro rfl
      exact hno j hmem.1 hj hmem.2
    simpa using hne

/-- A search asks only where the tags with the ID stand. -/
theorem findTag_congr {q : Program} {id' : UInt8}
    (htag : ∀ k, q.get? k = some (.tag id') ↔ p.get? k = some (.tag id)) (start : Nat)
    (side : Search) : q.findTag start id' side = p.findTag start id side := by
  ext k
  simp only [findTag_eq_some_iff, htag, Ne]

/-- **A search fails exactly if there is no tag with the ID on its side.** -/
theorem findTag_eq_none_iff :
    p.findTag start id side = none ↔ ∀ j, side.Beyond start j → p.get? j ≠ some (.tag id) := by
  simp only [findTag, Option.map_eq_none_iff, List.find?_eq_none, beq_iff_eq]
  constructor
  · intro h j hj hget
    exact h _ (mem_onSide_iff.mpr ⟨hj, hget⟩) rfl
  · rintro h ⟨i, j⟩ hmem rfl
    obtain ⟨hj, hget⟩ := mem_onSide_iff.mp hmem
    exact h j hj hget

end Program

end OneBit
