/-
# Words that trap

A WORD has 64 bits.  Work on words can fail where work on numbers cannot: a sum may not fit, an
index may not be below the length of the table.  Then the work stops with a TRAP, and nothing comes
after it.

A sum is `checkedAdd` for words and `Signed.checkedAdd`, `Signed.checkedSub` for words with a sign;
each answers if the exact result fits, and traps if not (`checkedAdd_eq_error_iff`).  To read a word
as one with a sign is no work that can trap: a word of 2^63 or more becomes negative.
-/
import Mathlib.Data.List.Basic
import OneBit.Field.Checked

namespace OneBit

/-- Why work on words stops. -/
inductive Trap
  /-- The index of a table is not below its length. -/
  | index
  /-- A sum or a difference does not fit into a word. -/
  | overflow
  /-- A number names no cell or no row. -/
  | range (error : RangeError)
deriving DecidableEq, Repr

namespace Word

/-! ## 1. Sums and differences -/

/-- The greatest word with a sign. -/
def Signed.max : Nat := 9223372036854775807

/-- The sum of two words, if it fits. -/
def checkedAdd (a b : UInt64) : Except Trap UInt64 :=
  if (a + b).toNat = a.toNat + b.toNat then .ok (a + b) else .error .overflow

/-- The sum of two words, or the greatest word. -/
def saturatingAdd (a b : UInt64) : UInt64 :=
  if (a + b).toNat = a.toNat + b.toNat then a + b else UInt64.ofNat (UInt64.size - 1)

/-- The sum of two words with a sign, if it fits. -/
def Signed.checkedAdd (a b : Int64) : Except Trap Int64 :=
  if (a + b).toInt = a.toInt + b.toInt then .ok (a + b) else .error .overflow

/-- The difference of two words with a sign, if it fits. -/
def Signed.checkedSub (a b : Int64) : Except Trap Int64 :=
  if (a - b).toInt = a.toInt - b.toInt then .ok (a - b) else .error .overflow

/-- **A sum traps exactly if it needs more than a word.** -/
theorem checkedAdd_eq_error_iff {a b : UInt64} {t : Trap} :
    checkedAdd a b = .error t ↔ UInt64.size ≤ a.toNat + b.toNat ∧ t = .overflow := by
  have hsum : (a + b).toNat = (a.toNat + b.toNat) % 2 ^ 64 := UInt64.toNat_add a b
  have hlt := (a + b).toNat_lt
  unfold checkedAdd
  split
  · rename_i hfits
    simp only [reduceCtorEq, false_iff, not_and]
    intro hbig
    exact absurd (hfits ▸ hlt) (Nat.not_lt.mpr hbig)
  · rename_i hfits
    have hbig : UInt64.size ≤ a.toNat + b.toNat := by
      by_contra hsmall
      exact hfits (hsum.trans (Nat.mod_eq_of_lt (Nat.lt_of_not_le hsmall)))
    simp [hbig, eq_comm]

/-- Below another word there is room for one more. -/
theorem toNat_succ_of_lt {i stop : UInt64} (h : i < stop) : (i + 1).toNat = i.toNat + 1 := by
  have hlt : i.toNat < stop.toNat := UInt64.lt_iff_toNat_lt.mp h
  have hstop := stop.toNat_lt
  exact (UInt64.toNat_add i 1).trans (Nat.mod_eq_of_lt (Nat.lt_of_le_of_lt hlt hstop))

/-! ## 2. Numbers as words -/

variable {a b : Nat}

theorem toNat_ofNat (h : a < UInt64.size) : (UInt64.ofNat a).toNat = a :=
  UInt64.toNat_ofNat'.trans (Nat.mod_eq_of_lt h)

/-- A sum of numbers that fits is the sum of their words. -/
theorem checkedAdd_ofNat (h : a + b < UInt64.size) :
    checkedAdd (UInt64.ofNat a) (UInt64.ofNat b) = .ok (UInt64.ofNat (a + b)) := by
  rw [checkedAdd, ← UInt64.ofNat_add, toNat_ofNat h, toNat_ofNat (by omega),
    toNat_ofNat (by omega), if_pos rfl]

/-- One more than a word, or the word itself if it is the greatest. -/
theorem toNat_saturatingAdd_one (w : UInt64) :
    (saturatingAdd w 1).toNat = min (w.toNat + 1) (UInt64.size - 1) := by
  have hsum : (w + 1).toNat = (w.toNat + 1) % 2 ^ 64 := UInt64.toNat_add w 1
  have hone : (1 : UInt64).toNat = 1 := rfl
  have hsize : UInt64.size = 2 ^ 64 := rfl
  have hw := w.toNat_lt
  rw [saturatingAdd, hone]
  split
  · rename_i hfits
    have hlt := (w + 1).toNat_lt
    omega
  · rename_i hbig
    rw [toNat_ofNat (by decide)]
    omega

/-- **A number stays itself when its word is read with a sign**, up to the greatest such word. -/
theorem toInt_toInt64_ofNat (h : a ≤ Signed.max) : (UInt64.ofNat a).toInt64.toInt = a := by
  rw [UInt64.toInt64_ofNat', Int64.toInt_ofNat_of_lt (Nat.lt_of_le_of_lt h (by decide))]

/-! ## 3. Tables -/

variable {α : Type} {n : Nat}

/-- The entry of a table at an index. -/
def entry (v : Vector α n) (i : UInt64) : Except Trap α :=
  if h : i.toNat < n then .ok v[i.toNat] else .error .index

/-- The table with another entry at an index. -/
def replace (v : Vector α n) (i : UInt64) (x : α) : Except Trap (Vector α n) :=
  if h : i.toNat < n then .ok (v.set i.toNat x) else .error .index

theorem entry_ofNat {v : Vector α n} (h : a < n) (hn : n ≤ UInt64.size) :
    entry v (UInt64.ofNat a) = .ok v[a] := by
  have ha : (UInt64.ofNat a).toNat = a := toNat_ofNat (by omega)
  simp only [entry, ha, h, dite_true]

theorem replace_ofNat {v : Vector α n} (h : a < n) (hn : n ≤ UInt64.size) (x : α) :
    replace v (UInt64.ofNat a) x = .ok (v.set a x) := by
  have ha : (UInt64.ofNat a).toNat = a := toNat_ofNat (by omega)
  simp only [replace, ha, h, dite_true]

end Word

end OneBit
