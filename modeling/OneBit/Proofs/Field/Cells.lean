/-
# Cells side by side, and cells that are counted

A step of the pointer is made exactly if there is a neighbour on its side (`tryStep_eq_moved_iff`),
and it goes to a cell side by side with the one that it leaves (`adjacent_of_moved`).

All cells stand once in `Cell.all`, so the cells of a kind can be counted there.  A write changes
the number of set cells by what it does to its own cell (`count_set`); an exchange takes to the flag
what it takes from the grid, and keeps the sum (`count_exchange`).  Two grids that agree outside a
list of cells differ in no more cells than the list is long (`distance_le_length`).
-/
import OneBit.Field.Basic
import Mathlib.Data.Fintype.Prod
import Mathlib.Data.List.FinRange
import Mathlib.Data.List.Nodup

namespace OneBit

/-! ## 1. Cells side by side -/

/-- The cells lie side by side, in one row or in one column. -/
def Cell.Adjacent (c d : Cell) : Prop :=
  (c.y = d.y ∧ (c.x.val + 1 = d.x.val ∨ d.x.val + 1 = c.x.val)) ∨
    (c.x = d.x ∧ (c.y.val + 1 = d.y.val ∨ d.y.val + 1 = c.y.val))

/-- The other cell is the next one on a side of `c`.  At the edge there is none. -/
def Cell.Neighbour (c : Cell) : Direction → Cell → Prop
  | .right, e => e.x.val = c.x.val + 1 ∧ e.y = c.y
  | .left, e => e.x.val + 1 = c.x.val ∧ e.y = c.y
  | .up, e => e.x = c.x ∧ e.y.val = c.y.val + 1
  | .down, e => e.x = c.x ∧ e.y.val + 1 = c.y.val

theorem Cell.Neighbour.adjacent {c e : Cell} {d : Direction} (h : c.Neighbour d e) :
    c.Adjacent e := by
  simp only [Cell.Adjacent, Fin.ext_iff]
  cases d <;> simp only [Cell.Neighbour, Fin.ext_iff] at h <;> omega

/-- A step to a neighbour leads where the neighbour is. -/
theorem Cell.Neighbour.target_eq {c e : Cell} {d : Direction} (h : c.Neighbour d e) :
    c.target d = ((e.x.val : Int), (e.y.val : Int)) := by
  cases d <;>
    simp only [Cell.Neighbour, Cell.target, Fin.ext_iff, Prod.mk.injEq] at h ⊢ <;> omega

theorem clamp_coordinate (c : Coordinate) : clamp (c.val : Int) = c := by
  ext
  simp only [clamp]
  omega

theorem onField_coordinate (c : Coordinate) : onField (c.val : Int) = true := by
  simp only [onField, Bool.and_eq_true, decide_eq_true_eq]
  omega

namespace Field

variable {f g : Field} {d : Direction} {c : Cell}

/-- A step that is made takes the pointer to the neighbour on its side, and does nothing else. -/
theorem neighbour_of_moved (h : f.tryStep d = (.moved c, g)) :
    f.pointer.Neighbour d c ∧ g = f.setPointer c := by
  simp only [tryStep, Prod.mk.injEq] at h
  obtain ⟨hmove, hfield⟩ := h
  split at hmove
  · rename_i hon
    rw [Bool.and_eq_true] at hon
    obtain ⟨hx, hy⟩ := hon
    have hcx := clamp_val hx
    have hcy := clamp_val hy
    injection hmove with hcell
    rw [hcell] at hfield
    subst hcell
    refine ⟨?_, hfield.symm⟩
    cases d <;> simp only [Cell.Neighbour, Cell.target, Fin.ext_iff] at hcx hcy ⊢ <;> omega
  · cases hmove

/-- **A step is made** exactly if there is a neighbour on its side, and goes there. -/
theorem tryStep_eq_moved_iff :
    f.tryStep d = (.moved c, g) ↔ f.pointer.Neighbour d c ∧ g = f.setPointer c := by
  constructor
  · exact neighbour_of_moved
  · rintro ⟨h, rfl⟩
    simp only [tryStep, h.target_eq, clamp_coordinate, onField_coordinate, Bool.and_self, if_true]

/-- **A step is stopped** exactly if there is none, and then nothing changes. -/
theorem tryStep_eq_clamped_iff :
    f.tryStep d = (.clamped c, g) ↔
      (∀ e, ¬ f.pointer.Neighbour d e) ∧ c = f.pointer ∧ g = f := by
  constructor
  · intro h
    refine ⟨fun e he => ?_, tryStep_of_clamped h⟩
    rw [tryStep_eq_moved_iff.mpr ⟨he, rfl⟩] at h
    cases h
  · rintro ⟨hnone, rfl, rfl⟩
    rcases hstep : g.tryStep d with ⟨c | c, g'⟩
    · exact absurd (neighbour_of_moved hstep).1 (hnone c)
    · obtain ⟨rfl, rfl⟩ := tryStep_of_clamped hstep
      rfl

/-- **A step that is made** takes the pointer to a cell side by side with its own, and does nothing
else. -/
theorem adjacent_of_moved (h : f.tryStep d = (.moved c, g)) :
    f.pointer.Adjacent c ∧ g = f.setPointer c := by
  obtain ⟨hside, hfield⟩ := neighbour_of_moved h
  exact ⟨hside.adjacent, hfield⟩

end Field

/-! ## 2. Cells that are counted -/

namespace Cell

theorem nodup_ofRow (y : Coordinate) : (ofRow y).Nodup := by
  refine (List.nodup_finRange 16).map fun x x' h => ?_
  exact congrArg Cell.x h

/-- Each cell stands once among all cells. -/
theorem nodup_all : all.Nodup := by
  refine List.nodup_flatMap.mpr ⟨fun y _ => nodup_ofRow y, ?_⟩
  refine (List.nodup_finRange 16).imp fun {y y'} hne => ?_
  intro c hc hc'
  obtain ⟨x, -, rfl⟩ := List.mem_map.mp hc
  obtain ⟨x', -, heq⟩ := List.mem_map.mp hc'
  exact hne (congrArg Cell.y heq).symm

end Cell

namespace Grid

/-- The cells that are set, one cell apart from the others. -/
theorem count_eq (g : Grid) (c : Cell) :
    g.count = (Cell.all.erase c).countP g.get + (g.get c).toNat := by
  rw [count, (List.perm_cons_erase (Cell.mem_all c)).countP_eq, List.countP_cons]
  cases g.get c <;> rfl

/-- **A write changes the number of set cells** by what it does to its own cell. -/
theorem count_set (g : Grid) (c : Cell) (v : Bool) :
    (g.set c v).count + (g.get c).toNat = g.count + v.toNat := by
  have hothers : (Cell.all.erase c).countP (g.set c v).get = (Cell.all.erase c).countP g.get := by
    refine List.countP_congr fun d hd => ?_
    have hne : d ≠ c := (Cell.nodup_all.mem_erase_iff.mp hd).1
    rw [get_set_of_ne g v hne]
  rw [count_eq (g.set c v) c, count_eq g c, hothers, get_set_self]
  omega

/-- The cells that are set can be counted as pairs of a column and a row. -/
theorem count_eq_card (g : Grid) :
    g.count =
      (Finset.univ.filter fun p : Coordinate × Coordinate => g.get ⟨p.1, p.2⟩ = true).card := by
  rw [count, List.countP_eq_length_filter,
    ← List.toFinset_card_of_nodup (Cell.nodup_all.filter _)]
  refine Finset.card_nbij' (fun c => (c.x, c.y)) (fun p => ⟨p.1, p.2⟩) ?_ ?_ ?_ ?_
  · intro c hc
    simpa [Cell.mem_all] using hc
  · intro p hp
    simpa [Cell.mem_all] using hp
  · intro c _
    rfl
  · intro p _
    rfl

/-- In how many cells the two grids differ. -/
def distance (g h : Grid) : Nat := Cell.all.countP fun c => g.get c != h.get c

/-- **Grids that agree outside some cells** differ in no more cells than these. -/
theorem distance_le_length {g h : Grid} {cells : List Cell}
    (hcells : ∀ c ∉ cells, g.get c = h.get c) : g.distance h ≤ cells.length := by
  rw [distance, List.countP_eq_length_filter]
  refine (List.subperm_of_subset (Cell.nodup_all.filter _) ?_).length_le
  intro c hc
  by_contra hnot
  have hne := List.of_mem_filter hc
  rw [hcells c hnot] at hne
  simp at hne

end Grid

/-- An exchange keeps the number of set bits, if the flag counts as one of them. -/
theorem Field.count_exchange (f : Field) :
    f.exchange.grid.count + f.exchange.flag.toNat = f.grid.count + f.flag.toNat :=
  f.grid.count_set f.pointer f.flag

end OneBit
