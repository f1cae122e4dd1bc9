/-
# How many fields there are

A field is a grid of 256 bits, a flag and one of 256 places for the pointer, so there are
`fieldCount` of them, which is two to the 265th (`card_field`).  That there are finitely many at
all is what makes a run without a limit either end or come round in a circle.
-/
import OneBit.Machine.Run
import Mathlib.Data.BitVec
import Mathlib.Data.Fintype.Prod

namespace OneBit

namespace Field

/-- A field, as the word of its grid, its flag, and the column and the row of its pointer. -/
def equivParts : Field ≃ Fin (2 ^ 256) × Bool × Coordinate × Coordinate where
  toFun f := (BitVec.equivFin f.grid.bits, f.flag, f.pointer.x, f.pointer.y)
  invFun p := ⟨⟨BitVec.equivFin.symm p.1⟩, p.2.1, ⟨p.2.2.1, p.2.2.2⟩⟩
  left_inv f := by simp
  right_inv p := by simp

instance : Fintype Field := Fintype.ofEquiv _ equivParts.symm

/-- **The number of fields.** -/
theorem card_field : Fintype.card Field = fieldCount := by
  rw [Fintype.card_congr equivParts, Fintype.card_prod, Fintype.card_prod, Fintype.card_prod,
    Fintype.card_fin, Fintype.card_bool, Fintype.card_fin, fieldCount, Nat.pow_eq, Nat.mul_assoc]

end Field

theorem fieldCount_pos : 0 < fieldCount := by
  rw [← Field.card_field]
  exact Fintype.card_pos_iff.mpr ⟨Field.cleared⟩

/-- The number of fields as one power of two. -/
theorem fieldCount_eq : fieldCount = 2 ^ 265 := by
  calc fieldCount
      = 2 ^ 256 * 2 ^ 9 := by
        rw [fieldCount, Nat.pow_eq, Nat.mul_assoc, show 2 * 256 = 2 ^ 9 from rfl]
    _ = 2 ^ 265 := (pow_add 2 256 9).symm

end OneBit
