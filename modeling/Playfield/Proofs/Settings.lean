/-
  Playfield.Proofs.Settings — every frame rate gives a time step that is finite and positive.

  A frame rate is a whole number that 32 bits hold, so its reciprocal lies between 2^-32 and 1,
  far from both ends of the double-precision range.
-/

import Playfield.Proofs.Binary64
import Playfield.Settings

namespace Playfield

namespace Binary64

/-! ## Reciprocals -/

section

variable {n : Nat}

theorem nearest_one_lt (hpos : 0 < n) : nearest 1 n < infinity := by
  have hsmall : 2 ^ 1074 < overflowUnits * n := by
    have hpow : 2 ^ 1074 < 2 ^ 2044 := by
      apply Nat.pow_lt_pow_right <;> omega
    have hle : 2 ^ 2044 ≤ overflowUnits := Nat.le_mul_of_pos_left _ (by omega)
    exact Nat.lt_of_lt_of_le hpow (Nat.le_trans hle (Nat.le_mul_of_pos_right _ hpos))
  have hstep := mt (infinity_le_stepOf_iff _ hpos).1 (Nat.not_le.2 hsmall)
  rw [nearest_eq, Nat.one_mul]
  exact Nat.lt_of_le_of_lt (Nat.min_le_left _ _) (Nat.lt_of_not_le hstep)

theorem nearest_one_pos (hpos : 0 < n) (hlt : n < 2 ^ 32) : 0 < nearest 1 n := by
  have hle : n ≤ 2 ^ 1074 := by
    apply Nat.le_of_lt
    apply Nat.lt_of_lt_of_le hlt
    apply Nat.pow_le_pow_right <;> omega
  rw [nearest_eq, Nat.one_mul, Nat.lt_min]
  exact ⟨stepOf_pos hpos hle, by decide⟩

end

theorem isFinite_ofMagnitude {m : Nat} (h : m < infinity) :
    (ofMagnitude false m).isFinite = true := by
  rw [isFinite_iff, magnitude_ofMagnitude false (Nat.le_of_lt h)]
  exact h

theorem isPositive_ofMagnitude {m : Nat} (hpos : 0 < m) (h : m < infinity) :
    (ofMagnitude false m).isPositive = true := by
  have hle := Nat.le_of_lt h
  rw [isPositive, negative_ofMagnitude false hle, isNaN, magnitude_ofMagnitude false hle,
    decide_eq_false (Nat.not_lt.2 hle), decide_eq_true hpos]
  rfl

end Binary64

/-! ## The time step -/

namespace Settings

theorem timeStep_isFinite (s : Settings) : s.timeStep.isFinite = true :=
  Binary64.isFinite_ofMagnitude (Binary64.nearest_one_lt s.frameRate_pos)

theorem timeStep_isPositive (s : Settings) : s.timeStep.isPositive = true :=
  Binary64.isPositive_ofMagnitude
    (Binary64.nearest_one_pos s.frameRate_pos s.frameRate.toNat_lt)
    (Binary64.nearest_one_lt s.frameRate_pos)

end Settings

end Playfield
