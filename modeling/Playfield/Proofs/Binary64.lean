/-
  Playfield.Proofs.Binary64 — quotients are rounded to the nearest double-precision number.

  A number is worth what IEEE 754 says of its sign, exponent and fraction (`value`). Its magnitude
  is a step on a scale: `units` says how many times 2^-1074 it is worth, and goes up with every
  step (`units_strictMono`). What is rounded lies between two neighbours on that scale.

  - The exponent that is taken is the one for which 53 bits are left of the quotient, so the two
    neighbours are the quotient rounded down and the step behind it (`quotient_bounds`).
  - Of these the nearer is taken, or the even one. It is then the nearest of all steps, whatever
    their exponents (`stepNear_of_between`, `stepNear_stepOf`).
  - The scale goes on behind the largest number. Infinity is the first step that is too far, and
    an even one, so it is taken from the middle of its step on: from 2^1024 - 2^970
    (`infinity_le_stepOf_iff`).

  Distances in units are distances in value (`abs_sub_size`). Together: a quotient gives a finite
  number below the limit (`isFinite_ofRatio_iff`), and then the only one of its sign that it
  rounds to (`roundsTo_iff_eq_ofRatio`).
-/

import Mathlib.Algebra.Order.Field.Basic
import Mathlib.Algebra.Order.Field.Rat
import Mathlib.Algebra.Order.Ring.Abs
import Mathlib.Data.Nat.Log
import Mathlib.Order.Monotone.Basic
import Mathlib.Tactic.Linarith
import Mathlib.Tactic.NormNum
import Mathlib.Tactic.FieldSimp
import Mathlib.Tactic.Positivity
import Mathlib.Tactic.Ring
import Playfield.Binary64.Basic

namespace Playfield.Binary64

/-! ## What a number is worth -/

/-- What a number is worth: `± 0.f · 2^-1022` with the least exponent, else
`± 1.f · 2^(e - 1023)`, where the fraction `f` has 52 bits. -/
def value (x : Binary64) : ℚ :=
  let sign : ℚ := if x.bits.toNat / 2 ^ 63 = 1 then -1 else 1
  let exponent : ℕ := x.bits.toNat / 2 ^ 52 % 2 ^ 11
  let fraction : ℚ := (x.bits.toNat % 2 ^ 52 : ℕ) / 2 ^ 52
  if exponent = 0 then sign * fraction * 2 ^ (-1022 : ℤ)
  else sign * (1 + fraction) * 2 ^ (exponent - 1023 : ℤ)

/-- The number is nearest to `v` among the finite ones. If another one is as near, the number's
last bit is zero. -/
structure RoundsTo (v : ℚ) (x : Binary64) : Prop where
  finite : x.isFinite = true
  nearest : ∀ y : Binary64, y.isFinite = true → |v - x.value| ≤ |v - y.value|
  even : ∀ y : Binary64, y.isFinite = true → y.value ≠ x.value →
    |v - y.value| = |v - x.value| → x.bits.toNat % 2 = 0

/-! ## The scale -/

/-- A step on the scale is an exponent and 53 bits; without a leading one the exponent is the
least. -/
theorem units_eq {k r : ℕ} (hr : r ≤ 2 ^ 53) (hk : k = 0 ∨ 2 ^ 52 ≤ r) :
    units (k * 2 ^ 52 + r) = r * 2 ^ k := by
  unfold units
  rw [Nat.one_shiftLeft]
  by_cases hsmall : k * 2 ^ 52 + r < 2 ^ 52
  · have hzero : k = 0 := by omega
    rw [if_pos hsmall, hzero]
    omega
  rw [if_neg hsmall, Nat.shiftLeft_eq, Nat.shiftRight_eq_div_pow]
  by_cases htop : r = 2 ^ 53
  · -- all bits were ones and one was added: the next exponent with a fraction of zero
    have hexponent : (k * 2 ^ 52 + r) / 2 ^ 52 - 1 = k + 1 := by omega
    have hfraction : (k * 2 ^ 52 + r) % 2 ^ 52 = 0 := by omega
    rw [hexponent, hfraction, htop, Nat.pow_succ 2 k]
    omega
  · have hexponent : (k * 2 ^ 52 + r) / 2 ^ 52 - 1 = k := by omega
    have hfraction : 2 ^ 52 + (k * 2 ^ 52 + r) % 2 ^ 52 = r := by omega
    rw [hexponent, hfraction]

theorem exists_step (m : ℕ) : ∃ k r, m = k * 2 ^ 52 + r ∧ r < 2 ^ 53 ∧ (k = 0 ∨ 2 ^ 52 ≤ r) := by
  by_cases hsmall : m < 2 ^ 52
  · exact ⟨0, m, by omega, by omega, .inl rfl⟩
  · exact ⟨m / 2 ^ 52 - 1, 2 ^ 52 + m % 2 ^ 52, by omega, by omega, .inr (by omega)⟩

theorem units_strictMono : StrictMono units := by
  apply strictMono_nat_of_lt_succ
  intro m
  obtain ⟨k, r, rfl, hr, hk⟩ := exists_step m
  rw [Nat.add_assoc, units_eq (by omega) hk, units_eq (by omega) (by omega)]
  exact Nat.mul_lt_mul_of_pos_right (Nat.lt_succ_self r) (Nat.two_pow_pos k)

/-! ## The nearest step -/

/-- The step of the scale is nearest to `a`. If another one is as near, the step is even. -/
structure StepNear (scale : ℕ → ℕ) (a m : ℕ) : Prop where
  nearest : ∀ m', ((a : ℤ) - scale m).natAbs ≤ ((a : ℤ) - scale m').natAbs
  even : ∀ m', m' ≠ m → ((a : ℤ) - scale m').natAbs = ((a : ℤ) - scale m).natAbs → m % 2 = 0

section

variable {scale : ℕ → ℕ} {a q m : ℕ}

/-- On a scale that goes up, the nearer of the two neighbours is the nearest step. -/
theorem stepNear_of_between (hscale : StrictMono scale) (hlo : scale q ≤ a)
    (hhi : a < scale (q + 1))
    (hm : 2 * a < scale q + scale (q + 1) ∧ m = q ∨
      scale q + scale (q + 1) < 2 * a ∧ m = q + 1 ∨
      2 * a = scale q + scale (q + 1) ∧ m = q + q % 2) : StepNear scale a m := by
  -- every other step lies outside of the two
  have houtside (m' : ℕ) : m' = q ∨ m' = q + 1 ∨ scale m' < scale q ∨ scale (q + 1) < scale m' := by
    rcases Nat.lt_trichotomy m' q with h | h | h
    · exact .inr (.inr (.inl (hscale h)))
    · exact .inl h
    · rcases Nat.eq_or_lt_of_le h with h | h
      · exact .inr (.inl h.symm)
      · exact .inr (.inr (.inr (hscale h)))
  rcases hm with ⟨hmid, rfl⟩ | ⟨hmid, rfl⟩ | ⟨hmid, rfl⟩
  · refine ⟨fun m' => ?_, fun m' hne htie => ?_⟩
    · rcases houtside m' with rfl | rfl | h | h <;> omega
    · rcases houtside m' with rfl | rfl | h | h <;> omega
  · refine ⟨fun m' => ?_, fun m' hne htie => ?_⟩
    · rcases houtside m' with rfl | rfl | h | h <;> omega
    · rcases houtside m' with rfl | rfl | h | h <;> omega
  · refine ⟨fun m' => ?_, fun m' hne htie => by omega⟩
    have heither : q + q % 2 = q ∨ q + q % 2 = q + 1 := by omega
    rcases heither with h | h <;> rw [h] <;>
      rcases houtside m' with rfl | rfl | h | h <;> omega

/-- There is one nearest step: of two even ones as near, those between them are nearer. -/
theorem StepNear.eq_of_near {m' : ℕ} (hscale : StrictMono scale) (h : StepNear scale a m)
    (hnear : ((a : ℤ) - scale m').natAbs ≤ ((a : ℤ) - scale m).natAbs)
    (heven : m' ≠ m → m' % 2 = 0) : m' = m := by
  by_contra hne
  have hm' := heven hne
  have hm := h.even m' hne (Nat.le_antisymm hnear (h.nearest m'))
  rcases Nat.lt_or_gt_of_ne hne with hlt | hlt
  · have hmiddle := h.nearest (m' + 1)
    have hbelow := hscale (show m' < m' + 1 by omega)
    have habove := hscale (show m' + 1 < m by omega)
    omega
  · have hmiddle := h.nearest (m + 1)
    have hbelow := hscale (show m < m + 1 by omega)
    have habove := hscale (show m + 1 < m' by omega)
    omega

/-- An even step, or a later one, is nearest from the middle of the way to it on. -/
theorem StepNear.le_iff (hscale : StrictMono scale) (h : StepNear scale a m) (hq : q % 2 = 1) :
    q + 1 ≤ m ↔ scale q + scale (q + 1) ≤ 2 * a := by
  have hstep := hscale (show q < q + 1 by omega)
  constructor
  · intro hle
    have hmono := hscale.monotone hle
    have hnear := h.nearest q
    omega
  · intro hmid
    by_contra hlt
    have hmono := hscale.monotone (show m ≤ q by omega)
    have hnear := h.nearest (q + 1)
    have htie : scale m = scale q := by omega
    have hmq : m = q := hscale.injective htie
    have heven := h.even (q + 1) (by omega) (by omega)
    omega

end

/-! ## Rounding a quotient -/

/-- The step that `a / den` is rounded to, on a scale without an end. -/
def stepOf (a den : ℕ) : ℕ :=
  let k := (a / den).log2 - 52
  k * 2 ^ 52 + roundDiv a (den * 2 ^ k)

theorem nearest_eq (num den : ℕ) :
    nearest num den = min (stepOf (num * 2 ^ 1074) den) infinity := by
  rw [← Nat.shiftLeft_eq]
  simp only [nearest, stepOf, Nat.shiftLeft_eq _ 52, Nat.shiftLeft_eq den]

theorem nearest_le (num den : ℕ) : nearest num den ≤ infinity := by
  rw [nearest_eq]
  exact Nat.min_le_right _ _

section

variable {a den k : ℕ}

/-- The exponent leaves 53 bits of the quotient, and no fewer unless it is the least. -/
theorem quotient_bounds (hk : (a / den).log2 - 52 = k) :
    a / (den * 2 ^ k) < 2 ^ 53 ∧ (k = 0 ∨ 2 ^ 52 ≤ a / (den * 2 ^ k)) := by
  rw [← Nat.div_div_eq_div_mul]
  generalize a / den = quotient at hk ⊢
  have hpos := Nat.two_pow_pos k
  constructor
  · rw [Nat.div_lt_iff_lt_mul hpos, ← Nat.pow_add]
    exact Nat.lt_of_lt_of_le Nat.lt_log2_self (Nat.pow_le_pow_right (by omega) (by omega))
  · by_cases hzero : k = 0
    · exact .inl hzero
    have hne : quotient ≠ 0 := by
      intro hquotient
      rw [hquotient, Nat.log2_zero] at hk
      omega
    right
    rw [Nat.le_div_iff_mul_le hpos, ← Nat.pow_add]
    exact Nat.le_trans (Nat.pow_le_pow_right (by omega) (by omega)) (Nat.log2_self_le hne)

theorem roundDiv_cases (num den : ℕ) :
    2 * (num % den) < den ∧ roundDiv num den = num / den ∨
      den < 2 * (num % den) ∧ roundDiv num den = num / den + 1 ∨
      2 * (num % den) = den ∧ roundDiv num den = num / den + num / den % 2 := by
  unfold roundDiv
  by_cases hbelow : 2 * (num % den) < den
  · exact .inl ⟨hbelow, by simp [hbelow]⟩
  by_cases habove : den < 2 * (num % den)
  · exact .inr (.inl ⟨habove, by simp [hbelow, habove]⟩)
  · exact .inr (.inr ⟨by omega, by simp [hbelow, habove]⟩)

theorem scale_strictMono (hden : 0 < den) : StrictMono fun m => units m * den := by
  intro m m' hlt
  exact Nat.mul_lt_mul_of_pos_right (units_strictMono hlt) hden

/-- A quotient is rounded to the nearest step. -/
theorem stepNear_stepOf (a : ℕ) (hden : 0 < den) :
    StepNear (fun m => units m * den) a (stepOf a den) := by
  obtain ⟨k, hk⟩ : ∃ k, (a / den).log2 - 52 = k := ⟨_, rfl⟩
  obtain ⟨hlt, hfull⟩ := quotient_bounds hk
  have hround := roundDiv_cases a (den * 2 ^ k)
  simp only [stepOf, hk]
  have hdivmod := Nat.div_add_mod a (den * 2 ^ k)
  have hmod := Nat.mod_lt a (Nat.mul_pos hden (Nat.two_pow_pos k))
  generalize hq : a / (den * 2 ^ k) = q at *
  -- in units of 2^k the two neighbours are the quotient rounded down and the next whole number
  have hlo : units (k * 2 ^ 52 + q) * den = den * 2 ^ k * q := by
    rw [units_eq (by omega) hfull]
    ring
  have hhi : units (k * 2 ^ 52 + q + 1) * den = den * 2 ^ k * q + den * 2 ^ k := by
    rw [Nat.add_assoc, units_eq (by omega) (by omega)]
    ring
  apply stepNear_of_between (q := k * 2 ^ 52 + q) (scale_strictMono hden)
  · show units (k * 2 ^ 52 + q) * den ≤ a
    omega
  · show a < units (k * 2 ^ 52 + q + 1) * den
    omega
  · simp only [hlo, hhi]
    omega

/-- The least positive number is nearer than zero to all that is not below it. -/
theorem stepOf_pos (hden : 0 < den) (h : den ≤ a) : 0 < stepOf a den := by
  have hnear := (stepNear_stepOf a hden).nearest 1
  apply Nat.pos_of_ne_zero
  intro hzero
  rw [hzero, show units 0 = 0 from rfl, show units 1 = 1 from rfl] at hnear
  omega

/-- The middle between the largest number and the step behind it, in units of 2^-1074. -/
def overflowUnits : ℕ :=
  (2 ^ 54 - 1) * 2 ^ 2044

/-- Infinity is taken from the middle of its step on. -/
theorem infinity_le_stepOf_iff (a : ℕ) (hden : 0 < den) :
    infinity ≤ stepOf a den ↔ overflowUnits * den ≤ a := by
  have hinfinity : infinity = (2044 + 1) * 2 ^ 52 + (2 ^ 53 - 1) + 1 := rfl
  have hlargest := units_eq (k := 2044 + 1) (r := 2 ^ 53 - 1) (by omega) (by omega)
  have hbehind := units_eq (k := 2044 + 1) (r := 2 ^ 53 - 1 + 1) (by omega) (by omega)
  have hle := (stepNear_stepOf a hden).le_iff (scale_strictMono hden)
    (show ((2044 + 1) * 2 ^ 52 + (2 ^ 53 - 1)) % 2 = 1 by omega)
  rw [← Nat.add_assoc] at hbehind
  rw [hinfinity, hle, hlargest, hbehind, overflowUnits, pow_succ' 2 2044]
  generalize 2 ^ 2044 = p
  have hsum : (2 ^ 53 - 1) * (2 * p) * den + (2 ^ 53 - 1 + 1) * (2 * p) * den =
      2 * ((2 ^ 54 - 1) * p * den) := by
    ring
  omega

end

/-! ## Numbers by sign and magnitude -/

section

variable {x y : Binary64} {negative : Bool} {m : ℕ}

theorem toNat_bits_ofMagnitude (negative : Bool) (h : m ≤ infinity) :
    (ofMagnitude negative m).bits.toNat = if negative then 2 ^ 63 + m else m := by
  have hlt : m < 2 ^ 63 := Nat.lt_of_le_of_lt h (by decide)
  cases negative
  · exact UInt64.toNat_ofNat_of_lt' (show m < UInt64.size by rw [UInt64.size]; omega)
  · exact UInt64.toNat_ofNat_of_lt' (show 2 ^ 63 + m < UInt64.size by rw [UInt64.size]; omega)

theorem negative_ofMagnitude (negative : Bool) (h : m ≤ infinity) :
    (ofMagnitude negative m).negative = negative := by
  have hlt : m < 2 ^ 63 := Nat.lt_of_le_of_lt h (by decide)
  rw [Binary64.negative, toNat_bits_ofMagnitude negative h, Nat.one_shiftLeft]
  cases negative
  · simpa using hlt
  · simp

theorem magnitude_ofMagnitude (negative : Bool) (h : m ≤ infinity) :
    (ofMagnitude negative m).magnitude = m := by
  have hlt : m < 2 ^ 63 := Nat.lt_of_le_of_lt h (by decide)
  rw [magnitude, toNat_bits_ofMagnitude negative h, Nat.one_shiftLeft]
  cases negative
  · exact Nat.mod_eq_of_lt hlt
  · show (2 ^ 63 + m) % 2 ^ 63 = m
    omega

/-- A number is its sign and its magnitude. -/
theorem eq_of_magnitude (hnegative : x.negative = y.negative)
    (hmagnitude : x.magnitude = y.magnitude) : x = y := by
  have hx := x.bits.toNat_lt
  have hy := y.bits.toNat_lt
  simp only [Binary64.negative, decide_eq_decide, Nat.one_shiftLeft] at hnegative
  simp only [magnitude, Nat.one_shiftLeft] at hmagnitude
  have hbits : x.bits.toNat = y.bits.toNat := by omega
  obtain ⟨b⟩ := x
  obtain ⟨b'⟩ := y
  exact congrArg Binary64.mk (UInt64.toNat_inj.1 hbits)

theorem parity_eq (x : Binary64) : x.bits.toNat % 2 = x.magnitude % 2 := by
  rw [magnitude, Nat.one_shiftLeft]
  omega

theorem isFinite_iff : x.isFinite = true ↔ x.magnitude < infinity := by
  rw [isFinite, decide_eq_true_eq]

end

/-! ## Distances -/

/-- The value on its side of zero. -/
def withSign (negative : Bool) (v : ℚ) : ℚ :=
  if negative then -v else v

section

variable {v u : ℚ}

theorem abs_withSign (negative : Bool) (hv : 0 ≤ v) : |withSign negative v| = v := by
  cases negative
  · exact abs_of_nonneg hv
  · exact (abs_neg v).trans (abs_of_nonneg hv)

theorem abs_withSign_sub (negative : Bool) (v u : ℚ) :
    |withSign negative v - withSign negative u| = |v - u| := by
  cases negative
  · rfl
  · show |(-v) - (-u)| = |v - u|
    rw [neg_sub_neg, abs_sub_comm]

theorem abs_withSign_sub_of_ne {negative negative' : Bool} (h : negative' ≠ negative) (v u : ℚ) :
    |withSign negative v - withSign negative' u| = |v + u| := by
  cases negative <;> cases negative'
  · exact absurd rfl h
  · show |v - -u| = |v + u|
    rw [sub_neg_eq_add]
  · show |(-v) - u| = |v + u|
    rw [← neg_add', abs_neg]
  · exact absurd rfl h

/-- On the other side of zero it is no nearer. -/
theorem abs_sub_le_withSign (negative negative' : Bool) (hv : 0 ≤ v) (hu : 0 ≤ u) :
    |v - u| ≤ |withSign negative v - withSign negative' u| := by
  have h := abs_abs_sub_abs_le (withSign negative v) (withSign negative' u)
  rwa [abs_withSign negative hv, abs_withSign negative' hu] at h

end

/-- What a magnitude is worth. -/
def size (m : ℕ) : ℚ :=
  units m / 2 ^ 1074

theorem size_nonneg (m : ℕ) : 0 ≤ size m :=
  div_nonneg (Nat.cast_nonneg (units m)) (pow_nonneg zero_le_two 1074)

theorem size_zero : size 0 = 0 := by
  rw [size, show units 0 = 0 from rfl, Nat.cast_zero, zero_div]

theorem size_injective : Function.Injective size := by
  intro m m' h
  have hpos : (2 : ℚ) ^ 1074 ≠ 0 := by positivity
  exact units_strictMono.injective (by exact_mod_cast (div_left_inj' hpos).1 h)

theorem size_eq {k r : ℕ} (hr : r ≤ 2 ^ 53) (hk : k = 0 ∨ 2 ^ 52 ≤ r) :
    size (k * 2 ^ 52 + r) = r / 2 ^ 52 * 2 ^ (k - 1022 : ℤ) := by
  have hsplit : (2 : ℚ) ^ 1074 = 2 ^ 52 * 2 ^ 1022 := by
    rw [← pow_add]
  have hshift (e : ℕ) : (2 : ℚ) ^ (k - e : ℤ) = 2 ^ k / 2 ^ e := by
    rw [zpow_sub₀ two_ne_zero, zpow_natCast, zpow_natCast]
  have hleast := hshift 1022
  rw [Nat.cast_ofNat] at hleast
  rw [size, units_eq hr hk, hsplit, hleast, Nat.cast_mul, Nat.cast_pow, Nat.cast_ofNat]
  exact (div_mul_div_comm _ _ _ _).symm

theorem withSign_negative (x : Binary64) (v : ℚ) :
    withSign x.negative v = (if x.bits.toNat / 2 ^ 63 = 1 then -1 else 1) * v := by
  have hlt := x.bits.toNat_lt
  have htop : x.bits.toNat / 2 ^ 63 = 1 ↔ 2 ^ 63 ≤ x.bits.toNat := by omega
  rw [Binary64.negative, Nat.one_shiftLeft, if_congr htop rfl rfl]
  by_cases h : 2 ^ 63 ≤ x.bits.toNat
  · rw [if_pos h, decide_eq_true h, neg_one_mul]
    rfl
  · rw [if_neg h, decide_eq_false h, one_mul]
    rfl

/-- A number is worth its magnitude on its side of zero. -/
theorem value_eq (x : Binary64) : x.value = withSign x.negative (size x.magnitude) := by
  have hlt := x.bits.toNat_lt
  rw [withSign_negative]
  simp only [value, magnitude, Nat.one_shiftLeft]
  generalize (if x.bits.toNat / 2 ^ 63 = 1 then -1 else 1 : ℚ) = sign
  generalize x.bits.toNat = b at hlt ⊢
  by_cases hleast : b / 2 ^ 52 % 2 ^ 11 = 0
  · have hm : b % 2 ^ 63 = 0 * 2 ^ 52 + b % 2 ^ 52 := by omega
    rw [if_pos hleast, hm, size_eq (by omega) (.inl rfl), mul_assoc]
    rfl
  · obtain ⟨k, hk⟩ := Nat.exists_eq_add_one_of_ne_zero hleast
    have hm : b % 2 ^ 63 = k * 2 ^ 52 + (2 ^ 52 + b % 2 ^ 52) := by omega
    rw [if_neg hleast, hm, size_eq (by omega) (.inr (by omega)), hk, mul_assoc]
    generalize b % 2 ^ 52 = fraction
    have hleading : ((2 ^ 52 + fraction : ℕ) : ℚ) / 2 ^ 52 = 1 + fraction / 2 ^ 52 := by
      rw [Nat.cast_add, Nat.cast_pow, Nat.cast_ofNat, add_div, div_self (by norm_num)]
    have hexponent : ((k + 1 : ℕ) - 1023 : ℤ) = k - 1022 := by omega
    rw [hleading, hexponent]

example : value ⟨0xc004000000000000⟩ = -5 / 2 := by decide +kernel

theorem magnitude_eq_of_value {x y : Binary64} (h : x.value = y.value) :
    x.magnitude = y.magnitude := by
  have habs := congrArg abs h
  rw [value_eq, value_eq, abs_withSign _ (size_nonneg _), abs_withSign _ (size_nonneg _)] at habs
  exact size_injective habs

/-- Behind a minus sign, nothing but the sign is left of zero. -/
theorem bits_eq_of_zero {x : Binary64} (h : x.value = 0) (hsign : x.negative = true) :
    x.bits = 0x8000000000000000 := by
  have hnegative : (mk 0x8000000000000000).negative = true := by decide
  have hmagnitude : (mk 0x8000000000000000).magnitude = 0 := by decide
  have hvalue : (mk 0x8000000000000000).value = 0 := by
    rw [value_eq, hnegative, hmagnitude, size_zero]
    exact neg_zero
  have hx := eq_of_magnitude (hsign.trans hnegative.symm)
    (magnitude_eq_of_value (h.trans hvalue.symm))
  rw [hx]

/-! ## Rounding with a sign -/

section

variable {num den : ℕ}

/-- Distances from a quotient are counted in the quotient's own units. -/
theorem abs_sub_size (num m : ℕ) (hden : 0 < den) :
    |(num / den : ℚ) - size m| =
      (((num * 2 ^ 1074 : ℕ) : ℤ) - (units m * den : ℕ)).natAbs / (den * 2 ^ 1074) := by
  have hd : (0 : ℚ) < den := by exact_mod_cast hden
  have hp : (0 : ℚ) < 2 ^ 1074 := by positivity
  rw [Nat.cast_natAbs, Int.cast_abs, Int.cast_sub, Int.cast_natCast, Int.cast_natCast,
    Nat.cast_mul, Nat.cast_mul, Nat.cast_pow, Nat.cast_ofNat, size]
  generalize (2 : ℚ) ^ 1074 = p at hp ⊢
  rw [div_sub_div _ _ hd.ne' hp.ne', abs_div, abs_of_pos (mul_pos hd hp), mul_comm (den : ℚ)]

theorem abs_sub_size_le_iff (num m m' : ℕ) (hden : 0 < den) :
    |(num / den : ℚ) - size m| ≤ |(num / den : ℚ) - size m'| ↔
      (((num * 2 ^ 1074 : ℕ) : ℤ) - (units m * den : ℕ)).natAbs ≤
        (((num * 2 ^ 1074 : ℕ) : ℤ) - (units m' * den : ℕ)).natAbs := by
  have hpos : (0 : ℚ) < den * 2 ^ 1074 := by positivity
  rw [abs_sub_size num m hden, abs_sub_size num m' hden, div_le_div_iff_of_pos_right hpos,
    Nat.cast_le]

theorem StepNear.abs_le {m : ℕ} (hden : 0 < den)
    (h : StepNear (fun m => units m * den) (num * 2 ^ 1074) m) (m' : ℕ) :
    |(num / den : ℚ) - size m| ≤ |(num / den : ℚ) - size m'| :=
  (abs_sub_size_le_iff num m m' hden).2 (h.nearest m')

/-- On the same side of zero, distances are those of the magnitudes. -/
theorem abs_withSign_sub_value {x : Binary64} {negative : Bool} (hx : x.negative = negative)
    (v : ℚ) : |withSign negative v - x.value| = |v - size x.magnitude| := by
  rw [value_eq, hx, abs_withSign_sub]

theorem abs_sub_size_le_value {v : ℚ} (hv : 0 ≤ v) (negative : Bool) (x : Binary64) :
    |v - size x.magnitude| ≤ |withSign negative v - x.value| := by
  rw [value_eq]
  exact abs_sub_le_withSign _ _ hv (size_nonneg _)

theorem eq_zero_of_abs_sub_eq {v u : ℚ} (h : |v - u| = |v + u|) : v = 0 ∨ u = 0 := by
  rcases abs_eq_abs.1 h with h | h
  · exact .inr (by linarith)
  · exact .inl (by linarith)

section

variable {x y : Binary64}

/-- The number of the nearest step is the nearest number, also among those of the other sign. -/
theorem RoundsTo.of_stepNear (hden : 0 < den) (hx : x.isFinite = true)
    (hstep : StepNear (fun m => units m * den) (num * 2 ^ 1074) x.magnitude) :
    RoundsTo (withSign x.negative (num / den)) x := by
  have hv : (0 : ℚ) ≤ num / den := by positivity
  refine ⟨hx, fun y hy => ?_, fun y hy hne htie => ?_⟩
  · rw [abs_withSign_sub_value rfl]
    exact (hstep.abs_le hden y.magnitude).trans (abs_sub_size_le_value hv _ y)
  rw [abs_withSign_sub_value rfl] at htie
  rw [parity_eq]
  by_cases hm : y.magnitude = x.magnitude
  · -- the same magnitude on the other side is as near only if it is zero
    have hopposite : y.negative ≠ x.negative := by
      intro hsign
      exact hne (by rw [value_eq, value_eq, hsign, hm])
    rw [value_eq, abs_withSign_sub_of_ne hopposite, hm] at htie
    have hzero : size x.magnitude = 0 := by
      rcases eq_zero_of_abs_sub_eq htie.symm with hv | hsize
      · have h := hstep.abs_le hden 0
        rw [hv, size_zero, sub_zero, abs_zero, zero_sub, abs_neg] at h
        exact abs_eq_zero.1 (le_antisymm h (abs_nonneg _))
      · exact hsize
    rw [size_injective (hzero.trans size_zero.symm)]
  · have hnear := htie ▸ abs_sub_size_le_value hv x.negative y
    exact hstep.even y.magnitude hm
      (Nat.le_antisymm ((abs_sub_size_le_iff num _ _ hden).1 hnear) (hstep.nearest _))

/-- No other number of its sign is as near, or as even. -/
theorem RoundsTo.eq_of_stepNear (hden : 0 < den) (hx : x.isFinite = true)
    (hstep : StepNear (fun m => units m * den) (num * 2 ^ 1074) x.magnitude)
    (hy : RoundsTo (withSign x.negative (num / den)) y) (hsign : y.negative = x.negative) :
    y = x := by
  have hnear := hy.nearest x hx
  rw [abs_withSign_sub_value hsign, abs_withSign_sub_value rfl] at hnear
  refine eq_of_magnitude hsign ?_
  apply hstep.eq_of_near (scale_strictMono hden) ((abs_sub_size_le_iff num _ _ hden).1 hnear)
  intro hne
  rw [← parity_eq]
  apply hy.even x hx
  · intro hvalue
    exact hne (magnitude_eq_of_value hvalue.symm)
  · rw [abs_withSign_sub_value hsign, abs_withSign_sub_value rfl]
    exact le_antisymm (hstep.abs_le hden _) hnear

end

/-- A quotient overflows from the middle of the step behind the largest number on. -/
theorem infinity_le_iff (num : ℕ) (hden : 0 < den) :
    infinity ≤ stepOf (num * 2 ^ 1074) den ↔ (2 ^ 1024 - 2 ^ 970 : ℚ) ≤ num / den := by
  have hd : (0 : ℚ) < den := by exact_mod_cast hden
  have hp : (0 : ℚ) < 2 ^ 1074 := by positivity
  have hlimit : (overflowUnits : ℚ) = (2 ^ 1024 - 2 ^ 970) * 2 ^ 1074 := by
    have hhigh : (2 : ℚ) ^ 1024 = 2 ^ 54 * 2 ^ 970 := by
      rw [← pow_add]
    have hunits : (2 : ℚ) ^ 2044 = 2 ^ 970 * 2 ^ 1074 := by
      rw [← pow_add]
    rw [overflowUnits, Nat.cast_mul, Nat.cast_pow, Nat.cast_ofNat, hunits, hhigh,
      Nat.cast_sub (by omega), Nat.cast_pow, Nat.cast_ofNat, Nat.cast_one]
    generalize (2 : ℚ) ^ 970 = p
    generalize (2 : ℚ) ^ 1074 = p'
    ring
  rw [infinity_le_stepOf_iff _ hden, le_div_iff₀ hd, ← Nat.cast_le (α := ℚ), Nat.cast_mul,
    Nat.cast_mul, Nat.cast_pow, Nat.cast_ofNat, hlimit, mul_right_comm,
    mul_le_mul_iff_of_pos_right hp]

theorem nearest_of_lt (h : (num / den : ℚ) < 2 ^ 1024 - 2 ^ 970) (hden : 0 < den) :
    nearest num den = stepOf (num * 2 ^ 1074) den := by
  have hlt := Nat.lt_of_not_le (mt (infinity_le_iff num hden).1 (not_le_of_gt h))
  rw [nearest_eq, Nat.min_eq_left (Nat.le_of_lt hlt)]

theorem isFinite_ofRatio_iff (negative : Bool) (num : ℕ) (hden : 0 < den) :
    (ofRatio negative num den).isFinite = true ↔ (num / den : ℚ) < 2 ^ 1024 - 2 ^ 970 := by
  rw [isFinite_iff, ofRatio, magnitude_ofMagnitude negative (nearest_le num den), ← not_le,
    ← not_le, ← infinity_le_iff num hden, nearest_eq, le_min_iff, and_iff_left (le_refl infinity)]

/-- Below the limit, a quotient is rounded to the nearest number of its sign, and to the even one
of two. There is no other such number. -/
theorem roundsTo_iff_eq_ofRatio (negative : Bool) (hden : 0 < den)
    (h : (num / den : ℚ) < 2 ^ 1024 - 2 ^ 970) (y : Binary64) :
    RoundsTo (withSign negative (num / den)) y ∧ y.negative = negative ↔
      y = ofRatio negative num den := by
  obtain ⟨x, hx⟩ : ∃ x, ofRatio negative num den = x := ⟨_, rfl⟩
  have hfinite := (isFinite_ofRatio_iff negative num hden).2 h
  have hsign := negative_ofMagnitude negative (nearest_le num den)
  have hmagnitude := magnitude_ofMagnitude negative (nearest_le num den)
  have hstep := stepNear_stepOf (num * 2 ^ 1074) hden
  rw [← nearest_of_lt h hden, ← hmagnitude] at hstep
  rw [← ofRatio, hx] at hsign hmagnitude hstep
  rw [hx] at hfinite ⊢
  rw [← hsign]
  constructor
  · intro h
    obtain ⟨hy, hysign⟩ := h
    exact hy.eq_of_stepNear hden hfinite hstep hysign
  · intro hyx
    rw [hyx]
    exact ⟨.of_stepNear hden hfinite hstep, rfl⟩

end

end Playfield.Binary64
