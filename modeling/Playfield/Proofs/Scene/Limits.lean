/-
  Playfield.Proofs.Scene.Limits — fields decode exactly, up to the limits of their types.

  A field's number has any length when it stands in a text: the scanner takes as many digits as
  there are. What it is worth is a whole number or a rational one (`integerValue`,
  `decimalValue`), and the decoder either gives that or says that its type does not hold it.

  - An integer fits into 32 bits or is too large or too small; an orientation and a size are
    integers with less room (`integers_decode_exactly`).
  - Any other number is rounded to the nearest finite one, unless it lies so far out that the
    nearest would be one step behind the largest: from 2^1024 - 2^970 on
    (`numbers_decode_exactly`).

  Neither decoder ever finds a character that it cannot read: a number of a text is a word of the
  class that the decoder reads (`Literal.Scanned.mem`).
-/

import Playfield.Proofs.Binary64
import Playfield.Proofs.Scene.Worth
import Playfield.Proofs.Source.Numeral

namespace Playfield.Decode

open Source (Literal)
open Text (integerValue decimalValue)

variable {l : Literal}

/-! ## Integers -/

/-- An integer of a text is the value of its digits on one side of zero. -/
theorem exists_digits_of_scanned (hl : l.Scanned) (hk : l.kind = .integer) :
    ∃ negative ds, Text.splitSign l.text.toList = (negative, ds) ∧ ds ≠ [] ∧
      (∀ c ∈ ds, c.isDigit = true) ∧
      integerValue l.text.toList = signed negative (Text.digitsValue ds) := by
  have hname : l.kind ≠ .name := by
    rw [hk]
    decide
  exact Source.exists_digits_of_mem_integerClass ((hl.mem hname).2 hk)

theorem worth_integer_iff (hl : l.Scanned) (hk : l.kind = .integer) {i : Int32} :
    Worth.Integer l i ↔ i.toInt = integerValue l.text.toList := by
  obtain ⟨negative, ds, htext, hne, hds, hvalue⟩ := exists_digits_of_scanned hl hk
  rw [Worth.Integer, readInteger?_of_digits htext hne hds, Option.some.injEq, hvalue, eq_comm]

/-- An integer is read, or too large, or too small. -/
theorem integer_of_scanned (hl : l.Scanned) (hk : l.kind = .integer) (field : String) :
    (∃ i : Int32, i.toInt = integerValue l.text.toList ∧ integer l field = .ok i) ∨
      2 ^ 31 - 1 < integerValue l.text.toList ∧
        integer l field = .error (rejected l field (.tooLarge l.text)) ∨
      integerValue l.text.toList < -2 ^ 31 ∧
        integer l field = .error (rejected l field (.tooSmall l.text)) := by
  obtain ⟨negative, ds, htext, hne, hds, hvalue⟩ := exists_digits_of_scanned hl hk
  have hread := integer?_of_digits htext hne hds
  rw [← hvalue] at hread
  rw [integer, hread]
  cases hfits : fitting? (integerValue l.text.toList) with
  | some i => exact .inl ⟨i, fitting?_eq_some_iff.1 hfits, rfl⟩
  | none =>
    rw [fitting?_eq_none_iff] at hfits
    cases negative
    · rw [signed_false] at hvalue
      exact .inr (.inl ⟨by omega, rfl⟩)
    · rw [signed_true] at hvalue
      exact .inr (.inr ⟨by omega, rfl⟩)

theorem exists_int32_iff {n : Int} : (∃ i : Int32, i.toInt = n) ↔ -2 ^ 31 ≤ n ∧ n ≤ 2 ^ 31 - 1 := by
  constructor
  · intro h
    obtain ⟨i, rfl⟩ := h
    have hlo := i.le_toInt
    have hhi := i.toInt_lt
    omega
  · intro h
    exact ⟨.ofInt n, Int32.toInt_ofInt_of_le (by omega) (by omega)⟩

/-- Each side of zero has its own message, and no integer of a text has the third one. -/
theorem integer_error_iff (hl : l.Scanned) (hk : l.kind = .integer) (field : String) :
    (integer l field = .error (rejected l field (.tooLarge l.text)) ↔
        2 ^ 31 - 1 < integerValue l.text.toList) ∧
      (integer l field = .error (rejected l field (.tooSmall l.text)) ↔
        integerValue l.text.toList < -2 ^ 31) ∧
      integer l field ≠ .error (rejected l field (.notAnInteger l.text)) := by
  rcases integer_of_scanned hl hk field with ⟨i, hi, h⟩ | ⟨hlarge, h⟩ | ⟨hsmall, h⟩
  · have hlo := i.le_toInt
    have hhi := i.toInt_lt
    rw [h]
    exact ⟨iff_of_false nofun (by omega), iff_of_false nofun (by omega), nofun⟩
  · rw [h]
    refine ⟨iff_of_true rfl hlarge, iff_of_false ?_ (by omega), ?_⟩ <;>
      simp [rejected, Rejection.message]
  · rw [h]
    refine ⟨iff_of_false ?_ (by omega), iff_of_true rfl hsmall, ?_⟩ <;>
      simp [rejected, Rejection.message]

theorem dimension_of_scanned (hl : l.Scanned) (hk : l.kind = .integer) (field : String)
    (size : UInt32) :
    dimension l field = .ok size ↔
      1 ≤ integerValue l.text.toList ∧ integerValue l.text.toList ≤ 2 ^ 31 - 1 ∧
        (size.toNat : Int) = integerValue l.text.toList := by
  simp only [dimension_eq_ok_iff, Worth.Size, worth_integer_iff hl hk]
  constructor
  · intro h
    obtain ⟨i, hi, hpos, hsize⟩ := h
    have hhi := i.toInt_lt
    omega
  · intro h
    obtain ⟨hpos, hhi, hsize⟩ := h
    obtain ⟨i, hi⟩ := exists_int32_iff.2 ⟨by omega, hhi⟩
    exact ⟨i, hi, by omega, by omega⟩

theorem orientation_of_scanned (hl : l.Scanned) (hk : l.kind = .integer) (o : Orientation) :
    orientation (some l) = .ok o ↔ (o.degrees : Int) = integerValue l.text.toList := by
  rw [orientation_eq_ok_iff]
  constructor
  · intro h
    cases h with
    | given hi ho => rw [← ho, (worth_integer_iff hl hk).1 hi]
  · intro ho
    obtain ⟨i, hi⟩ := exists_int32_iff.2
      (show -2 ^ 31 ≤ (o.degrees : Int) ∧ (o.degrees : Int) ≤ 2 ^ 31 - 1 by cases o <;> decide)
    exact .given ((worth_integer_iff hl hk).2 (hi.trans ho)) hi

theorem exists_degrees_iff {n : Int} :
    (∃ o : Orientation, (o.degrees : Int) = n) ↔ n = 0 ∨ n = 90 ∨ n = 180 ∨ n = 270 := by
  constructor
  · intro h
    obtain ⟨o, rfl⟩ := h
    cases o <;> decide
  · intro h
    rcases h with rfl | rfl | rfl | rfl
    · exact ⟨.deg0, rfl⟩
    · exact ⟨.deg90, rfl⟩
    · exact ⟨.deg180, rfl⟩
    · exact ⟨.deg270, rfl⟩

/-- An integer of a text, of any length, is read as what it is worth just when 32 bits hold that.
Otherwise the message says on which side it lies, and never that a character is no digit. A size
is such an integer from one on, an orientation one of four. -/
theorem integers_decode_exactly (hl : l.Scanned) (hk : l.kind = .integer) (field : String) :
    let n := integerValue l.text.toList
    ((∃ i, integer l field = .ok i) ↔ -2 ^ 31 ≤ n ∧ n ≤ 2 ^ 31 - 1) ∧
      (∀ i, integer l field = .ok i → i.toInt = n) ∧
      (integer l field = .error (.badField field ("'" ++ l.text ++
        "' is not a valid integer: number too large to fit in target type") l.line) ↔
          2 ^ 31 - 1 < n) ∧
      (integer l field = .error (.badField field ("'" ++ l.text ++
        "' is not a valid integer: number too small to fit in target type") l.line) ↔
          n < -2 ^ 31) ∧
      integer l field ≠ .error (.badField field ("'" ++ l.text ++
        "' is not a valid integer: invalid digit found in string") l.line) ∧
      ((∃ size, dimension l field = .ok size) ↔ 1 ≤ n ∧ n ≤ 2 ^ 31 - 1) ∧
      (∀ size, dimension l field = .ok size → (size.toNat : Int) = n) ∧
      ((∃ o, orientation (some l) = .ok o) ↔ n = 0 ∨ n = 90 ∨ n = 180 ∨ n = 270) ∧
      (∀ o, orientation (some l) = .ok o → (o.degrees : Int) = n) := by
  intro n
  have hsize := dimension_of_scanned hl hk field
  have hangle := orientation_of_scanned hl hk
  obtain ⟨hlarge, hsmall, hdigits⟩ := integer_error_iff hl hk field
  refine ⟨?_, fun i hi => (worth_integer_iff hl hk).1 (integer_eq_ok_iff.1 hi), hlarge, hsmall,
    hdigits, ?_, fun size hs => ((hsize size).1 hs).2.2, ?_, fun o ho => (hangle o).1 ho⟩
  · simp only [integer_eq_ok_iff, worth_integer_iff hl hk]
    exact exists_int32_iff
  · simp only [hsize]
    constructor
    · intro h
      obtain ⟨size, hpos, hhi, -⟩ := h
      exact ⟨hpos, hhi⟩
    · intro h
      obtain ⟨hpos, hhi⟩ := h
      have hnat : (n.toNat : Int) = n := Int.toNat_of_nonneg (by omega)
      refine ⟨.ofNat n.toNat, hpos, hhi, ?_⟩
      rw [UInt32.toNat_ofNat_of_lt' (by rw [UInt32.size]; omega)]
      exact hnat
  · simp only [hangle]
    exact exists_degrees_iff

/-- Zeros in front of the least integer leave it in range. -/
theorem least_integer_decodes :
    let l : Literal := ⟨.integer, "-0002147483648", ⟨0, 14, 1, 1⟩⟩
    l.Scanned ∧ l.kind = .integer ∧ ∃ i, integer l "x" = .ok i ∧ i.toInt = -2 ^ 31 := by
  intro l
  have hl : l.Scanned := ⟨"-0002147483648", by decide +kernel⟩
  have hvalue : integerValue l.text.toList = -2 ^ 31 := by decide +kernel
  obtain ⟨hrange, hexact, -⟩ := integers_decode_exactly hl rfl "x"
  rw [hvalue] at hrange hexact
  obtain ⟨i, hi⟩ := hrange.2 (by omega)
  exact ⟨hl, rfl, i, hi, hexact i hi⟩

/-! ## Numbers -/

/-- A number of a text is its value on its side of zero, rounded as a quotient. -/
theorem exists_quotient_of_scanned (hl : l.Scanned) (hk : l.kind ≠ .name) :
    ∃ n : Text.Numeral, Text.readNumeral? l.text.toList = some n ∧
      (n.negative = true ↔ l.text.toList.head? = some '-') ∧
      decimalValue l.text.toList =
        Binary64.withSign n.negative (n.digits / (Nat.pow 10 n.places : ℕ)) := by
  obtain ⟨n, hn, hvalue, hnegative⟩ :=
    Source.exists_numeral_of_mem_numberClass (hl.mem hk).1
  refine ⟨n, hn, hnegative, ?_⟩
  rw [← hvalue, Text.Numeral.value, Binary64.withSign, Nat.pow_eq, Nat.cast_pow, Nat.cast_ofNat]

/-- A number is out of range, or the only one of its sign that its value rounds to. -/
theorem number_of_scanned (hl : l.Scanned) (hk : l.kind ≠ .name) (field : String) :
    2 ^ 1024 - 2 ^ 970 ≤ |decimalValue l.text.toList| ∧
        number l field = .error (rejected l field (.outOfRange l.text)) ∨
      |decimalValue l.text.toList| < 2 ^ 1024 - 2 ^ 970 ∧ ∃ x, number l field = .ok x ∧
        ∀ y : Binary64, (y.RoundsTo (decimalValue l.text.toList) ∧
          (y.negative = true ↔ l.text.toList.head? = some '-')) ↔ y = x := by
  obtain ⟨n, hn, hnegative, hvalue⟩ := exists_quotient_of_scanned hl hk
  have hden : 0 < Nat.pow 10 n.places := Nat.pow_pos (by omega)
  have hfinite := Binary64.isFinite_ofRatio_iff n.negative n.digits hden
  have hread : number? l.text =
      if (Binary64.ofRatio n.negative n.digits (Nat.pow 10 n.places)).isFinite = true then
        .ok (.ofRatio n.negative n.digits (Nat.pow 10 n.places))
      else .error (.outOfRange l.text) := by
    simp only [number?, hn]
  rw [hvalue, ← hnegative, number, hread]
  generalize Nat.pow 10 n.places = den at *
  rw [Binary64.abs_withSign n.negative (by positivity)]
  by_cases hlt : (n.digits / den : ℚ) < 2 ^ 1024 - 2 ^ 970
  · rw [if_pos (hfinite.2 hlt)]
    refine .inr ⟨hlt, _, rfl, fun y => ?_⟩
    rw [← Binary64.roundsTo_iff_eq_ofRatio n.negative hden hlt, ← Bool.eq_iff_iff]
  · rw [if_neg (mt hfinite.1 hlt)]
    exact .inl ⟨not_lt.1 hlt, rfl⟩

/-- A number of a text, of any length, is out of range just when it lies at 2^1024 - 2^970 or
farther out. Otherwise it is rounded to the nearest number, with an even last bit if two are as
near, and it keeps the sign that it is written with, also when nothing else is left of it. -/
theorem numbers_decode_exactly (hl : l.Scanned) (hk : l.kind ≠ .name) (field : String) :
    let v := decimalValue l.text.toList
    number l field ≠ .error (.badField field ("'" ++ l.text ++
        "' is not a valid number: invalid float literal") l.line) ∧
      (number l field = .error (.badField field ("'" ++ l.text ++ "' is out of range") l.line) ↔
        2 ^ 1024 - 2 ^ 970 ≤ |v|) ∧
      (|v| < 2 ^ 1024 - 2 ^ 970 → ∃ x, number l field = .ok x ∧ x.RoundsTo v ∧
        (x.negative = true ↔ l.text.toList.head? = some '-') ∧
        ∀ y : Binary64, y.RoundsTo v → y.negative = x.negative → y = x) ∧
      (∀ x, number l field = .ok x → x.value = 0 → l.text.toList.head? = some '-' →
        x.bits = 0x8000000000000000) := by
  intro v
  rcases number_of_scanned hl hk field with ⟨hfar, h⟩ | ⟨hnear, x, h, hx⟩
  · rw [h]
    refine ⟨?_, iff_of_true rfl hfar, fun hnear => absurd hfar (not_le.2 hnear), nofun⟩
    simp [rejected, Rejection.message]
  · obtain ⟨hrounds, hsign⟩ := (hx x).2 rfl
    rw [h]
    refine ⟨nofun, iff_of_false nofun (not_le.2 hnear), fun _ => ⟨x, rfl, hrounds, hsign, ?_⟩, ?_⟩
    · intro y hy hysign
      exact (hx y).1 ⟨hy, by rw [hysign, hsign]⟩
    · intro y hy hzero hminus
      cases hy
      exact Binary64.bits_eq_of_zero hzero (hsign.2 hminus)

/-- A zero behind a minus sign keeps the sign. -/
theorem negative_zero_decodes :
    let l : Literal := ⟨.decimal, "-0.00", ⟨0, 5, 1, 1⟩⟩
    l.Scanned ∧ l.kind ≠ .name ∧
      ∃ x, number l "gravity" = .ok x ∧ x.RoundsTo 0 ∧ x.negative = true := by
  intro l
  have hl : l.Scanned := ⟨"-0.00", by decide +kernel⟩
  have hvalue : decimalValue l.text.toList = 0 := by decide +kernel
  obtain ⟨-, -, hround, -⟩ := numbers_decode_exactly hl nofun "gravity"
  rw [hvalue, abs_zero] at hround
  obtain ⟨x, hx, hrounds, hsign, -⟩ := hround (sub_pos.2 (pow_lt_pow_right₀ one_lt_two (by omega)))
  exact ⟨hl, nofun, x, hx, hrounds, hsign.2 (by decide)⟩

end Playfield.Decode
