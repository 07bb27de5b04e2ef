/-
  Playfield.Binary64.Basic — double-precision numbers as their 64 bits.

  A board's gravity, friction, positions and velocities are IEEE 754 binary64 numbers. They are
  kept as bit patterns, so that equality of two values is equality of their bits and everything
  about them is a statement about natural numbers. The magnitude (all bits but the sign) orders
  the non-negative numbers, and `units` reads it as a multiple of 2^-1074, the least positive
  number; `ofRatio` goes the other way and rounds a quotient to the nearest number, a half
  going to the even neighbour.
-/

namespace Playfield

/-- A double-precision number. Two of them are the same value when their bits agree, so `-0`
is not `0` and a NaN is itself; `Binary64.equals` is the comparison of the arithmetic. -/
structure Binary64 where
  bits : UInt64
  deriving DecidableEq, Repr

namespace Binary64

/-- Whether the sign bit is set. -/
def negative (x : Binary64) : Bool :=
  decide (1 <<< 63 ≤ x.bits.toNat)

/-- All bits below the sign. -/
def magnitude (x : Binary64) : Nat :=
  x.bits.toNat % 1 <<< 63

/-- The magnitude of infinity; every larger one is a NaN. -/
def infinity : Nat :=
  0x7ff <<< 52

/-- The number with the given sign and magnitude. -/
def ofMagnitude (negative : Bool) (magnitude : Nat) : Binary64 :=
  ⟨UInt64.ofNat (if negative then 1 <<< 63 + magnitude else magnitude)⟩

def isFinite (x : Binary64) : Bool :=
  decide (x.magnitude < infinity)

def isNaN (x : Binary64) : Bool :=
  decide (infinity < x.magnitude)

/-- Whether `0 < x`. -/
def isPositive (x : Binary64) : Bool :=
  !x.negative && !x.isNaN && decide (0 < x.magnitude)

/-- Equality of the arithmetic: the two zeros are equal, and a NaN equals nothing. -/
def equals (x y : Binary64) : Bool :=
  !x.isNaN && !y.isNaN && (x == y || (x.magnitude == 0 && y.magnitude == 0))

/-! ## Exact values -/

/-- The value of a finite magnitude, counted in units of 2^-1074. Below 2^52 the magnitude is
that count; above, its low 52 bits follow a leading one and the rest is the exponent. -/
def units (magnitude : Nat) : Nat :=
  if magnitude < 1 <<< 52 then magnitude
  else (1 <<< 52 + magnitude % 1 <<< 52) <<< (magnitude >>> 52 - 1)

/-- `num / den` to the nearest whole number, a half going to the even neighbour. -/
def roundDiv (num den : Nat) : Nat :=
  let quotient := num / den
  let twice := 2 * (num % den)
  if twice < den then quotient
  else if den < twice then quotient + 1
  else quotient + quotient % 2

/-- The magnitude nearest to `num / den`, infinity when that is too large. The quotient is
counted in units of 2^-1074 and then in 2^k of them, for the least `k` that leaves 53 bits. -/
def nearest (num den : Nat) : Nat :=
  let scaled := num <<< 1074
  let k := (scaled / den).log2 - 52
  min (k <<< 52 + roundDiv scaled (den <<< k)) infinity

/-- The number nearest to `num / den`, with the given sign. -/
def ofRatio (negative : Bool) (num den : Nat) : Binary64 :=
  ofMagnitude negative (nearest num den)

/-- The number nearest to a whole number. -/
def ofInt (n : Int) : Binary64 :=
  ofRatio (decide (n < 0)) n.natAbs 1

/-- The number that a single-precision bit pattern stands for. Every finite one is exact. -/
def ofBinary32 (bits : UInt32) : Binary64 :=
  let negative := decide (1 <<< 31 ≤ bits.toNat)
  let exponent := bits.toNat >>> 23 % 1 <<< 8
  let fraction := bits.toNat % 1 <<< 23
  if exponent = 0 then ofRatio negative fraction (1 <<< 149)
  else if exponent < 255 then
    ofRatio negative ((1 <<< 23 + fraction) <<< (exponent - 1)) (1 <<< 149)
  else ofMagnitude negative (infinity + fraction <<< 29)

end Binary64

end Playfield
