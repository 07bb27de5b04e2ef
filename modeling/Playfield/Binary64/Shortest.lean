/-
  Playfield.Binary64.Shortest — the shortest decimal text of a number.

  A finite number is written with the fewest decimal digits that still round to it; of two such
  decimals of the same length the nearer one is taken, and the larger one when both are equally
  near. The decimals are tried on the grids of one digit, two digits, and so on: on each grid
  only the two neighbours of the value matter, for if any point of the grid rounds to the value
  then so does one of them. All comparisons are exact, between natural numbers.

  The text is always positional: no exponent, no point unless a fraction follows it.
-/

import Playfield.Binary64.Basic

namespace Playfield.Binary64

/-! ## Which decimals round to a number -/

/-- The real numbers that round to a given one, from `low` to `high`, counted in 2^-1076. The
ends belong to it when the number's last bit is even. -/
structure Basin where
  low : Nat
  value : Nat
  high : Nat
  closed : Bool

/-- Half the gap to each neighbour. The gap below a power of two is half the gap above it,
except where the exponent cannot fall any further. -/
def Basin.ofMagnitude (magnitude : Nat) : Basin :=
  let gap := 1 <<< (magnitude >>> 52 - 1)
  let value := 4 * units magnitude
  { low := value - (if magnitude % 1 <<< 52 = 0 ∧ 1 <<< 53 ≤ magnitude then gap else 2 * gap)
    value
    high := value + 2 * gap
    closed := magnitude % 2 == 0 }

/-- Decimals are counted in 10^-340, which leaves 17 digits for the least positive number. -/
def decimalPlaces : Nat := 340

/-- How many of these units make one. -/
def decimalScale : Nat :=
  Nat.pow 10 decimalPlaces

/-- Whether `n · 10^-340` lies in the basin. -/
def Basin.holds (b : Basin) (n : Nat) : Bool :=
  let x := n <<< 1076
  let low := b.low * decimalScale
  let high := b.high * decimalScale
  if b.closed then decide (low ≤ x) && decide (x ≤ high)
  else decide (low < x) && decide (x < high)

/-- Of the two neighbours of the basin's value on the grid of `step · 10^-340`, the nearer one
that lies in the basin, divided by the step. -/
def Basin.onGrid? (b : Basin) (step : Nat) : Option Nat :=
  let scaled := b.value * decimalScale
  let below := scaled >>> 1076 / step
  match b.holds (below * step), b.holds ((below + 1) * step) with
  | true, true =>
    some (if ((2 * below + 1) * step) <<< 1076 ≤ 2 * scaled then below + 1 else below)
  | true, false => some below
  | false, true => some (below + 1)
  | false, false => none

/-! ## Digits -/

/-- A decimal number: `digits · 10^-340 · 10^shift`. -/
structure Digits where
  digits : Nat
  shift : Nat

/-- The shortest decimal of a finite magnitude other than zero: the first grid that has one. -/
def shortest (magnitude : Nat) : Digits :=
  let basin := Basin.ofMagnitude magnitude
  let exact := (basin.value * decimalScale) >>> 1076
  let size := (Nat.toDigits 10 exact).length
  let grid (count : Nat) : Option Digits :=
    (basin.onGrid? (Nat.pow 10 (size - count))).map fun digits => { digits, shift := size - count }
  ((List.range' 1 17).findSome? grid).getD { digits := exact, shift := 0 }

/-- Digits without the zeros they end in, and how many zeros that were. -/
def trimZeros (digits : List Char) : List Char × Nat :=
  let kept := (digits.reverse.dropWhile (· == '0')).reverse
  (kept, digits.length - kept.length)

/-- Digits with `shift` zeros after them and then the last `places` of them behind the point;
the zeros a fraction ends in are not written. -/
def positional (digits : List Char) (shift places : Nat) : List Char :=
  let (digits, zeros) := trimZeros digits
  let shift := shift + zeros
  if places ≤ shift then digits ++ List.replicate (shift - places) '0'
  else
    let places := places - shift
    if places < digits.length then
      digits.take (digits.length - places) ++ '.' :: digits.drop (digits.length - places)
    else '0' :: '.' :: (List.replicate (places - digits.length) '0' ++ digits)

/-! ## Text -/

/-- The text of a number: `25`, `0.025`, `-0`, `inf`, `-inf`, `NaN`. A NaN has no sign. -/
def text (x : Binary64) : String :=
  if x.isNaN then "NaN"
  else
    let unsigned :=
      if x.magnitude = 0 then "0"
      else if x.isFinite then
        let d := shortest x.magnitude
        String.ofList (positional (Nat.toDigits 10 d.digits) d.shift decimalPlaces)
      else "inf"
    if x.negative then "-" ++ unsigned else unsigned

end Playfield.Binary64
