/-
  Playfield.Text.Numeral — decimal numerals: a sign, digits, and perhaps a point.

  A numeral is kept as the whole number its digits spell and the count of digits behind the
  point, so its value is exact at any length. Rounding it, or fitting it into a machine word,
  is left to whoever reads a field.
-/

namespace Playfield.Text

/-- The number `± digits / 10^places`. -/
structure Numeral where
  negative : Bool
  digits : Nat
  places : Nat
  deriving DecidableEq, Repr

def digitValue (c : Char) : Nat :=
  c.toNat - '0'.toNat

/-- The number that a run of decimal digits spells. -/
def digitsValue (cs : List Char) : Nat :=
  cs.foldl (fun n c => 10 * n + digitValue c) 0

/-- Splits off a leading minus sign. -/
def splitSign : List Char → Bool × List Char
  | '-' :: cs => (true, cs)
  | cs => (false, cs)

/-- Reads `-?[0-9]+` as a whole number. -/
def readInteger? (cs : List Char) : Option Int :=
  let (negative, digits) := splitSign cs
  if digits.isEmpty || !digits.all Char.isDigit then none
  else
    let n : Int := digitsValue digits
    some (if negative then -n else n)

/-- Reads `-?([0-9]+(\.[0-9]*)?|\.[0-9]+)`. -/
def readNumeral? (cs : List Char) : Option Numeral :=
  let (negative, body) := splitSign cs
  let whole := body.takeWhile Char.isDigit
  let fraction? : Option (List Char) :=
    match body.dropWhile Char.isDigit with
    | [] => some []
    | '.' :: fraction => if fraction.all Char.isDigit then some fraction else none
    | _ => none
  match fraction? with
  | none => none
  | some fraction =>
    if whole.isEmpty && fraction.isEmpty then none
    else some { negative, digits := digitsValue (whole ++ fraction), places := fraction.length }

end Playfield.Text
