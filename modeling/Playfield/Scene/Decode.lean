/-
  Playfield.Scene.Decode — what the literals of a declaration are worth.

  The grammar settles the class of a literal and nothing else. Coordinates and sizes are 32-bit
  signed integers, an orientation is one of four of them, and every other number is the nearest
  double-precision one, which has to be finite.
-/

import Playfield.Fault
import Playfield.Source.Line
import Playfield.Text.Numeral
import Playfield.Binary64.Basic
import Playfield.Scene.Gadget

namespace Playfield.Decode

open Source (Literal)

/-- Why a field does not take the value that its literal spells. -/
inductive Rejection where
  | notAnInteger (text : String)
  | tooLarge (text : String)
  | tooSmall (text : String)
  | notANumber (text : String)
  | outOfRange (text : String)
  | notRightAngle (degrees : Int)
  | belowOne (size : Int)
  deriving DecidableEq, Repr

def Rejection.message : Rejection → String
  | .notAnInteger text => "'" ++ text ++ "' is not a valid integer: invalid digit found in string"
  | .tooLarge text =>
    "'" ++ text ++ "' is not a valid integer: number too large to fit in target type"
  | .tooSmall text =>
    "'" ++ text ++ "' is not a valid integer: number too small to fit in target type"
  | .notANumber text => "'" ++ text ++ "' is not a valid number: invalid float literal"
  | .outOfRange text => "'" ++ text ++ "' is out of range"
  | .notRightAngle degrees => toString degrees ++ " is not one of 0, 90, 180, 270"
  | .belowOne size => toString size ++ " must be at least 1"

/-- The fault of a field whose literal is rejected. -/
def rejected (literal : Literal) (field : String) (why : Rejection) : Fault :=
  .badField field why.message literal.line

/-- A whole number, if 32 bits hold it. -/
def fitting? (n : Int) : Option Int32 :=
  if -0x80000000 ≤ n ∧ n < 0x80000000 then some (Int32.ofInt n) else none

/-- The integer with one more digit behind it. Behind a minus sign the digits count down, so that
the least integer is reached, whose opposite 32 bits do not hold. -/
def appendDigit? (negative : Bool) (n : Int32) (digit : Nat) : Option Int32 := do
  let shifted ← fitting? (10 * n.toInt)
  fitting? (if negative then shifted.toInt - digit else shifted.toInt + digit)

/-- Takes one more character of the text that spells an integer. -/
def takeDigit (text : String) (negative : Bool) (n : Int32) (c : Char) : Except Rejection Int32 :=
  if c.isDigit then
    match appendDigit? negative n (Text.digitValue c) with
    | some n => .ok n
    | none => .error (if negative then .tooSmall text else .tooLarge text)
  else .error (.notAnInteger text)

/-- The integer that a text spells, if 32 bits hold it. It is read digit by digit, and the first
step that cannot be taken decides what is wrong. -/
def integer? (text : String) : Except Rejection Int32 :=
  let (negative, digits) := Text.splitSign text.toList
  if digits.isEmpty then .error (.notAnInteger text)
  else digits.foldlM (takeDigit text negative) 0

/-- The number that a text spells, rounded to the nearest one. -/
def number? (text : String) : Except Rejection Binary64 :=
  match Text.readNumeral? text.toList with
  | none => .error (.notANumber text)
  | some n =>
    let value := Binary64.ofRatio n.negative n.digits (Nat.pow 10 n.places)
    if value.isFinite then .ok value else .error (.outOfRange text)

/-! ## Fields -/

def integer (literal : Literal) (field : String) : Except Fault Int32 :=
  (integer? literal.text).mapError (rejected literal field)

def number (literal : Literal) (field : String) : Except Fault Binary64 :=
  (number? literal.text).mapError (rejected literal field)

/-- A number that may be left out. -/
def numberOr (literal : Option Literal) (field : String) (default : Binary64) :
    Except Fault Binary64 :=
  match literal with
  | some l => number l field
  | none => .ok default

/-- An orientation; left out, it is no rotation. -/
def orientation (literal : Option Literal) : Except Fault Orientation :=
  match literal with
  | none => .ok .deg0
  | some l => do
    let degrees ← integer l "orientation"
    match Orientation.ofDegrees? degrees.toInt with
    | some o => return o
    | none => throw (rejected l "orientation" (.notRightAngle degrees.toInt))

/-- A width or height. -/
def dimension (literal : Literal) (field : String) : Except Fault UInt32 := do
  let size ← integer literal field
  if 1 ≤ size.toInt then return UInt32.ofNat size.toInt.toNat
  else throw (rejected literal field (.belowOne size.toInt))

end Playfield.Decode
