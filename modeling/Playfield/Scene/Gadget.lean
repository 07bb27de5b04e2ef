/-
  Playfield.Scene.Gadget — the fixed things on a board: bumpers, absorbers and flippers.

  A gadget stands on a rectangle of grid cells given by its top left cell and its kind. Only an
  absorber chooses its size; a bumper takes one cell and a flipper swings in a square of four.
-/

import Playfield.Board.Production

namespace Playfield

open Board (Side)

/-- A cell of the grid: column and row, from the top left. -/
structure Cell where
  x : Int32
  y : Int32
  deriving DecidableEq, Repr

/-- Clockwise rotation by right angles. -/
inductive Orientation where
  | deg0
  | deg90
  | deg180
  | deg270
  deriving DecidableEq, Repr

def Orientation.all : List Orientation :=
  [.deg0, .deg90, .deg180, .deg270]

def Orientation.degrees : Orientation → Nat
  | .deg0 => 0
  | .deg90 => 90
  | .deg180 => 180
  | .deg270 => 270

def Orientation.ofDegrees? (degrees : Int) : Option Orientation :=
  Orientation.all.find? fun o => (o.degrees : Int) == degrees

namespace Gadget

inductive Kind where
  | squareBumper
  | circularBumper
  | triangularBumper (orientation : Orientation)
  | absorber (width height : UInt32)
  | flipper (side : Side) (orientation : Orientation)
  deriving DecidableEq, Repr

def Kind.label : Kind → String
  | .squareBumper => "square bumper"
  | .circularBumper => "circular bumper"
  | .triangularBumper _ => "triangular bumper"
  | .absorber _ _ => "absorber"
  | .flipper .left _ => "left flipper"
  | .flipper .right _ => "right flipper"

/-- How many cells wide and high a gadget of this kind is. -/
def Kind.size : Kind → UInt32 × UInt32
  | .squareBumper | .circularBumper | .triangularBumper _ => (1, 1)
  | .absorber width height => (width, height)
  | .flipper _ _ => (2, 2)

end Gadget

/-- The cells that a gadget stands on. -/
structure Footprint where
  origin : Cell
  width : UInt32
  height : UInt32
  deriving DecidableEq, Repr

/-- Whether a cell belongs to the footprint. The distances are taken in the integers, where
they cannot overflow. -/
def Footprint.contains (f : Footprint) (cell : Cell) : Bool :=
  let dx := cell.x.toInt - f.origin.x.toInt
  let dy := cell.y.toInt - f.origin.y.toInt
  decide (0 ≤ dx ∧ dx < f.width.toNat) && decide (0 ≤ dy ∧ dy < f.height.toNat)

/-- A named gadget, with the line that declared it. -/
structure Gadget where
  name : String
  origin : Cell
  kind : Gadget.Kind
  line : UInt32
  deriving DecidableEq, Repr

namespace Gadget

def footprint (g : Gadget) : Footprint :=
  { origin := g.origin, width := g.kind.size.1, height := g.kind.size.2 }

def text (g : Gadget) : String :=
  g.kind.label ++ " " ++ g.name ++ " at (" ++ toString g.origin.x.toInt ++ ", "
    ++ toString g.origin.y.toInt ++ ")"
    ++ match g.kind with
      | .squareBumper | .circularBumper => ""
      | .triangularBumper orientation | .flipper _ orientation =>
        " rotated " ++ toString orientation.degrees
      | .absorber width height =>
        " size " ++ toString width.toNat ++ "x" ++ toString height.toNat

end Gadget

end Playfield
