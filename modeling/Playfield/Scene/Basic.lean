/-
  Playfield.Scene.Basic — a finished board: gadgets, wiring, balls and the physics they share.

  A scene is a plain record. The flaws that keep a record from being a sound scene are looked
  for in a fixed order, and the first one found is the one reported.
-/

import Playfield.Scene.Ball
import Playfield.Scene.Wiring

namespace Playfield

structure Scene where
  name : String
  gravity : Binary64
  friction1 : Binary64
  friction2 : Binary64
  registry : Registry
  wiring : Wiring
  timeStep : Binary64
  balls : List Ball
  deriving DecidableEq

namespace Scene

/-- What can be wrong with a scene. -/
inductive Flaw where
  | emptyName
  | physics
  | timeStep
  | registry
  | wiring
  | ball
  deriving DecidableEq, Repr

def Flaw.message : Flaw → String
  | .emptyName => "scene has an empty name"
  | .physics => "scene gravity and friction must be finite"
  | .timeStep => "scene time step must be finite and positive"
  | .registry => "scene registry is inconsistent with its entities"
  | .wiring => "scene trigger graph names unregistered gadgets"
  | .ball => "scene ball position and velocity must be finite"

/-- The first flaw of a scene. -/
def flaw? (s : Scene) : Option Flaw :=
  if s.name.isEmpty then some .emptyName
  else if !(s.gravity.isFinite && s.friction1.isFinite && s.friction2.isFinite) then some .physics
  else if !(s.timeStep.isFinite && s.timeStep.isPositive) then some .timeStep
  else if !s.registry.isWellFormed then some .registry
  else if !s.wiring.isClosedOver s.registry then some .wiring
  else if !s.balls.all Ball.isFinite then some .ball
  else none

/-- Whether two lists of balls agree, with the numbers compared as numbers. -/
def sameBalls (a b : List Ball) : Bool :=
  a.length == b.length && (a.zip b).all fun (x, y) => x.equals y

/-- Equality with the numbers compared as numbers. -/
def equals (s t : Scene) : Bool :=
  s.name == t.name && s.gravity.equals t.gravity && s.friction1.equals t.friction1
    && s.friction2.equals t.friction2 && s.registry == t.registry && s.wiring == t.wiring
    && s.timeStep.equals t.timeStep && sameBalls s.balls t.balls

def gadget? (s : Scene) (name : String) : Option Gadget :=
  s.registry.get? name

/-- The names of the gadgets that act when `name` is struck, if there is such a gadget. -/
def triggeredBy? (s : Scene) (name : String) : Option (List String) :=
  (s.wiring.targetsOf? name).map NameMap.names

end Scene

end Playfield
