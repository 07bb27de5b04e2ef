/-
  Playfield.Scene.Vec — points and velocities in the plane, in board units.
-/

import Playfield.Binary64.Shortest

namespace Playfield

/-- The origin is the top left corner, and `y` points down. -/
structure Vec where
  x : Binary64 := ⟨0⟩
  y : Binary64 := ⟨0⟩
  deriving DecidableEq, Repr

namespace Vec

def isFinite (v : Vec) : Bool :=
  v.x.isFinite && v.y.isFinite

/-- Equality of the arithmetic, component by component. -/
def equals (v w : Vec) : Bool :=
  v.x.equals w.x && v.y.equals w.y

def text (v : Vec) : String :=
  "<" ++ v.x.text ++ ", " ++ v.y.text ++ ">"

end Vec

end Playfield
