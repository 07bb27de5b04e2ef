/-
  Playfield.Scene.Ball — the moving things on a board.

  Balls are named but not looked up by name: two may share one, and no wiring reaches them.
-/

import Playfield.Scene.Vec

namespace Playfield

structure Ball where
  name : String
  position : Vec
  velocity : Vec
  line : UInt32
  deriving DecidableEq, Repr

namespace Ball

def isFinite (b : Ball) : Bool :=
  b.position.isFinite && b.velocity.isFinite

/-- Equality with the numbers compared as numbers. -/
def equals (a b : Ball) : Bool :=
  a.name == b.name && a.position.equals b.position && a.velocity.equals b.velocity
    && a.line == b.line

def text (b : Ball) : String :=
  "ball " ++ b.name ++ " at " ++ b.position.text ++ " moving " ++ b.velocity.text

end Ball

end Playfield
