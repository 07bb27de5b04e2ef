/-
  Playfield.Scene.Registry — the gadgets of a board by name.

  A gadget can be registered once; balls are not registered at all. A registry read from bytes
  may be anything, so being well formed is a check and not part of the type.
-/

import Playfield.NameMap
import Playfield.Fault
import Playfield.Scene.Gadget

namespace Playfield

structure Registry where
  gadgets : NameMap Gadget := .empty
  deriving DecidableEq

namespace Registry

def get? (r : Registry) (name : String) : Option Gadget :=
  r.gadgets.get? name

def contains (r : Registry) (name : String) : Bool :=
  r.gadgets.contains name

def size (r : Registry) : Nat :=
  r.gadgets.size

/-- The gadgets in name order. -/
def toList (r : Registry) : List Gadget :=
  r.gadgets.values

/-- Adds a gadget under its name, which must be free. -/
def register (r : Registry) (g : Gadget) : Except Fault Registry :=
  match r.get? g.name with
  | some first => .error (.duplicate g.name g.line.toNat first.line.toNat)
  | none => .ok { gadgets := r.gadgets.insert g.name g }

/-- The gadget that a name on `line` stands for. -/
def resolve (r : Registry) (name : String) (line : Nat) : Except Fault Gadget :=
  match r.get? name with
  | some g => .ok g
  | none => .error (.unresolved name line)

/-- Whether every gadget is kept under its own name and stands on at least one cell. -/
def isWellFormed (r : Registry) : Bool :=
  r.gadgets.entries.all fun (name, g) =>
    name == g.name && decide (1 ≤ g.kind.size.1) && decide (1 ≤ g.kind.size.2)

/-- The names of the gadgets that stand on a cell, in order. -/
def covering (r : Registry) (cell : Cell) : List String :=
  (r.toList.filter (·.footprint.contains cell)).map (·.name)

end Registry

end Playfield
