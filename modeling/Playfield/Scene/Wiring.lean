/-
  Playfield.Scene.Wiring — which gadgets act when a gadget is struck.

  The wiring gives each gadget the set of gadgets it triggers. A gadget has an entry from the
  moment it is registered, so an edge never has to make one. Whether the wiring and a registry
  speak of the same names is decided by counting: as many entries as gadgets, and every name
  that occurs is registered.
-/

import Playfield.Scene.Registry

namespace Playfield

structure Wiring where
  targets : NameMap NameSet := .empty
  deriving DecidableEq

namespace Wiring

/-- Gives a name an entry; one that it has is kept. -/
def addNode (w : Wiring) (name : String) : Wiring :=
  if w.targets.contains name then w else { targets := w.targets.insert name .empty }

/-- The names that `name` triggers, if it has an entry. -/
def targetsOf? (w : Wiring) (name : String) : Option NameSet :=
  w.targets.get? name

def hasEdge (w : Wiring) (trigger action : String) : Bool :=
  match w.targetsOf? trigger with
  | some targets => targets.contains action
  | none => false

/-- Adds an edge; one that is there already changes nothing. -/
def addEdge (w : Wiring) (trigger action : String) : Wiring :=
  { targets := w.targets.insert trigger (((w.targetsOf? trigger).getD .empty).add action) }

/-- Adds an edge between two registered gadgets, named on `line`; the trigger is looked up
first. -/
def connect (w : Wiring) (r : Registry) (trigger action : String) (line : Nat) :
    Except Fault Wiring := do
  let trigger ← r.resolve trigger line
  let action ← r.resolve action line
  return w.addEdge trigger.name action.name

def nodeCount (w : Wiring) : Nat :=
  w.targets.size

def edgeCount (w : Wiring) : Nat :=
  w.targets.values.foldl (fun count targets => count + targets.size) 0

/-- All edges, by trigger and then by action. -/
def edges (w : Wiring) : List (String × String) :=
  w.targets.entries.flatMap fun (trigger, targets) => targets.names.map (trigger, ·)

/-- The names that trigger `name`, in order. -/
def triggersOf (w : Wiring) (name : String) : List String :=
  (w.targets.entries.filter fun (_, targets) => targets.contains name).map (·.1)

/-- Whether entries and targets are exactly the registered names and some of them. -/
def isClosedOver (w : Wiring) (r : Registry) : Bool :=
  w.targets.size == r.size &&
    w.targets.entries.all fun (trigger, targets) =>
      r.contains trigger && targets.names.all r.contains

end Wiring

end Playfield
