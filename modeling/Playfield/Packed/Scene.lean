/-
  Playfield.Packed.Scene — scenes and their parts as MessagePack values.

  Each part has a writer and a reader that stand side by side. A reader hands the parts inside
  it the room that its own arrays and maps leave. Reading a scene says nothing yet about its
  flaws.
-/

import Playfield.Packed.Record
import Playfield.Scene.Basic

namespace Playfield.Packed

open Board (Side)

/-! ## Places and motions -/

def cellFields : List String := ["x", "y"]

def ofCell (c : Cell) : Value :=
  ofRecord cellFields [ofInt32 c.x, ofInt32 c.y]

def cell? (room : Nat) (v : Value) : Option Cell := do
  let [x, y] ← record? room cellFields v | none
  return { x := ← int32? x, y := ← int32? y }

def vecFields : List String := ["x", "y"]

def ofVec (v : Vec) : Value :=
  ofRecord vecFields [.float64 v.x, .float64 v.y]

def vec? (room : Nat) (v : Value) : Option Vec := do
  let [x, y] ← record? room vecFields v | none
  return { x := ← float? x, y := ← float? y }

/-! ## Gadgets -/

def sideTags : List String := ["Left", "Right"]

def ofSide : Side → Value
  | .left => ofName "Left"
  | .right => ofName "Right"

def side? (v : Value) : Option Side := do
  let (tag, payload) ← choice? sideTags v
  guard (isBare payload)
  [Side.left, .right][tag]?

def orientationTags : List String := ["Deg0", "Deg90", "Deg180", "Deg270"]

def ofOrientation (o : Orientation) : Value :=
  ofName ("Deg" ++ toString o.degrees)

def orientation? (v : Value) : Option Orientation := do
  let (tag, payload) ← choice? orientationTags v
  guard (isBare payload)
  Orientation.all[tag]?

def kindTags : List String :=
  ["SquareBumper", "CircularBumper", "TriangularBumper", "Absorber", "Flipper"]

def triangleFields : List String := ["orientation"]
def absorberFields : List String := ["width", "height"]
def flipperFields : List String := ["side", "orientation"]

def ofKind : Gadget.Kind → Value
  | .squareBumper => ofName "SquareBumper"
  | .circularBumper => ofName "CircularBumper"
  | .triangularBumper o =>
    ofChoice "TriangularBumper" (ofRecord triangleFields [ofOrientation o])
  | .absorber width height =>
    ofChoice "Absorber" (ofRecord absorberFields [ofUInt32 width, ofUInt32 height])
  | .flipper side o =>
    ofChoice "Flipper" (ofRecord flipperFields [ofSide side, ofOrientation o])

/-- The kinds without parameters may stand bare; the others need their payload. -/
def kind? (room : Nat) (v : Value) : Option Gadget.Kind := do
  match ← choice? kindTags v with
  | (0, payload) => guard (isBare payload); return .squareBumper
  | (1, payload) => guard (isBare payload); return .circularBumper
  | (2, some payload) =>
    let [o] ← record? room triangleFields payload | none
    return .triangularBumper (← orientation? o)
  | (3, some payload) =>
    let [width, height] ← record? room absorberFields payload | none
    return .absorber (← uint32? width) (← uint32? height)
  | (4, some payload) =>
    let [side, o] ← record? room flipperFields payload | none
    return .flipper (← side? side) (← orientation? o)
  | _ => none

def gadgetFields : List String := ["name", "origin", "kind", "line"]

def ofGadget (g : Gadget) : Value :=
  ofRecord gadgetFields [ofName g.name, ofCell g.origin, ofKind g.kind, ofUInt32 g.line]

def gadget? (room : Nat) (v : Value) : Option Gadget := do
  let [name, origin, kind, line] ← record? room gadgetFields v | none
  return {
    name := ← name? name, origin := ← cell? (room - 1) origin
    kind := ← kind? (room - 1) kind, line := ← uint32? line }

/-! ## The scene -/

def registryFields : List String := ["entities"]

def ofRegistry (r : Registry) : Value :=
  ofRecord registryFields [ofNameMap ofGadget r.gadgets]

def registry? (room : Nat) (v : Value) : Option Registry := do
  let [gadgets] ← record? room registryFields v | none
  return { gadgets := ← nameMap? (gadget? (room - 2)) gadgets }

def ofNameSet (s : NameSet) : Value :=
  .array (s.names.map ofName)

def nameSet? (v : Value) : Option NameSet :=
  (list? name? v).map .ofNames

def wiringFields : List String := ["edges"]

def ofWiring (w : Wiring) : Value :=
  ofRecord wiringFields [ofNameMap ofNameSet w.targets]

def wiring? (room : Nat) (v : Value) : Option Wiring := do
  let [targets] ← record? room wiringFields v | none
  return { targets := ← nameMap? nameSet? targets }

def ballFields : List String := ["name", "position", "velocity", "line"]

def ofBall (b : Ball) : Value :=
  ofRecord ballFields [ofName b.name, ofVec b.position, ofVec b.velocity, ofUInt32 b.line]

def ball? (room : Nat) (v : Value) : Option Ball := do
  let [name, position, velocity, line] ← record? room ballFields v | none
  return {
    name := ← name? name, position := ← vec? (room - 1) position
    velocity := ← vec? (room - 1) velocity, line := ← uint32? line }

def sceneFields : List String :=
  ["name", "gravity", "mu1", "mu2", "registry", "graph", "time_step", "balls"]

def ofScene (s : Scene) : Value :=
  ofRecord sceneFields
    [ofName s.name, .float64 s.gravity, .float64 s.friction1, .float64 s.friction2,
      ofRegistry s.registry, ofWiring s.wiring, .float64 s.timeStep, .array (s.balls.map ofBall)]

def scene? (room : Nat) (v : Value) : Option Scene := do
  let [name, gravity, friction1, friction2, registry, wiring, timeStep, balls] ←
    record? room sceneFields v | none
  return {
    name := ← name? name, gravity := ← float? gravity, friction1 := ← float? friction1
    friction2 := ← float? friction2, registry := ← registry? (room - 1) registry
    wiring := ← wiring? (room - 1) wiring, timeStep := ← float? timeStep
    balls := ← list? (ball? (room - 2)) balls }

end Playfield.Packed
