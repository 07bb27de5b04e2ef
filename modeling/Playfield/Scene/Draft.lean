/-
  Playfield.Scene.Draft — building a scene in one walk over the declarations.

  A draft holds the gadgets, the wiring and the balls declared so far. Declarations are applied
  in order: a gadget is registered and gets an entry in the wiring, a ball is appended, and a
  wiring is resolved against the gadgets before it. The draft is changed piece by piece, and
  nothing takes a change back when a later piece fails. The header comes last and makes the
  draft a scene.
-/

import Playfield.Board.Basic
import Playfield.Settings
import Playfield.Scene.Basic
import Playfield.Scene.Decode

namespace Playfield

open Board (Declaration Form Header)
open Source (Literal Span)

structure Draft where
  registry : Registry := {}
  wiring : Wiring := {}
  balls : List Ball := []
  deriving DecidableEq

namespace Draft

/-! ## Declarations by what they are worth -/

/-- The line number that gadgets and balls remember. -/
def lineOf (span : Span) : UInt32 :=
  UInt32.ofNat span.line

/-- The kind that a gadget declaration asks for. -/
def kindOf : Form → Except Fault Gadget.Kind
  | .squareBumper => return .squareBumper
  | .circleBumper => return .circularBumper
  | .triangleBumper orientation => return .triangularBumper (← Decode.orientation orientation)
  | .absorber width height =>
    return .absorber (← Decode.dimension width "width") (← Decode.dimension height "height")
  | .flipper side orientation => return .flipper side (← Decode.orientation orientation)

/-- The gadget that a declaration describes. -/
def gadgetOf (form : Form) (name x y : Literal) (span : Span) : Except Fault Gadget := do
  let kind ← kindOf form
  let x ← Decode.integer x "x"
  let y ← Decode.integer y "y"
  return { name := name.text, origin := { x, y }, kind, line := lineOf span }

/-- The ball that a declaration describes. -/
def ballOf (name x y xVelocity yVelocity : Literal) (span : Span) : Except Fault Ball := do
  let x ← Decode.number x "x"
  let y ← Decode.number y "y"
  let xVelocity ← Decode.number xVelocity "xVelocity"
  let yVelocity ← Decode.number yVelocity "yVelocity"
  return {
    name := name.text
    position := { x, y }
    velocity := { x := xVelocity, y := yVelocity }
    line := lineOf span }

/-! ## The walk -/

/-- Work on a draft. What it has changed when it fails stays changed. -/
abbrev Work := EStateM Fault Draft

/-- A result that was got without looking at the draft, as work. -/
def settle {α : Type} : Except Fault α → Work α
  | .ok x => pure x
  | .error why => throw why

def addGadget (g : Gadget) : Work Unit := do
  let d ← get
  let registry ← settle (d.registry.register g)
  modify fun d => { d with registry }
  modify fun d => { d with wiring := d.wiring.addNode g.name }

def addBall (b : Ball) : Work Unit :=
  modify fun d => { d with balls := d.balls ++ [b] }

/-- Adds an edge for a wiring declared on `line`. -/
def addFire (trigger action : String) (line : Nat) : Work Unit := do
  let d ← get
  let wiring ← settle (d.wiring.connect d.registry trigger action line)
  modify fun d => { d with wiring }

/-- Works one more declaration into the draft. -/
def perform : Declaration → Work Unit
  | .gadget form name x y span => do addGadget (← settle (gadgetOf form name x y span))
  | .ball name x y xVelocity yVelocity span => do
    addBall (← settle (ballOf name x y xVelocity yVelocity span))
  | .fire trigger action span => addFire trigger.text action.text span.line

/-- The draft that work leaves, whether it failed or not. -/
def after (d : Draft) (work : Work Unit) : Draft :=
  match work d with
  | .ok _ d => d
  | .error _ d => d

/-- The draft after some declarations, where failures are passed over. -/
def performEach (d : Draft) (declarations : List Declaration) : Draft :=
  declarations.foldl (fun d declaration => d.after (perform declaration)) d

/-- The draft after one more declaration, if that can be worked in. -/
def apply (d : Draft) (declaration : Declaration) : Except Fault Draft :=
  match perform declaration d with
  | .ok _ d => .ok d
  | .error why _ => .error why

/-- The draft after some declarations, up to the first that fails. -/
def applyAll (d : Draft) (declarations : List Declaration) : Except Fault Draft :=
  declarations.foldlM apply d

/-- The scene of a draft and a header. -/
def finish (d : Draft) (settings : Settings) (header : Header) : Except Fault Scene := do
  let some name := header.name
    | throw (.badField "name" "the board declaration needs a name" header.span.line)
  let gravity ← Decode.numberOr header.gravity "gravity" settings.gravity
  let friction1 ← Decode.numberOr header.friction1 "friction1" settings.friction1
  let friction2 ← Decode.numberOr header.friction2 "friction2" settings.friction2
  return {
    name := name.text, gravity, friction1, friction2
    registry := d.registry, wiring := d.wiring
    timeStep := settings.timeStep
    balls := d.balls }

/-! ## The journal -/

/-- A note of what stands on a line. -/
def lineNote (line : Nat) (text : String) : Note :=
  { level := .debug, text := "line " ++ toString line ++ ": " ++ text }

/-- The note that `apply` leaves. A gadget is noted before its name is looked at, all else only
when it is applied. -/
def applyJournal (d : Draft) : Declaration → List Note
  | .gadget form name x y span =>
    match gadgetOf form name x y span with
    | .ok g => [lineNote g.line.toNat g.text]
    | .error _ => []
  | .ball name x y xVelocity yVelocity span =>
    match ballOf name x y xVelocity yVelocity span with
    | .ok b => [lineNote b.line.toNat b.text]
    | .error _ => []
  | .fire trigger action span =>
    match addFire trigger.text action.text span.line d with
    | .error _ _ => []
    | .ok _ _ =>
      if d.wiring.hasEdge trigger.text action.text then
        [lineNote span.line
          (trigger.text ++ " already triggers " ++ action.text ++ ", ignoring repeat")]
      else [lineNote span.line (trigger.text ++ " triggers " ++ action.text)]

/-- The note that `finish` leaves. -/
def finishJournal (d : Draft) (settings : Settings) (header : Header) : List Note :=
  match d.finish settings header with
  | .error _ => []
  | .ok s =>
    [{ level := .info
       text := "built board " ++ s.name ++ " with " ++ toString s.registry.size ++ " gadgets, "
        ++ toString s.wiring.edgeCount ++ " trigger edges, " ++ toString s.balls.length
        ++ " balls" }]

/-- The notes of a whole walk: of every declaration up to the first that fails, and of the
header when none does. -/
def journal (settings : Settings) (header : Header) : Draft → List Declaration → List Note
  | d, [] => d.finishJournal settings header
  | d, declaration :: rest =>
    d.applyJournal declaration ++
      match d.apply declaration with
      | .ok d => journal settings header d rest
      | .error _ => []

end Draft

/-! ## Scenes from boards and texts -/

namespace Scene

/-- The scene that a board describes. -/
def ofBoard (settings : Settings) (board : Board) : Except Fault Scene := do
  let draft ← ({} : Draft).applyAll board.declarations
  draft.finish settings board.header

def ofBoardJournal (settings : Settings) (board : Board) : List Note :=
  Draft.journal settings board.header {} board.declarations

/-- The scene that a text describes. -/
def ofText (settings : Settings) (text : String) : Except Fault Scene := do
  ofBoard settings (← Board.parse text)

def ofTextJournal (settings : Settings) (text : String) : List Note :=
  Board.parseJournal text ++
    match Board.parse text with
    | .ok board => ofBoardJournal settings board
    | .error _ => []

end Scene

end Playfield
