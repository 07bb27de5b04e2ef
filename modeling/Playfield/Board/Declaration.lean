/-
  Playfield.Board.Declaration — the lines of a board by what they declare.

  Values stay as they were written; what they are worth is decided when the scene is built.
-/

import Playfield.Board.Production

namespace Playfield.Board

open Source

/-- The first line. All of its fields may be left out, though a scene needs the name. -/
structure Header where
  name : Option Literal
  gravity : Option Literal
  friction1 : Option Literal
  friction2 : Option Literal
  span : Span
  deriving DecidableEq, Repr

/-- What a gadget line says beside the name and the cell. -/
inductive Form where
  | squareBumper
  | circleBumper
  | triangleBumper (orientation : Option Literal)
  | absorber (width height : Literal)
  | flipper (side : Side) (orientation : Option Literal)
  deriving DecidableEq, Repr

inductive Declaration where
  | gadget (form : Form) (name x y : Literal) (span : Span)
  | ball (name x y xVelocity yVelocity : Literal) (span : Span)
  /-- When `trigger` is struck, `action` acts. -/
  | fire (trigger action : Literal) (span : Span)
  deriving DecidableEq, Repr

def Form.keyword : Form → Keyword
  | .squareBumper => .squareBumper
  | .circleBumper => .circleBumper
  | .triangleBumper _ => .triangleBumper
  | .absorber _ _ => .absorber
  | .flipper side _ => .flipper side

def Declaration.keyword : Declaration → Keyword
  | .gadget form _ _ _ _ => form.keyword
  | .ball _ _ _ _ _ _ => .ball
  | .fire _ _ _ => .fire

/-- The span of the declaration's line. -/
def Declaration.span : Declaration → Span
  | .gadget _ _ _ _ span => span
  | .ball _ _ _ _ _ span => span
  | .fire _ _ span => span

/-- The literals of a declaration by key, in the order of its production. -/
def Declaration.fields : Declaration → List (String × Option Literal)
  | .gadget form name x y _ =>
    [("name", some name), ("x", some x), ("y", some y)] ++
      match form with
      | .squareBumper | .circleBumper => []
      | .triangleBumper orientation | .flipper _ orientation => [("orientation", orientation)]
      | .absorber width height => [("width", some width), ("height", some height)]
  | .ball name x y xVelocity yVelocity _ =>
    [("name", some name), ("x", some x), ("y", some y), ("xVelocity", some xVelocity),
      ("yVelocity", some yVelocity)]
  | .fire trigger action _ => [("trigger", some trigger), ("action", some action)]

/-! ## From lines -/

/-- The header that a line is. -/
def Header.ofLine (line : Line) : Except Misplaced Header := do
  if line.keyword ≠ boardKeyword then
    throw { misfit := .boardExpected, span := line.keywordSpan }
  checkLine boardSlots line
  return {
    name := line.value? "name"
    gravity := line.value? "gravity"
    friction1 := line.value? "friction1"
    friction2 := line.value? "friction2"
    span := line.span }

/-- The declaration of a gadget line whose own fields are `form`. -/
def gadgetOfLine (line : Line) (form : Except Misplaced Form) : Except Misplaced Declaration := do
  let name ← require line "name"
  let x ← require line "x"
  let y ← require line "y"
  return .gadget (← form) name x y line.span

/-- The declaration that a line after the first is. -/
def Declaration.ofLine (line : Line) : Except Misplaced Declaration :=
  match Keyword.ofText? line.keyword with
  | none =>
    throw {
      misfit := if line.keyword = boardKeyword then .boardAgain else .unknownKeyword line.keyword
      span := line.keywordSpan }
  | some keyword => do
    checkLine keyword.slots line
    match keyword with
    | .ball =>
      return .ball (← require line "name") (← require line "x") (← require line "y")
        (← require line "xVelocity") (← require line "yVelocity") line.span
    | .fire => return .fire (← require line "trigger") (← require line "action") line.span
    | .squareBumper => gadgetOfLine line (return .squareBumper)
    | .circleBumper => gadgetOfLine line (return .circleBumper)
    | .triangleBumper => gadgetOfLine line (return .triangleBumper (line.value? "orientation"))
    | .flipper side => gadgetOfLine line (return .flipper side (line.value? "orientation"))
    | .absorber =>
      gadgetOfLine line (return .absorber (← require line "width") (← require line "height"))

end Playfield.Board
