/-
  Playfield.Board.Production — which fields each kind of line takes.

  A production is a list of slots: a key, the class of value it takes, and whether it has to be
  there. A line fits when each of its fields has a slot, no key is given twice, every value is
  of its slot's class, and every required key is given. The first field that breaks a rule is
  the misfit; a missing key is looked for only when all given fields are right.
-/

import Playfield.Source.Line

namespace Playfield.Board

open Source

/-! ## Slots -/

/-- What a slot accepts. A number may be written with or without a point. -/
inductive FieldClass where
  | name
  | integer
  | number
  deriving DecidableEq, Repr

def FieldClass.accepts : FieldClass → Literal.Kind → Bool
  | .name, k => k == .name
  | .integer, k => k == .integer
  | .number, k => k != .name

def FieldClass.label : FieldClass → String
  | .name => "a name"
  | .integer => "an integer"
  | .number => "a number"

structure Slot where
  key : String
  takes : FieldClass
  required : Bool := true
  deriving DecidableEq, Repr

/-- Which way a flipper swings. -/
inductive Side where
  | left
  | right
  deriving DecidableEq, Repr

/-- The keywords of the lines after the first. -/
inductive Keyword where
  | squareBumper
  | circleBumper
  | triangleBumper
  | absorber
  | flipper (side : Side)
  | ball
  | fire
  deriving DecidableEq, Repr

/-- The keyword of the first line. -/
def boardKeyword : String := "board"

def Keyword.text : Keyword → String
  | .squareBumper => "squareBumper"
  | .circleBumper => "circleBumper"
  | .triangleBumper => "triangleBumper"
  | .absorber => "absorber"
  | .flipper .left => "leftFlipper"
  | .flipper .right => "rightFlipper"
  | .ball => "ball"
  | .fire => "fire"

def Keyword.all : List Keyword :=
  [.squareBumper, .circleBumper, .triangleBumper, .absorber, .flipper .left, .flipper .right,
    .ball, .fire]

def Keyword.ofText? (text : String) : Option Keyword :=
  Keyword.all.find? (·.text == text)

/-- The slots of the first line. -/
def boardSlots : List Slot :=
  [{ key := "name", takes := .name, required := false },
    { key := "gravity", takes := .number, required := false },
    { key := "friction1", takes := .number, required := false },
    { key := "friction2", takes := .number, required := false }]

/-- The slots of every gadget: what it is called and the cell of its top left corner. -/
def placeSlots : List Slot :=
  [{ key := "name", takes := .name }, { key := "x", takes := .integer },
    { key := "y", takes := .integer }]

def Keyword.slots : Keyword → List Slot
  | .squareBumper | .circleBumper => placeSlots
  | .triangleBumper | .flipper _ =>
    placeSlots ++ [{ key := "orientation", takes := .integer, required := false }]
  | .absorber =>
    placeSlots ++ [{ key := "width", takes := .integer }, { key := "height", takes := .integer }]
  | .ball =>
    [{ key := "name", takes := .name }, { key := "x", takes := .number },
      { key := "y", takes := .number }, { key := "xVelocity", takes := .number },
      { key := "yVelocity", takes := .number }]
  | .fire => [{ key := "trigger", takes := .name }, { key := "action", takes := .name }]

/-! ## Fitting -/

/-- Why a line is not what its place in the file asks for. -/
inductive Misfit where
  | noBoard
  | boardFirst (keyword : String)
  | boardExpected
  | boardAgain
  | unknownKeyword (keyword : String)
  | unknownKey (keyword key : String)
  | repeatedKey (key : String)
  | wrongClass (key : String) (takes : FieldClass) (kind : Literal.Kind) (text : String)
  | missingKey (keyword key : String)
  deriving DecidableEq, Repr

def Misfit.message : Misfit → String
  | .noBoard => "missing board declaration"
  | .boardFirst keyword => "expected the board declaration first, found '" ++ keyword ++ "'"
  | .boardExpected => "expected 'board'"
  | .boardAgain => "the board declaration must appear once, on the first line"
  | .unknownKeyword keyword => "unknown declaration '" ++ keyword ++ "'"
  | .unknownKey keyword key => "'" ++ keyword ++ "' does not accept a '" ++ key ++ "' field"
  | .repeatedKey key => "'" ++ key ++ "' given more than once"
  | .wrongClass key takes kind text =>
    "'" ++ key ++ "' expects " ++ takes.label ++ ", found " ++ kind.label ++ " '" ++ text ++ "'"
  | .missingKey keyword key => "'" ++ keyword ++ "' requires a '" ++ key ++ "' field"

/-- A misfit and the part of the text that shows it. -/
structure Misplaced where
  misfit : Misfit
  span : Span
  deriving DecidableEq, Repr

def Misplaced.fault (m : Misplaced) (source : String) : Fault :=
  faultAt source m.span m.misfit.message

/-- Checks one field against the slots and the keys given before it. -/
def checkField (slots : List Slot) (keyword : String) (earlier : List String) (f : Field) :
    Except Misplaced Unit :=
  match slots.find? (·.key == f.key) with
  | none => .error { misfit := .unknownKey keyword f.key, span := f.keySpan }
  | some slot =>
    if earlier.contains f.key then .error { misfit := .repeatedKey f.key, span := f.keySpan }
    else if slot.takes.accepts f.value.kind then .ok ()
    else .error
      { misfit := .wrongClass f.key slot.takes f.value.kind f.value.text, span := f.value.span }

/-- Checks fields in order, given the keys before them. -/
def checkFields (slots : List Slot) (keyword : String) :
    List String → List Field → Except Misplaced Unit
  | _, [] => .ok ()
  | earlier, f :: fields =>
    match checkField slots keyword earlier f with
    | .error m => .error m
    | .ok () => checkFields slots keyword (f.key :: earlier) fields

/-- The value of a key that has to be there. -/
def require (line : Line) (key : String) : Except Misplaced Literal :=
  match line.value? key with
  | some value => .ok value
  | none => .error { misfit := .missingKey line.keyword key, span := line.keywordSpan }

/-- Checks that the required keys are there. -/
def checkRequired (line : Line) : List Slot → Except Misplaced Unit
  | [] => .ok ()
  | slot :: slots =>
    if slot.required then
      match require line slot.key with
      | .error m => .error m
      | .ok _ => checkRequired line slots
    else checkRequired line slots

/-- Checks a line against the slots of its production. -/
def checkLine (slots : List Slot) (line : Line) : Except Misplaced Unit :=
  match checkFields slots line.keyword [] line.fields with
  | .error m => .error m
  | .ok () => checkRequired line slots

end Playfield.Board
