/-
  Playfield.Fault — what can be wrong with a board, a file or a packed scene, and how it is said.

  Every fault ends the work that met it. A report is a fault together with where it happened,
  as far as that is known. The lines and columns of a fault are those of the text's positions, so
  they fit in 32 bits if the text has fewer than 2^32 - 1 characters.
-/

import Playfield.Text.Quoted

namespace Playfield

inductive Fault where
  /-- The text does not match the grammar; `context` is the source line. -/
  | malformed (detail : String) (line column : Nat) (context : String)
  /-- A declaration carries a value that its field cannot have. -/
  | badField (field detail : String) (line : Nat)
  /-- A wiring names a gadget that has not been declared before it. -/
  | unresolved (name : String) (line : Nat)
  /-- A gadget's name was taken on an earlier line. -/
  | duplicate (name : String) (line firstLine : Nat)
  /-- A file cannot be read or written, or its text cannot be decoded. -/
  | io (detail : String)
  /-- Bytes are no packed scene; without a detail, they are not even well formed. -/
  | packing (detail : Option String)
  deriving DecidableEq, Repr

def Fault.message : Fault → String
  | .malformed detail line column _ =>
    "syntax error at " ++ toString line ++ ":" ++ toString column ++ ": " ++ detail
  | .badField field detail line =>
    "invalid " ++ field ++ " on line " ++ toString line ++ ": " ++ detail
  | .unresolved name line =>
    "unresolved reference on line " ++ toString line ++ ": no gadget named " ++ Text.quoted name
      ++ " declared before this line"
  | .duplicate name line firstLine =>
    "duplicate name on line " ++ toString line ++ ": " ++ Text.quoted name
      ++ " was already declared on line " ++ toString firstLine
  | .io detail => "io error: " ++ detail
  | .packing detail => "serialization error: " ++ detail.getD "malformed bytes"

/-- The source line that a fault points at. -/
def Fault.line? : Fault → Option Nat
  | .malformed _ line _ _ => some line
  | .badField _ _ line => some line
  | .unresolved _ line => some line
  | .duplicate _ line _ => some line
  | .io _ => none
  | .packing _ => none

/-- Where a fault happened: in which file, if that is known. -/
structure Origin where
  source : Option String := none
  deriving DecidableEq, Repr

def Origin.text (o : Origin) : String :=
  match o.source with
  | some source => "in " ++ source
  | none => ""

structure Report where
  fault : Fault
  origin : Option Origin := none
  deriving DecidableEq, Repr

/-- The report of a fault met in a file. -/
def Fault.within (fault : Fault) (source : String) : Report :=
  { fault, origin := some { source := some source } }

/-- One line for a reader: the place, if there is one, and the fault. -/
def Report.message (r : Report) : String :=
  match r.origin with
  | some origin => origin.text ++ ": " ++ r.fault.message
  | none => r.fault.message

end Playfield
