/-
  Playfield.Source.Line — from tokens to lines of a board.

    file   (line? LINE-END)* line? INPUT-END
    line   NAME field*
    field  NAME '=' (NAME | INTEGER | DECIMAL)

  Comments may stand before a line, before a field and at the end of a line, and blank lines
  are dropped. Reading stops at the first token that does not fit, says what it was looking
  for, and leaves that token as the first of the unread ones: reading may go on from there.
  The lines say nothing yet about which keywords and keys the language knows.
-/

import Playfield.Source.Scan
import Playfield.Fault
import Playfield.Journal

namespace Playfield.Source

/-! ## Lines -/

/-- The lexical class of a field's value. -/
inductive Literal.Kind where
  | name
  | integer
  | decimal
  deriving DecidableEq, Repr

def Literal.Kind.label : Literal.Kind → String
  | .name => "name"
  | .integer => "integer"
  | .decimal => "float"

/-- A field's value as it was written. -/
structure Literal where
  kind : Literal.Kind
  text : String
  span : Span
  deriving DecidableEq, Repr

/-- The source line that a literal stands on. -/
def Literal.line (l : Literal) : Nat :=
  l.span.line

structure Field where
  key : String
  keySpan : Span
  value : Literal
  deriving DecidableEq, Repr

/-- A keyword and its fields. The span ends with the last field. -/
structure Line where
  keyword : String
  keywordSpan : Span
  fields : List Field
  span : Span
  deriving DecidableEq, Repr

/-- The line of a keyword and its fields. -/
def Line.make (keyword : String) (keywordSpan : Span) (fields : List Field) : Line :=
  { keyword, keywordSpan, fields
    span := keywordSpan.join ((fields.getLast?.map (·.value.span)).getD keywordSpan) }

/-- The first field with a key. -/
def Line.field? (line : Line) (key : String) : Option Field :=
  line.fields.find? (·.key == key)

/-- The value of the first field with a key. -/
def Line.value? (line : Line) (key : String) : Option Literal :=
  (line.field? key).map (·.value)

/-- The journal's note of a line that was read. -/
def Line.note (line : Line) : Note :=
  { level := .trace
    text := "parsed " ++ line.keyword ++ " on line " ++ toString line.span.line }

/-! ## Reading -/

/-- What the reader was looking for when it met a token that does not fit. -/
inductive Expectation where
  | keyword
  | fieldName
  | equals
  | value (key : String)
  deriving DecidableEq, Repr

def Expectation.label : Expectation → String
  | .keyword => "a declaration keyword"
  | .fieldName => "a field name"
  | .equals => "'='"
  | .value key => "a value for '" ++ key ++ "'"

/-- What is said of a token in place of the expected one. An invalid token speaks for itself. -/
def Expectation.message (e : Expectation) : Token.Kind → String
  | .invalid blemish => blemish.message
  | found => "expected " ++ e.label ++ ", found " ++ found.label

/-- The literal that a token is. -/
def Token.literal? (t : Token) : Option Literal :=
  match t.kind with
  | .name text => some { kind := .name, text, span := t.span }
  | .integer text => some { kind := .integer, text, span := t.span }
  | .decimal text => some { kind := .decimal, text, span := t.span }
  | _ => none

/-- Reads fields up to the end of the line, which stays unread. -/
def readFields : List Token → Except Expectation (List Field) × List Token
  | [] => (.ok [], [])
  | ⟨.inputEnd, s⟩ :: ts => (.ok [], ⟨.inputEnd, s⟩ :: ts)
  | ⟨.lineEnd, s⟩ :: ts => (.ok [], ⟨.lineEnd, s⟩ :: ts)
  | ⟨.comment _, _⟩ :: ts => readFields ts
  | ⟨.name key, keySpan⟩ :: ⟨.equals, _⟩ :: t :: ts =>
    match t.literal? with
    | some value =>
      let (fields, rest) := readFields ts
      (fields.map ({ key, keySpan, value } :: ·), rest)
    | none => (.error (.value key), t :: ts)
  | ⟨.name key, _⟩ :: ⟨.equals, _⟩ :: [] => (.error (.value key), [])
  | ⟨.name _, _⟩ :: ts => (.error .equals, ts)
  | ts => (.error .fieldName, ts)

theorem readFields_rest_length_le (ts : List Token) : (readFields ts).2.length ≤ ts.length := by
  fun_induction readFields ts <;> simp_all <;> omega

/-- The lines read, what the reader missed if it stopped short, and the unread tokens. -/
structure Reading where
  lines : List Line
  missing : Option Expectation
  rest : List Token
  deriving Repr

/-- Reads lines up to the end of the input or to the first token that does not fit. -/
def readLines : List Token → Reading
  | [] => { lines := [], missing := none, rest := [] }
  | ⟨.inputEnd, s⟩ :: ts => { lines := [], missing := none, rest := ⟨.inputEnd, s⟩ :: ts }
  | ⟨.comment _, _⟩ :: ts => readLines ts
  | ⟨.lineEnd, _⟩ :: ts => readLines ts
  | ⟨.name keyword, keywordSpan⟩ :: ts =>
    match h : readFields ts with
    | (.error missing, rest) => { lines := [], missing := some missing, rest }
    | (.ok fields, rest) =>
      have : rest.length ≤ ts.length := by
        have := readFields_rest_length_le ts
        rwa [h] at this
      let after := readLines rest
      { after with lines := Line.make keyword keywordSpan fields :: after.lines }
  | ts => { lines := [], missing := some .keyword, rest := ts }
termination_by ts => ts.length

/-! ## Results -/

/-- The fault of a place in a text. -/
def faultAt (source : String) (span : Span) (detail : String) : Fault :=
  .malformed detail span.line span.column (span.lineText source)

/-- The first unread token; with none left, the end of input. -/
def Reading.found (r : Reading) : Token :=
  r.rest.headD { kind := .inputEnd, span := default }

/-- The lines of a reading that came to the end, or the fault of the token that stopped it. -/
def Reading.result (r : Reading) (source : String) : Except Fault (List Line) :=
  match r.missing with
  | none => .ok r.lines
  | some e => .error (faultAt source r.found.span (e.message r.found.kind))

/-- The journal of a reading, kept also when it stopped short. -/
def Reading.journal (r : Reading) : List Note :=
  r.lines.map Line.note

/-- Reads a text. -/
def read (source : String) : Reading :=
  readLines (tokens source)

/-- Reads tokens again and again, each time from where the last reading stopped. -/
def rereadings : Nat → List Token → List Reading
  | 0, _ => []
  | n + 1, ts =>
    let r := readLines ts
    r :: rereadings n r.rest

/-- The first `count` readings of a text. -/
def readings (source : String) (count : Nat) : List Reading :=
  rereadings count (tokens source)

/-- The lines of a text. -/
def parseLines (source : String) : Except Fault (List Line) :=
  (read source).result source

end Playfield.Source
