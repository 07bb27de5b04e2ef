/-
  Playfield.Source.Token — the words of a board's text.

  Numbers keep the text they were written with; what they are worth is decided when a
  declaration is read into the scene.
-/

import Playfield.Source.Span

namespace Playfield.Source

/-- Why a character is no token of the language. -/
inductive Blemish where
  | bareMinus
  | barePoint
  | stray (c : Char)
  deriving DecidableEq, Repr

def Blemish.message : Blemish → String
  | .bareMinus => "expected digit after '-'"
  | .barePoint => "expected digit after '.'"
  | .stray c => "unexpected character: " ++ String.singleton c

namespace Token

inductive Kind where
  | name (text : String)
  | integer (text : String)
  | decimal (text : String)
  | equals
  | lineEnd
  /-- A comment with its `#`, without the white space at its end. -/
  | comment (text : String)
  | inputEnd
  | invalid (blemish : Blemish)
  deriving DecidableEq, Repr

/-- What messages call a token of this kind. -/
def Kind.label : Kind → String
  | .name _ => "name"
  | .integer _ => "integer"
  | .decimal _ => "float"
  | .equals => "'='"
  | .lineEnd => "end of line"
  | .comment _ => "comment"
  | .inputEnd => "end of input"
  | .invalid _ => "error"

def Kind.isComment : Kind → Bool
  | .comment _ => true
  | _ => false

end Token

/-- A token and where it stands. -/
structure Token where
  kind : Token.Kind
  span : Span
  deriving DecidableEq, Repr

end Playfield.Source
