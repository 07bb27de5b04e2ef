/-
  Playfield.Board.Basic — a whole board: the header and the declarations after it, in order.

  `parse` reads all lines first and then looks at them one by one. So a token that does not fit
  comes before every production: it is the fault of the text even behind a line that is no
  declaration (`token_hides_misfit`). In a text whose lines can all be read, the first line that
  fits no production is the fault.
-/

import Playfield.Board.Declaration

namespace Playfield

open Source Board

structure Board where
  header : Header
  declarations : List Declaration
  deriving DecidableEq, Repr

namespace Board

/-- The end of a text, as the place of what is missing from it. -/
def endOf (source : String) : Span :=
  { start := source.utf8ByteSize, stop := source.utf8ByteSize, line := 1, column := 1 }

/-- The board that the lines of a text are. -/
def ofLines (source : String) : List Line → Except Misplaced Board
  | [] => throw { misfit := .noBoard, span := endOf source }
  | first :: rest => do
    if first.keyword ≠ boardKeyword then
      throw { misfit := .boardFirst first.keyword, span := first.keywordSpan }
    let header ← Header.ofLine first
    let declarations ← rest.mapM Declaration.ofLine
    return { header, declarations }

/-- The board that a text describes. -/
def parse (source : String) : Except Fault Board := do
  let lines ← parseLines source
  match ofLines source lines with
  | .ok board => return board
  | .error m => throw (m.fault source)

/-- The journal of `parse`: a note for every line that was read. -/
def parseJournal (source : String) : List Note :=
  (read source).journal

end Board

end Playfield
