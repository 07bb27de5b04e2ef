/-
  Playfield.Source.Span — places in a board's text.

  A position counts bytes of the UTF-8 text from 0 and lines and columns from 1; a column is
  one character wide, whatever the character, and only a line feed ends a line. A span is the
  stretch between two positions, with the line and column it starts on.

  Lines and columns are counted without a limit. Neither gets further than one beyond the number
  of characters (`Lossless.counters`), so whoever counts them in 32 bits gets the same in every
  text of fewer than 2^32 - 1 characters.
-/

namespace Playfield.Source

structure Position where
  offset : Nat := 0
  line : Nat := 1
  column : Nat := 1
  deriving DecidableEq, Repr

/-- The position behind one character. -/
def Position.step (p : Position) (c : Char) : Position :=
  if c = '\n' then { offset := p.offset + c.utf8Size, line := p.line + 1, column := 1 }
  else { offset := p.offset + c.utf8Size, line := p.line, column := p.column + 1 }

/-- The position behind some characters. -/
def Position.advance (p : Position) (cs : List Char) : Position :=
  cs.foldl Position.step p

/-- The bytes from `start` up to but not including `stop`. -/
structure Span where
  start : Nat
  stop : Nat
  line : Nat
  column : Nat
  deriving DecidableEq, Repr

instance : Inhabited Span := ⟨{ start := 0, stop := 0, line := 1, column := 1 }⟩

/-- The span between two positions. -/
def Position.upto (p q : Position) : Span :=
  { start := p.offset, stop := q.offset, line := p.line, column := p.column }

/-- From the start of one span to the end of another. -/
def Span.join (a b : Span) : Span :=
  { a with stop := b.stop }

/-! ## The line around an offset -/

/-- A text cut at a byte offset; an offset inside a character cuts behind it. -/
def cutAt : List Char → Nat → List Char × List Char
  | [], _ => ([], [])
  | c :: cs, 0 => ([], c :: cs)
  | c :: cs, n + 1 =>
    let (before, after) := cutAt cs (n + 1 - c.utf8Size)
    (c :: before, after)

/-- The line of a text that holds a byte offset, without its line feed and without carriage
returns at its end. An offset beyond the text means its last line. -/
def lineAt (text : List Char) (offset : Nat) : List Char :=
  let (before, after) := cutAt text offset
  let start := (before.reverse.takeWhile (· ≠ '\n')).reverse
  let line := start ++ after.takeWhile (· ≠ '\n')
  (line.reverse.dropWhile (· == '\r')).reverse

/-- The whole source line that a span starts on. -/
def Span.lineText (s : Span) (source : String) : String :=
  String.ofList (lineAt source.toList s.start)

end Playfield.Source
