/-
  Playfield.Source.Scan — from text to tokens.

  White space other than the line feed separates tokens and is dropped; everything else of the
  text belongs to exactly one token. A token takes as many characters as its class allows:

    name     [A-Za-z_][A-Za-z_0-9]*
    number   -?([0-9]+(\.[0-9]*)?|\.[0-9]+)
    comment  # up to the end of the line
    =, line feed

  and a character that starts none of these is an invalid token of its own. The end of the
  text is a token too, the last one of `tokens`; reading on from there gives it again.
-/

import Playfield.Source.Token
import Playfield.Text.Blank

namespace Playfield.Source

/-! ## One token -/

/-- A token at the front of a text: its kind, its characters and what follows them. -/
structure Lexeme where
  kind : Token.Kind
  text : List Char
  rest : List Char

def isNameStart (c : Char) : Bool :=
  c.isAlpha || c == '_'

def isNameChar (c : Char) : Bool :=
  isNameStart c || c.isDigit

/-- Whether a number without a sign starts here: a digit, or a point and a digit. -/
def startsNumber : List Char → Bool
  | '.' :: c :: _ => c.isDigit
  | c :: _ => c.isDigit
  | [] => false

/-- The number without a sign at the front of a text. -/
def unsigned (cs : List Char) : List Char :=
  match cs.dropWhile Char.isDigit with
  | '.' :: rest => cs.takeWhile Char.isDigit ++ '.' :: rest.takeWhile Char.isDigit
  | _ => cs.takeWhile Char.isDigit

/-- What follows the number without a sign at the front of a text. -/
def afterUnsigned (cs : List Char) : List Char :=
  match cs.dropWhile Char.isDigit with
  | '.' :: rest => rest.dropWhile Char.isDigit
  | rest => rest

/-- The number at the front of a text, behind the given sign: with a point it is a decimal,
without one an integer. -/
def numeral (sign cs : List Char) : Lexeme :=
  let text := sign ++ unsigned cs
  { kind := if text.contains '.' then .decimal (String.ofList text)
      else .integer (String.ofList text)
    text
    rest := afterUnsigned cs }

/-- The token at the front of `c :: cs`, where `c` is no white space to skip. -/
def lexeme (c : Char) (cs : List Char) : Lexeme :=
  if c = '\n' then { kind := .lineEnd, text := [c], rest := cs }
  else if c = '=' then { kind := .equals, text := [c], rest := cs }
  else if c = '#' then
    let text := c :: cs.takeWhile (· ≠ '\n')
    { kind := .comment (String.ofList (Text.trimEnd text)), text
      rest := cs.dropWhile (· ≠ '\n') }
  else if c = '-' then
    if startsNumber cs then numeral [c] cs
    else { kind := .invalid .bareMinus, text := [c], rest := cs }
  else if startsNumber (c :: cs) then numeral [] (c :: cs)
  else if c = '.' then { kind := .invalid .barePoint, text := [c], rest := cs }
  else if isNameStart c then
    let text := c :: cs.takeWhile isNameChar
    { kind := .name (String.ofList text), text, rest := cs.dropWhile isNameChar }
  else { kind := .invalid (.stray c), text := [c], rest := cs }

theorem unsigned_append_after (cs : List Char) : unsigned cs ++ afterUnsigned cs = cs := by
  have hw : cs.takeWhile Char.isDigit ++ cs.dropWhile Char.isDigit = cs :=
    List.takeWhile_append_dropWhile
  unfold unsigned afterUnsigned
  split
  · next rest h =>
    rw [h] at hw
    simp [List.takeWhile_append_dropWhile, hw]
  · exact hw

theorem unsigned_ne_nil {cs : List Char} (h : startsNumber cs = true) : unsigned cs ≠ [] := by
  unfold unsigned
  match cs with
  | [] => simp [startsNumber] at h
  | c :: cs =>
    by_cases hc : c.isDigit
    · split <;> simp [hc]
    · have hdot : c = '.' := by
        unfold startsNumber at h
        split at h
        · next heq => simp at heq; exact heq.1
        · next heq => simp at heq; obtain ⟨rfl, _⟩ := heq; exact absurd h hc
        · simp at h
      subst hdot
      simp [show Char.isDigit '.' = false from rfl]

/-- A token and what follows it are the text: nothing is lost. -/
theorem lexeme_text_append_rest (c : Char) (cs : List Char) :
    (lexeme c cs).text ++ (lexeme c cs).rest = c :: cs := by
  unfold lexeme
  repeat' split
  all_goals simp [numeral, unsigned_append_after, List.takeWhile_append_dropWhile]

/-- A token has at least one character. -/
theorem lexeme_text_ne_nil (c : Char) (cs : List Char) : (lexeme c cs).text ≠ [] := by
  unfold lexeme
  repeat' split
  all_goals first | exact unsigned_ne_nil ‹_› | simp [numeral]

theorem lexeme_rest_length_lt (c : Char) (cs : List Char) :
    (lexeme c cs).rest.length < (c :: cs).length := by
  have h := congrArg List.length (lexeme_text_append_rest c cs)
  have := List.length_pos_iff.2 (lexeme_text_ne_nil c cs)
  rw [List.length_append] at h
  omega

/-! ## All tokens -/

/-- White space that separates tokens: any but the line feed. -/
def isGap (c : Char) : Bool :=
  Text.isBlank c && c ≠ '\n'

/-- A place in a text and the characters from there on. -/
structure Cursor where
  position : Position
  rest : List Char

/-- The beginning of a text. -/
def Cursor.ofString (source : String) : Cursor :=
  { position := {}, rest := source.toList }

/-- The cursor at the next character that belongs to a token. -/
def Cursor.skipGap (cur : Cursor) : Cursor :=
  { position := cur.position.advance (cur.rest.takeWhile isGap), rest := cur.rest.dropWhile isGap }

/-- The next token and the cursor behind it. At the end of the text that is the end of input,
and the cursor stays. -/
def Cursor.next (cur : Cursor) : Token × Cursor :=
  let start := cur.skipGap
  match start.rest with
  | [] => ({ kind := .inputEnd, span := start.position.upto start.position }, start)
  | c :: cs =>
    let lx := lexeme c cs
    let stop := start.position.advance lx.text
    ({ kind := lx.kind, span := start.position.upto stop }, { position := stop, rest := lx.rest })

/-- The next `n` tokens. -/
def Cursor.take (cur : Cursor) : Nat → List Token
  | 0 => []
  | n + 1 => cur.next.1 :: cur.next.2.take n

theorem length_dropWhile_le {α : Type} (p : α → Bool) (l : List α) :
    (l.dropWhile p).length ≤ l.length :=
  (List.dropWhile_suffix p).length_le

theorem Cursor.next_rest_length_lt {cur : Cursor} (h : cur.skipGap.rest ≠ []) :
    cur.next.2.rest.length < cur.rest.length := by
  match hr : cur.skipGap.rest with
  | [] => exact absurd hr h
  | c :: cs =>
    have h1 : cur.next.2.rest = (lexeme c cs).rest := by simp only [Cursor.next, hr]
    have h2 := lexeme_rest_length_lt c cs
    have h3 : (c :: cs).length ≤ cur.rest.length := by
      rw [← hr]; exact length_dropWhile_le _ _
    rw [h1]
    omega

/-- The tokens from a cursor on, the end of input last. -/
def Cursor.tokens (cur : Cursor) : List Token :=
  if h : cur.skipGap.rest = [] then [cur.next.1]
  else
    have := cur.next_rest_length_lt h
    cur.next.1 :: cur.next.2.tokens
termination_by cur.rest.length

/-- All tokens of a text, the end of input last. -/
def tokens (source : String) : List Token :=
  (Cursor.ofString source).tokens

end Playfield.Source
