/-
  Playfield.Text.Quoted — names in double quotes, as error messages show them.
-/

import Playfield.Text.Unprintable

namespace Playfield.Text

/-- One character of a quoted name. Quotes and backslashes are escaped, the common control
characters have letters of their own, and other unprintable characters are written by number. -/
def escape (c : Char) : String :=
  if c = '"' then "\\\""
  else if c = '\\' then "\\\\"
  else if c = '\n' then "\\n"
  else if c = '\r' then "\\r"
  else if c = '\t' then "\\t"
  else if c.toNat = 0 then "\\0"
  else if isUnprintable c then "\\u\x7b" ++ String.ofList (Nat.toDigits 16 c.toNat) ++ "\x7d"
  else String.singleton c

/-- A name in double quotes. -/
def quoted (name : String) : String :=
  "\"" ++ String.join (name.toList.map escape) ++ "\""

end Playfield.Text
