/-
  Playfield.Encoding.Scheme — how bytes become characters in the legacy encodings that need no
  table or a short one.

  These are UTF-16, four code pages, and the two encodings that the standard made for a purpose.
  `Decoders.ofSchemes` decodes them and no others. The tables of the others are a decoding
  library's, and nothing here stands in for them.
-/

import Playfield.Encoding.Basic
import Playfield.Encoding.CodePage

namespace Playfield

inductive ByteOrder where
  | littleEndian
  | bigEndian
  deriving DecidableEq, Repr

inductive Scheme where
  | utf16 (order : ByteOrder)
  /-- One byte a character, by a table. -/
  | page (table : CodePage)
  /-- ASCII, and the bytes from 80 on as U+F780 to U+F7FF. -/
  | userDefined
  /-- Stands for encodings that must not be read: only the empty input is a text. -/
  | replacement
  deriving DecidableEq, Repr

namespace Scheme

/-! ## UTF-16 -/

/-- The 16-bit units of some bytes; an odd byte at the end is none. -/
def units? (order : ByteOrder) : List UInt8 → Option (List Nat)
  | [] => some []
  | [_] => none
  | a :: b :: rest =>
    let unit := match order with
      | .littleEndian => a.toNat + 256 * b.toNat
      | .bigEndian => 256 * a.toNat + b.toNat
    (units? order rest).map (unit :: ·)

def isHighSurrogate (n : Nat) : Bool :=
  0xd800 ≤ n && n < 0xdc00

def isLowSurrogate (n : Nat) : Bool :=
  0xdc00 ≤ n && n < 0xe000

/-- The characters of some units. A high surrogate and a low one after it are one character;
any other surrogate is none. -/
def ofUnits? : List Nat → Option (List Char)
  | [] => some []
  | [u] => if isHighSurrogate u || isLowSurrogate u then none else some [Char.ofNat u]
  | u :: v :: rest =>
    if isHighSurrogate u then
      if isLowSurrogate v then
        (ofUnits? rest).map
          (Char.ofNat (0x10000 + 0x400 * (u - 0xd800) + (v - 0xdc00)) :: ·)
      else none
    else if isLowSurrogate u then none
    else (ofUnits? (v :: rest)).map (Char.ofNat u :: ·)

/-! ## All schemes -/

def byteOrderMark : Scheme → List UInt8
  | .utf16 .littleEndian => [0xff, 0xfe]
  | .utf16 .bigEndian => [0xfe, 0xff]
  | .page _ | .userDefined | .replacement => []

def decodeChars? (s : Scheme) (bytes : List UInt8) : Option (List Char) :=
  match s with
  | .utf16 order => (units? order bytes).bind ofUnits?
  | .page p => p.decode? bytes
  | .userDefined =>
    some (bytes.map fun b => Char.ofNat (if b < 0x80 then b.toNat else 0xf700 + b.toNat))
  | .replacement => if bytes.isEmpty then some [] else none

/-- The text that some bytes are, a byte order mark aside. -/
def decode? (s : Scheme) (bytes : List UInt8) : Option String :=
  (s.decodeChars? (Encoding.dropMark s.byteOrderMark bytes)).map String.ofList

/-- The scheme of an encoding, by its name. -/
def ofName? : String → Option Scheme
  | "ISO-8859-15" => some (.page .latin9)
  | "KOI8-R" => some (.page .koi8r)
  | "replacement" => some .replacement
  | "UTF-16BE" => some (.utf16 .bigEndian)
  | "UTF-16LE" => some (.utf16 .littleEndian)
  | "windows-1252" => some (.page .windows1252)
  | "windows-1253" => some (.page .windows1253)
  | "x-user-defined" => some .userDefined
  | _ => none

end Scheme

/-- Decoders of the encodings that have a scheme. They read nothing in the others. -/
def Decoders.ofSchemes : Decoders where
  legacy? e bytes := (Scheme.ofName? e.name).bind (·.decode? bytes)

end Playfield
