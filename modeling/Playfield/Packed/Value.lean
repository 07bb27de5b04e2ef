/-
  Playfield.Packed.Value — MessagePack values and their bytes.

  `Value.write` always takes the shortest head a length or a whole number has. `Value.read`
  takes every head the format knows and gives back what follows the value, so values can stand
  one after the other; it refuses a value whose arrays, maps and extensions nest deeper than it
  is told. Text and keys are kept as bytes: whether they are UTF-8 is for the reader of a field
  to say.
-/

import Playfield.Binary64.Basic

namespace Playfield.Packed

inductive Value where
  | nil
  | bool (b : Bool)
  /-- A whole number written without a sign. -/
  | uint (n : UInt64)
  /-- A whole number written with a sign. -/
  | int (i : Int64)
  | float32 (bits : UInt32)
  | float64 (x : Binary64)
  | str (bytes : List UInt8)
  | bin (bytes : List UInt8)
  | array (items : List Value)
  | map (entries : List (Value × Value))
  /-- An application's own type: its tag and then its bytes. -/
  | ext (bytes : List UInt8)

/-! ## Nesting -/

mutual

/-- How many arrays, maps and extensions stand around the innermost part of a value. -/
def Value.nesting : Value → Nat
  | .array items => itemsNesting items + 1
  | .map entries => entriesNesting entries + 1
  | .ext _ => 1
  | _ => 0

def itemsNesting : List Value → Nat
  | [] => 0
  | v :: items => max v.nesting (itemsNesting items)

def entriesNesting : List (Value × Value) → Nat
  | [] => 0
  | (key, v) :: entries => max (max key.nesting v.nesting) (entriesNesting entries)

end

/-! ## Words -/

/-- The last `width` bytes of a number, the highest first. -/
def bigEndian : Nat → Nat → List UInt8
  | 0, _ => []
  | width + 1, n => UInt8.ofNat (n >>> (8 * width)) :: bigEndian width n

/-- A negative number in `width` bytes, counted from the end of what they hold. -/
def signedBytes (width : Nat) (i : Int) : List UInt8 :=
  bigEndian width (i + (1 <<< (8 * width) : Nat)).toNat

def ofBigEndian (bytes : List UInt8) : Nat :=
  bytes.foldl (fun n b => 256 * n + b.toNat) 0

/-- A number of `width` bytes read with a sign. -/
def signed (width n : Nat) : Int :=
  if n < 1 <<< (8 * width - 1) then n else (n : Int) - (1 <<< (8 * width) : Nat)

/-- Splits off `n` bytes; fails when there are fewer. -/
def takeBytes : Nat → List UInt8 → Option (List UInt8 × List UInt8)
  | 0, bytes => some ([], bytes)
  | _ + 1, [] => none
  | n + 1, b :: bytes => (takeBytes n bytes).map fun (taken, rest) => (b :: taken, rest)

/-- Splits off a word of `width` bytes. -/
def takeWord (width : Nat) (bytes : List UInt8) : Option (Nat × List UInt8) :=
  (takeBytes width bytes).map fun (taken, rest) => (ofBigEndian taken, rest)

/-! ## Writing -/

/-- A number behind a tag: in two bytes, or in four behind the next tag. -/
def wideHead (tag : UInt8) (n : Nat) : List UInt8 :=
  if n < 0x10000 then tag :: bigEndian 2 n else (tag + 1) :: bigEndian 4 n

/-- A number behind a tag: in one byte, or in two or four behind the next tags. -/
def sizedHead (tag : UInt8) (n : Nat) : List UInt8 :=
  if n < 0x100 then tag :: bigEndian 1 n else wideHead (tag + 1) n

def writeUInt (n : UInt64) : List UInt8 :=
  let n := n.toNat
  if n < 0x80 then [UInt8.ofNat n]
  else if n < 0x100000000 then sizedHead 0xcc n
  else 0xcf :: bigEndian 8 n

/-- A number that is not negative is written without a sign. -/
def writeInt (i : Int64) : List UInt8 :=
  let i := i.toInt
  if 0 ≤ i then writeUInt (UInt64.ofNat i.toNat)
  else if -0x20 ≤ i then signedBytes 1 i
  else if -0x80 ≤ i then 0xd0 :: signedBytes 1 i
  else if -0x8000 ≤ i then 0xd1 :: signedBytes 2 i
  else if -0x80000000 ≤ i then 0xd2 :: signedBytes 4 i
  else 0xd3 :: signedBytes 8 i

def strHead (length : Nat) : List UInt8 :=
  if length < 0x20 then [UInt8.ofNat (0xa0 + length)] else sizedHead 0xd9 length

def binHead (length : Nat) : List UInt8 :=
  sizedHead 0xc4 length

def arrayHead (length : Nat) : List UInt8 :=
  if length < 0x10 then [UInt8.ofNat (0x90 + length)] else wideHead 0xdc length

def mapHead (length : Nat) : List UInt8 :=
  if length < 0x10 then [UInt8.ofNat (0x80 + length)] else wideHead 0xde length

/-- The head of an extension, whose tag is not counted. -/
def extHead (length : Nat) : List UInt8 :=
  sizedHead 0xc7 length

mutual

def Value.write : Value → List UInt8
  | .nil => [0xc0]
  | .bool b => [if b then 0xc3 else 0xc2]
  | .uint n => writeUInt n
  | .int i => writeInt i
  | .float32 bits => 0xca :: bigEndian 4 bits.toNat
  | .float64 x => 0xcb :: bigEndian 8 x.bits.toNat
  | .str bytes => strHead bytes.length ++ bytes
  | .bin bytes => binHead bytes.length ++ bytes
  | .array items => arrayHead items.length ++ writeItems items
  | .map entries => mapHead entries.length ++ writeEntries entries
  | .ext bytes => extHead (bytes.length - 1) ++ bytes

def writeItems : List Value → List UInt8
  | [] => []
  | v :: items => v.write ++ writeItems items

def writeEntries : List (Value × Value) → List UInt8
  | [] => []
  | (key, v) :: entries => key.write ++ v.write ++ writeEntries entries

end

/-! ## Reading -/

/-- What the first bytes of a value say: all of it, or how many parts follow. -/
inductive Head where
  | whole (v : Value)
  | ext (bytes : List UInt8)
  | array (length : Nat)
  | map (length : Nat)

def readWhole (f : Nat → Value) (width : Nat) (bytes : List UInt8) : Option (Head × List UInt8) :=
  (takeWord width bytes).map fun (n, rest) => (.whole (f n), rest)

/-- Bytes whose count is known. -/
def readBytes (f : List UInt8 → Head) (length : Nat) (bytes : List UInt8) :
    Option (Head × List UInt8) :=
  (takeBytes length bytes).map fun (taken, rest) => (f taken, rest)

/-- Something whose length is written in `width` bytes. -/
def readSized (f : Nat → List UInt8 → Option (Head × List UInt8)) (width : Nat)
    (bytes : List UInt8) : Option (Head × List UInt8) :=
  match takeWord width bytes with
  | some (length, rest) => f length rest
  | none => none

def readStr (length : Nat) : List UInt8 → Option (Head × List UInt8) :=
  readBytes (fun bytes => .whole (.str bytes)) length

def readBin (length : Nat) : List UInt8 → Option (Head × List UInt8) :=
  readBytes (fun bytes => .whole (.bin bytes)) length

/-- An extension of `length` bytes behind its tag. -/
def readExt (length : Nat) : List UInt8 → Option (Head × List UInt8) :=
  readBytes .ext (length + 1)

def readUInt : Nat → List UInt8 → Option (Head × List UInt8) :=
  readWhole fun n => .uint (UInt64.ofNat n)

def readInt (width : Nat) : List UInt8 → Option (Head × List UInt8) :=
  readWhole (fun n => .int (Int64.ofInt (signed width n))) width

def readHead : List UInt8 → Option (Head × List UInt8)
  | [] => none
  | b :: rest =>
    let n := b.toNat
    if n < 0x80 then some (.whole (.uint (UInt64.ofNat n)), rest)
    else if n < 0x90 then some (.map (n - 0x80), rest)
    else if n < 0xa0 then some (.array (n - 0x90), rest)
    else if n < 0xc0 then readStr (n - 0xa0) rest
    else if 0xe0 ≤ n then some (.whole (.int (Int64.ofInt ((n : Int) - 0x100))), rest)
    else match n with
      | 0xc0 => some (.whole .nil, rest)
      | 0xc2 => some (.whole (.bool false), rest)
      | 0xc3 => some (.whole (.bool true), rest)
      | 0xc4 => readSized readBin 1 rest
      | 0xc5 => readSized readBin 2 rest
      | 0xc6 => readSized readBin 4 rest
      | 0xc7 => readSized readExt 1 rest
      | 0xc8 => readSized readExt 2 rest
      | 0xc9 => readSized readExt 4 rest
      | 0xca => readWhole (fun n => .float32 (UInt32.ofNat n)) 4 rest
      | 0xcb => readWhole (fun n => .float64 ⟨UInt64.ofNat n⟩) 8 rest
      | 0xcc => readUInt 1 rest
      | 0xcd => readUInt 2 rest
      | 0xce => readUInt 4 rest
      | 0xcf => readUInt 8 rest
      | 0xd0 => readInt 1 rest
      | 0xd1 => readInt 2 rest
      | 0xd2 => readInt 4 rest
      | 0xd3 => readInt 8 rest
      | 0xd4 => readExt 1 rest
      | 0xd5 => readExt 2 rest
      | 0xd6 => readExt 4 rest
      | 0xd7 => readExt 8 rest
      | 0xd8 => readExt 16 rest
      | 0xd9 => readSized readStr 1 rest
      | 0xda => readSized readStr 2 rest
      | 0xdb => readSized readStr 4 rest
      | 0xdc => readSized (fun n rest => some (.array n, rest)) 2 rest
      | 0xdd => readSized (fun n rest => some (.array n, rest)) 4 rest
      | 0xde => readSized (fun n rest => some (.map n, rest)) 2 rest
      | 0xdf => readSized (fun n rest => some (.map n, rest)) 4 rest
      | _ => none

/-- Reads `n` things one after the other. -/
def readMany {α : Type} (f : List UInt8 → Option (α × List UInt8)) :
    Nat → List UInt8 → Option (List α × List UInt8)
  | 0, bytes => some ([], bytes)
  | n + 1, bytes =>
    match f bytes with
    | none => none
    | some (x, rest) => (readMany f n rest).map fun (xs, rest) => (x :: xs, rest)

/-- Reads a key and its value. -/
def readPair {α : Type} (f : List UInt8 → Option (α × List UInt8)) (bytes : List UInt8) :
    Option ((α × α) × List UInt8) :=
  match f bytes with
  | none => none
  | some (key, rest) => (f rest).map fun (v, rest) => ((key, v), rest)

/-- Reads a value in which arrays, maps and extensions nest at most `depth` deep. -/
def Value.read : Nat → List UInt8 → Option (Value × List UInt8)
  | 0, bytes =>
    match readHead bytes with
    | some (.whole v, rest) => some (v, rest)
    | _ => none
  | depth + 1, bytes =>
    match readHead bytes with
    | none => none
    | some (.whole v, rest) => some (v, rest)
    | some (.ext taken, rest) => some (.ext taken, rest)
    | some (.array n, rest) =>
      (readMany (Value.read depth) n rest).map fun (items, rest) => (.array items, rest)
    | some (.map n, rest) =>
      (readMany (readPair (Value.read depth)) n rest).map fun (entries, rest) =>
        (.map entries, rest)

end Playfield.Packed
