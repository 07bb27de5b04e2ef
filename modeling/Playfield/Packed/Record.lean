/-
  Playfield.Packed.Record — records, choices, names and numbers as MessagePack values.

  A record is written as a map from the names of its fields, in their order. It is read from
  such a map with its keys in any order, or from an array of exactly its fields. A key may also
  be the number of a field; a key that is none of the fields is passed over with its value, but
  a field that is missing or given twice, or a key of another type, is an error. A choice is its
  tag alone or, with a payload, a map of one entry from the tag.

  Where a list or a record is expected, a binary string is a run of small numbers, one for each
  byte; a record takes as many of them as it has fields and leaves the rest.

  Readers are told the room they have: how deep what they read may nest. Only what is passed
  over can exceed it, since a field's own shape nests no deeper than it says.
-/

import Playfield.Packed.Value
import Playfield.NameMap
import Playfield.Text.Utf8

namespace Playfield.Packed

/-! ## Names -/

def ofName (s : String) : Value :=
  .str (Text.utf8 s)

def name? : Value → Option String
  | .str bytes | .bin bytes => Text.ofUtf8? bytes
  | _ => none

/-- Which of some names a key or tag stands for. The outer `none` is a key of the wrong type,
the inner one a key that is none of them. -/
def slot? (names : List String) : Value → Option (Option Nat)
  | .str bytes | .bin bytes => some (names.findIdx? fun name => Text.utf8 name == bytes)
  | .uint n => some (if n.toNat < names.length then some n.toNat else none)
  | _ => none

/-! ## Numbers -/

def ofUInt32 (n : UInt32) : Value :=
  .uint n.toUInt64

def ofInt32 (i : Int32) : Value :=
  if 0 ≤ i.toInt then .uint (UInt64.ofNat i.toInt.toNat) else .int i.toInt64

/-- A whole number, however it is written. -/
def whole? : Value → Option Int
  | .uint n => some n.toNat
  | .int i => some i.toInt
  | _ => none

def uint32? (v : Value) : Option UInt32 :=
  match whole? v with
  | some n => if 0 ≤ n ∧ n < 0x100000000 then some (UInt32.ofNat n.toNat) else none
  | none => none

def int32? (v : Value) : Option Int32 :=
  match whole? v with
  | some n => if -0x80000000 ≤ n ∧ n < 0x80000000 then some (Int32.ofInt n) else none
  | none => none

/-- A number of any kind, rounded to the nearest double-precision one. -/
def float? : Value → Option Binary64
  | .float64 x => some x
  | .float32 bits => some (.ofBinary32 bits)
  | v => (whole? v).map .ofInt

/-- What a byte of a binary string stands for in a list or a record: a number, which is never
taken for the number of a tag. -/
def ofByte (b : UInt8) : Value :=
  .int (Int64.ofNat b.toNat)

/-! ## Records -/

def ofRecord (names : List String) (values : List Value) : Value :=
  .map ((names.map ofName).zip values)

/-- The one value that a field is given. -/
def only? (entries : List (Option Nat × Value)) (field : Nat) : Option Value :=
  match entries.filter (·.1 == some field) with
  | [(_, v)] => some v
  | _ => none

/-- Whether an entry is a field's, or can be passed over inside a map that has some room. -/
def fits (room : Nat) : Option Nat × Value → Bool
  | (some _, _) => true
  | (none, v) => v.nesting < room

/-- The values of a record's fields, in order. -/
def record? (room : Nat) (names : List String) : Value → Option (List Value)
  | .array items => if items.length = names.length then some items else none
  | .bin bytes =>
    if names.length ≤ bytes.length then some ((bytes.take names.length).map ofByte) else none
  | .map entries =>
    match entries.mapM fun (key, v) => (slot? names key).map (·, v) with
    | some entries =>
      if entries.all (fits room) then (List.range names.length).mapM (only? entries) else none
    | none => none
  | _ => none

/-! ## Choices -/

def ofChoice (tag : String) (payload : Value) : Value :=
  .map [(ofName tag, payload)]

/-- The number of the tag among `tags`, and the payload if there is one. The map around a
payload takes no room. -/
def choice? (tags : List String) (v : Value) : Option (Nat × Option Value) :=
  match v with
  | .map [(tag, payload)] => (slot? tags tag).join.map (·, some payload)
  | .map _ => none
  | tag => (slot? tags tag).join.map (·, none)

/-- Whether a payload says nothing: it is left out or nil. -/
def isBare : Option Value → Bool
  | none | some .nil => true
  | _ => false

/-! ## Collections -/

def list? {α : Type} (f : Value → Option α) : Value → Option (List α)
  | .array items => items.mapM f
  | .bin bytes => (bytes.map ofByte).mapM f
  | _ => none

def ofNameMap {α : Type} (f : α → Value) (m : NameMap α) : Value :=
  .map (m.entries.map fun (name, x) => (ofName name, f x))

/-- A map from names; of two entries with the same name the later one counts. -/
def nameMap? {α : Type} (f : Value → Option α) : Value → Option (NameMap α)
  | .map entries =>
    (entries.mapM fun (key, v) =>
      match name? key, f v with
      | some name, some x => some (name, x)
      | _, _ => none).map .ofList
  | _ => none

end Playfield.Packed
