/-
  Playfield.Packed.Envelope — a scene as bytes, with the version of the format.

  The envelope is a record of a version and a scene. It is read entry by entry: a scene is
  looked through for flaws as soon as it has been read, before anything behind it, and the
  version is compared when the whole envelope is there. Bytes behind the envelope do not count.
-/

import Playfield.Packed.Scene

namespace Playfield

open Packed

namespace Packed

/-- The one version that is written and accepted. -/
def formatVersion : UInt32 := 1

def envelopeFields : List String := ["version", "scene"]

/-- How deep the values inside an envelope may nest. -/
def maxDepth : Nat := 1022

/-- Why bytes are no packed scene. -/
inductive Refusal where
  | malformed
  | flawed (flaw : Scene.Flaw)
  | version (found : UInt32)
  deriving DecidableEq, Repr

def Refusal.fault : Refusal → Fault
  | .malformed => .packing none
  | .flawed flaw => .packing (some flaw.message)
  | .version found =>
    .packing (some ("unsupported scene format version " ++ toString found.toNat ++ " (expected "
      ++ toString formatVersion.toNat ++ ")"))

/-! ## Writing -/

/-- An envelope of any version. -/
def ofEnvelope (version : UInt32) (s : Scene) : Value :=
  ofRecord envelopeFields [ofUInt32 version, ofScene s]

/-! ## Reading -/

def orMalformed {α : Type} : Option α → Except Refusal α
  | some x => .ok x
  | none => .error .malformed

/-- What has been read of an envelope. -/
structure Envelope where
  version : Option UInt32 := none
  scene : Option Scene := none

def readVersion (bytes : List UInt8) : Except Refusal (UInt32 × List UInt8) := do
  let (v, rest) ← orMalformed (Value.read maxDepth bytes)
  return (← orMalformed (uint32? v), rest)

/-- Reads a scene and looks for its flaws. The map of a choice takes no room, and at most one
stands around a value that is passed over, so bytes may nest one deeper than the scene has room;
how deep they do is then measured where a value is passed over. -/
def readScene (bytes : List UInt8) : Except Refusal (Scene × List UInt8) := do
  let (v, rest) ← orMalformed (Value.read (maxDepth + 1) bytes)
  let s ← orMalformed (scene? maxDepth v)
  match s.flaw? with
  | some flaw => throw (.flawed flaw)
  | none => return (s, rest)

/-- Reads a key and the value behind it. -/
def Envelope.readEntry (e : Envelope) (bytes : List UInt8) :
    Except Refusal (Envelope × List UInt8) := do
  let (key, rest) ← orMalformed (Value.read maxDepth bytes)
  match ← orMalformed (slot? envelopeFields key) with
  | some 0 =>
    if e.version.isSome then throw .malformed
    let (version, rest) ← readVersion rest
    return ({ e with version := some version }, rest)
  | some _ =>
    if e.scene.isSome then throw .malformed
    let (scene, rest) ← readScene rest
    return ({ e with scene := some scene }, rest)
  | none =>
    let (_, rest) ← orMalformed (Value.read maxDepth rest)
    return (e, rest)

/-- Reads the entries of an envelope that is a map. -/
def Envelope.readEntries : Nat → Envelope → List UInt8 → Except Refusal Envelope
  | 0, e, _ => .ok e
  | n + 1, e, bytes =>
    match e.readEntry bytes with
    | .ok (e, rest) => readEntries n e rest
    | .error why => .error why

/-- Reads an envelope that is an array. -/
def Envelope.readItems (length : Nat) (bytes : List UInt8) : Except Refusal Envelope := do
  if length < 1 then throw .malformed
  let (version, rest) ← readVersion bytes
  if length < 2 then throw .malformed
  let (scene, _) ← readScene rest
  if 2 < length then throw .malformed
  return { version := some version, scene := some scene }

def Envelope.read (bytes : List UInt8) : Except Refusal Envelope :=
  match readHead bytes with
  | some (.map n, rest) => readEntries n {} rest
  | some (.array n, rest) => readItems n rest
  | _ => .error .malformed

end Packed

namespace Scene

/-- The bytes of a scene. -/
def pack (s : Scene) : List UInt8 :=
  (ofEnvelope formatVersion s).write

/-- The scene that some bytes are. -/
def unpack (bytes : List UInt8) : Except Refusal Scene := do
  let e ← Envelope.read bytes
  match e.version, e.scene with
  | some version, some scene =>
    if version = formatVersion then return scene else throw (.version version)
  | _, _ => throw .malformed

end Scene

end Playfield
