/-
  Playfield.Files.Tree — a file system as a value.

  A tree gives places their nodes: files with their bytes, directories, and one device that is
  always full. A place is reached from the root or from the working directory by the parts of a
  path, and each part but the last has to be a directory on the way. Opening a directory to read
  it succeeds and reading it fails; creating a file where a directory is fails.

  A path has a limit, which is checked before anything else, and each name in it has one, which
  is checked when the name is looked up: a name behind a missing directory is never too long.
-/

import Playfield.Files.Access

namespace Playfield

inductive Node where
  | file (bytes : List UInt8)
  | directory
  /-- A device that takes no bytes. -/
  | full
  deriving DecidableEq, Repr

/-- The names on the way from the root. -/
abbrev Place : Type := List String

structure FileTree where
  nodes : List (Place × Node)
  workingDirectory : Place
  deriving Repr

namespace FileTree

/-- An empty working directory, in a system that has nothing but the full device. -/
def empty : FileTree :=
  { nodes :=
      [([], .directory), (["dev"], .directory), (["dev", "full"], .full),
        (["tmp"], .directory), (["tmp", "boards"], .directory)]
    workingDirectory := ["tmp", "boards"] }

def node? (t : FileTree) (p : Place) : Option Node :=
  (t.nodes.find? (·.1 == p)).map (·.2)

/-- The tree with `n` at a place. -/
def set (t : FileTree) (p : Place) (n : Node) : FileTree :=
  { t with nodes := (p, n) :: t.nodes.filter (·.1 != p) }

/-- The tree with nothing at a place or under it. -/
def clear (t : FileTree) (p : Place) : FileTree :=
  { t with nodes := t.nodes.filter (!p.isPrefixOf ·.1) }

/-! ## Paths -/

/-- The most bytes that a name may have. -/
def maxNameSize : Nat := 255

/-- The most bytes that a path may have. -/
def maxPathSize : Nat := 4095

/-- The parts of a path between its slashes. -/
def splitPath : List Char → List (List Char)
  | [] => [[]]
  | '/' :: cs => [] :: splitPath cs
  | c :: cs =>
    match splitPath cs with
    | [] => [[c]]
    | part :: parts => (c :: part) :: parts

def parts (path : String) : List String :=
  (splitPath path.toList).map String.ofList

/-- Where a path starts from, if it can be followed at all. The empty path leads nowhere. -/
def start (t : FileTree) (path : String) : Except OsError Place :=
  if path.toList.contains '\x00' then .error .zeroByte
  else if path.isEmpty then .error .notFound
  else if maxPathSize < path.utf8ByteSize then .error .nameTooLong
  else .ok (if path.toList.head? = some '/' then [] else t.workingDirectory)

/-- Goes one part further. Empty parts and `.` stay, `..` goes up, and all need a directory to
go from. -/
def step (t : FileTree) (p : Place) (part : String) : Except OsError Place :=
  match t.node? p with
  | none => .error .notFound
  | some .directory =>
    if part = "" ∨ part = "." then .ok p
    else if part = ".." then .ok p.dropLast
    else if maxNameSize < part.utf8ByteSize then .error .nameTooLong
    else .ok (p ++ [part])
  | some _ => .error .notDirectory

/-- The place a path leads to, whether anything is there or not. -/
def locate (t : FileTree) (path : String) : Except OsError Place := do
  (parts path).foldlM t.step (← t.start path)

/-- The parts of a path without its last name and the slashes behind it. -/
def parentParts (path : String) : List String :=
  ((parts path).reverse.dropWhile (· == "")).tail.reverse

/-- The place where a file of this path is created. A path that ends in a slash can only be a
directory, which is said when the way to its last name has been followed. -/
def locateNew (t : FileTree) (path : String) : Except OsError Place := do
  if path.toList.getLast? = some '/' then
    let parent ← (parentParts path).foldlM t.step (← t.start path)
    let _ ← t.step parent ""
    throw .isDirectory
  t.locate path

/-! ## Operations -/

/-- The bytes of the file at a path. -/
def read (t : FileTree) (path : String) : Except (Failure ReadStage) (List UInt8) :=
  match t.locate path with
  | .error cause => .error { stage := .opening, cause }
  | .ok p =>
    match t.node? p with
    | none => .error { stage := .opening, cause := .notFound }
    | some (.file bytes) => .ok bytes
    | some .directory => .error { stage := .reading, cause := .isDirectory }
    | some .full => .error { stage := .reading, cause := .noSpace }

/-- Writes of fewer bytes than this reach the device only when they are flushed. -/
def bufferSize : Nat := 8192

/-- Writes a file whole. -/
def write (t : FileTree) (path : String) (bytes : List UInt8) :
    Except (Failure WriteStage) Unit × FileTree :=
  match t.locateNew path with
  | .error cause => (.error { stage := .creating, cause }, t)
  | .ok p =>
    match t.node? p with
    | some .directory => (.error { stage := .creating, cause := .isDirectory }, t)
    | some .full =>
      let stage := if bytes.length < bufferSize then .flushing else .writing
      (.error { stage, cause := .noSpace }, t)
    | some (.file _) | none => (.ok (), t.set p (.file bytes))

/-- Goes one part further and makes a directory where nothing is. -/
def makeStep : Place × FileTree → String → Except OsError (Place × FileTree)
  | (p, t), part => do
    let p ← t.step p part
    match t.node? p with
    | none => return (p, t.set p .directory)
    | some _ => return (p, t)

/-- The tree with a directory at a path, and with those on the way. -/
def makeDirectory (t : FileTree) (path : String) : Except OsError FileTree := do
  let (p, t) ← (parts path).foldlM makeStep (← t.start path, t)
  let _ ← t.step p ""
  return t

/-- The tree with a file at a path, and with the directories on the way to it. -/
def makeFile (t : FileTree) (path : String) (bytes : List UInt8) : Except OsError FileTree := do
  let (_, t) ← (parentParts path).foldlM makeStep (← t.start path, t)
  match t.write path bytes with
  | (.ok (), t) => return t
  | (.error failure, _) => throw failure.cause

def remove (t : FileTree) (path : String) : Except OsError FileTree := do
  return t.clear (← t.locate path)

instance : FileAccess (StateM FileTree) where
  read path := fun t => (t.read path, t)
  write path bytes := fun t => t.write path bytes

end FileTree

end Playfield
