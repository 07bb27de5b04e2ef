/-
  Playfield.Files.Board — boards from files, and packed scenes to and from files.

  Loading a board is reading the file, decoding its text and building the scene; whatever goes
  wrong on the way is reported with the path. The text of a legacy encoding is what the decoders
  say. Saving and loading a packed scene reports the fault alone.
-/

import Playfield.Files.Access
import Playfield.Encoding.Basic
import Playfield.Scene.Draft
import Playfield.Packed.Envelope

namespace Playfield.Files

/-! ## Messages -/

def ioFault (doing path : String) (cause : OsError) : Fault :=
  .io ("failed to " ++ doing ++ " file '" ++ path ++ "': " ++ cause.message)

/-! ## Boards -/

/-- The text of a file's bytes. Failing to open and failing to read are not told apart. -/
def textOf (decoders : Decoders) (path : String) (e : Encoding)
    (contents : Except (Failure ReadStage) (List UInt8)) : Except Fault String :=
  match contents with
  | .ok bytes => e.decode decoders bytes
  | .error failure => .error (ioFault "read" path failure.cause)

/-- The scene of a file's bytes. -/
def sceneOf (decoders : Decoders) (path : String) (e : Encoding) (settings : Settings)
    (contents : Except (Failure ReadStage) (List UInt8)) : Except Report Scene :=
  match textOf decoders path e contents with
  | .error fault => .error (fault.within path)
  | .ok text => (Scene.ofText settings text).mapError (·.within path)

/-- The journal of loading a board. -/
def journalOf (decoders : Decoders) (path : String) (e : Encoding) (settings : Settings)
    (contents : Except (Failure ReadStage) (List UInt8)) : List Note :=
  { level := .debug, text := "loading " ++ path ++ " as " ++ e.name } ::
    match textOf decoders path e contents with
    | .error _ => []
    | .ok text => Scene.ofTextJournal settings text

/-- The scene of a packed scene's bytes. -/
def packedSceneOf (path : String) (contents : Except (Failure ReadStage) (List UInt8)) :
    Except Fault Scene :=
  match contents with
  | .error failure => .error (ioFault failure.stage.verb path failure.cause)
  | .ok bytes => (Scene.unpack bytes).mapError Packed.Refusal.fault

variable {m : Type → Type} [Monad m] [FileAccess m]

def readText (decoders : Decoders) (path : String) (e : Encoding) : m (Except Fault String) := do
  return textOf decoders path e (← FileAccess.read path)

def loadBoard (decoders : Decoders) (path : String) (e : Encoding) (settings : Settings) :
    m (Except Report Scene) := do
  return sceneOf decoders path e settings (← FileAccess.read path)

def loadBoardJournal (decoders : Decoders) (path : String) (e : Encoding) (settings : Settings) :
    m (List Note) := do
  return journalOf decoders path e settings (← FileAccess.read path)

/-! ## Packed scenes -/

def loadScene (path : String) : m (Except Fault Scene) := do
  return packedSceneOf path (← FileAccess.read path)

def saveScene (path : String) (s : Scene) : m (Except Fault Unit) := do
  match ← FileAccess.write path s.pack with
  | .ok () => return .ok ()
  | .error failure => return .error (ioFault failure.stage.verb path failure.cause)

/-- The note that a scene that was saved leaves. -/
def savedNote (path : String) (s : Scene) : Note :=
  { level := .info, text := "saved scene " ++ s.name ++ " to " ++ path }

end Playfield.Files
