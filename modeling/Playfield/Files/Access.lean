/-
  Playfield.Files.Access — what the library asks of a file system.

  Files are read and written whole. A failure says how far the operation came and what the
  operating system answered, for the messages tell an unopened file from an unreadable one.
-/

namespace Playfield

/-- An error of the operating system: its number and what it is called. Only a path that the
system cannot even be asked about is refused without a number. -/
structure OsError where
  code : Option UInt32 := none
  text : String
  deriving DecidableEq, Repr

namespace OsError

def message (e : OsError) : String :=
  match e.code with
  | some code => e.text ++ " (os error " ++ toString code.toNat ++ ")"
  | none => e.text

def notFound : OsError := { code := some 2, text := "No such file or directory" }
def notDirectory : OsError := { code := some 20, text := "Not a directory" }
def isDirectory : OsError := { code := some 21, text := "Is a directory" }
def noSpace : OsError := { code := some 28, text := "No space left on device" }
def nameTooLong : OsError := { code := some 36, text := "File name too long" }

/-- No path holds a zero byte. -/
def zeroByte : OsError := { text := "file name contained an unexpected NUL byte" }

end OsError

/-- Where reading a file stopped. -/
inductive ReadStage where
  | opening
  | reading
  deriving DecidableEq, Repr

/-- What a message calls the stage. -/
def ReadStage.verb : ReadStage → String
  | .opening => "open"
  | .reading => "read"

/-- Where writing a file stopped. -/
inductive WriteStage where
  | creating
  | writing
  | flushing
  deriving DecidableEq, Repr

def WriteStage.verb : WriteStage → String
  | .creating => "create"
  | .writing => "write to"
  | .flushing => "flush"

/-- What failed: the stage, and the operating system's answer. -/
structure Failure (Stage : Type) where
  stage : Stage
  cause : OsError
  deriving DecidableEq, Repr

/-- A place where files are read and written by path. -/
class FileAccess (m : Type → Type) where
  read : String → m (Except (Failure ReadStage) (List UInt8))
  /-- Makes the file, or empties it, and writes the bytes. -/
  write : String → List UInt8 → m (Except (Failure WriteStage) Unit)

end Playfield
