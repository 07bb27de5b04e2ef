/-
  Playfield.Main — the command line on the real file system, with the decoders that are at hand:
  a program that is linked with a decoding library passes its decoders to `Command.run` instead.
-/

import Playfield.Command.Run
import Playfield.Encoding.Scheme

namespace Playfield

/-- The number and name of an operating system's error, or what else went wrong. -/
def OsError.ofError : IO.Error → OsError
  | .alreadyExists _ code text | .resourceBusy code text | .resourceVanished code text
  | .unsupportedOperation code text | .hardwareFault code text
  | .unsatisfiedConstraints code text | .illegalOperation code text | .protocolError code text
  | .timeExpired code text | .interrupted _ code text | .noFileOrDirectory _ code text
  | .invalidArgument _ code text | .permissionDenied _ code text | .resourceExhausted _ code text
  | .inappropriateType _ code text | .noSuchThing _ code text | .otherError code text =>
    { code := some code, text }
  | .userError text => { text }
  | .unexpectedEof => { text := "unexpected end of file" }

/-- Does one stage of an operation on a file. -/
def atStage {Stage α : Type} (stage : Stage) (act : IO α) : ExceptT (Failure Stage) IO α :=
  .mk do
    try return .ok (← act)
    catch e => return .error { stage, cause := OsError.ofError e }

instance : FileAccess IO where
  read path := ExceptT.run do
    let file ← atStage ReadStage.opening (IO.FS.Handle.mk path .read)
    let bytes ← atStage ReadStage.reading file.readBinToEnd
    return bytes.data.toList
  write path bytes := ExceptT.run do
    let file ← atStage WriteStage.creating (IO.FS.Handle.mk path .write)
    atStage WriteStage.writing (file.write ⟨bytes.toArray⟩)
    atStage WriteStage.flushing file.flush

end Playfield

def main (arguments : List String) : IO UInt32 := do
  let outcome ← (Playfield.Command.run .ofSchemes arguments : IO Playfield.Command.Outcome)
  (← IO.getStdout).putStr outcome.stdout
  (← IO.getStderr).putStr outcome.stderr
  return outcome.code
