/-
  Playfield.Command.Options — the arguments of the command line.

  Arguments are taken from left to right, and the first one that is wrong is the one reported.
  Asking for help or for the version may stand anywhere and makes everything else irrelevant,
  except a wrong argument; help comes before the version.
-/

import Playfield.Encoding.Basic
import Playfield.Settings
import Playfield.Text.Numeral

namespace Playfield.Command

/-- Why arguments are rejected. -/
inductive UsageError where
  | frameRateMissing
  | badFrameRate (value : String)
  | encodingMissing
  | badEncoding (label : String)
  | savePathMissing
  | unknownOption (argument : String)
  | noBoards
  | saveNeedsOneBoard
  deriving DecidableEq, Repr

def UsageError.message : UsageError → String
  | .frameRateMissing => "--frame-rate requires a value"
  | .badFrameRate value => "invalid --frame-rate value: " ++ value
  | .encodingMissing => "--encoding requires a value"
  | .badEncoding label => Encoding.unsupported label
  | .savePathMissing => "--save requires a path"
  | .unknownOption argument => "unknown option: " ++ argument
  | .noBoards => "no board files given (try --help)"
  | .saveNeedsOneBoard => "--save needs exactly one board file"

/-- What the arguments say. -/
structure Options where
  boards : List String := []
  help : Bool := false
  version : Bool := false
  settings : Settings := {}
  encoding : Encoding := .utf8
  save : Option String := none

/-- The settings with a frame rate given in decimal digits, perhaps after a plus sign. -/
def withFrameRate? (settings : Settings) (value : String) : Option Settings :=
  let digits := match value.toList with
    | '+' :: digits => digits
    | digits => digits
  if digits.isEmpty || !digits.all Char.isDigit then none
  else
    let rate := Text.digitsValue digits
    if rate < UInt32.size then
      if h : 0 < (UInt32.ofNat rate).toNat then
        some (settings.withFrameRate (UInt32.ofNat rate) h)
      else none
    else none

/-- Takes the arguments one by one. -/
def Options.take : Options → List String → Except UsageError Options
  | o, [] => .ok o
  | o, "-h" :: rest => take { o with help := true } rest
  | o, "--help" :: rest => take { o with help := true } rest
  | o, "-V" :: rest => take { o with version := true } rest
  | o, "--version" :: rest => take { o with version := true } rest
  | _, ["--frame-rate"] => .error .frameRateMissing
  | o, "--frame-rate" :: value :: rest =>
    match withFrameRate? o.settings value with
    | some settings => take { o with settings } rest
    | none => .error (.badFrameRate value)
  | _, ["--encoding"] => .error .encodingMissing
  | o, "--encoding" :: label :: rest =>
    match Encoding.ofLabel? label with
    | some encoding => take { o with encoding } rest
    | none => .error (.badEncoding label)
  | _, ["--save"] => .error .savePathMissing
  | o, "--save" :: path :: rest => take { o with save := some path } rest
  | o, argument :: rest =>
    if argument.toList.head? = some '-' then .error (.unknownOption argument)
    else take { o with boards := o.boards ++ [argument] } rest

/-- What the command line is asked to do. -/
inductive Request where
  | help
  | version
  /-- Check the boards, and save the scene of the one board if there is a path for it. -/
  | check (boards : List String) (encoding : Encoding) (settings : Settings)
      (save : Option String)

/-- The request that some arguments are. -/
def request (arguments : List String) : Except UsageError Request := do
  let o ← Options.take {} arguments
  if o.help then return .help
  if o.version then return .version
  if o.boards.isEmpty then throw .noBoards
  if o.save.isSome && o.boards.length != 1 then throw .saveNeedsOneBoard
  return .check o.boards o.encoding o.settings o.save

end Playfield.Command
