/-
  Playfield.Command.Run — the command line: what it prints and what it writes.

  Boards are checked in the order of the arguments, up to the first that fails. A summary is
  printed for each board that loads; the scene is saved after its summary. A failure goes to
  standard error and makes the exit code 1.
-/

import Playfield.Command.Options
import Playfield.Files.Board

namespace Playfield.Command

/-! ## Texts -/

def lines (texts : List String) : String :=
  String.join (texts.map (· ++ "\n"))

def versionText : String :=
  "pingboard 0.1.0\n"

def helpText : String := lines [
  "\x1b[1mPingboard\x1b[0m - Board file checker",
  "",
  "\x1b[1mUSAGE:\x1b[0m",
  "    pingboard [OPTIONS] <FILES...>",
  "",
  "\x1b[1mARGUMENTS:\x1b[0m",
  "    <FILES...>    Board files to parse and summarize",
  "",
  "\x1b[1mOPTIONS:\x1b[0m",
  "    -h, --help           Print help information",
  "    -V, --version        Print version information",
  "    --frame-rate N       Frames per second used for the time step (default 20)",
  "    --encoding LABEL     Board file encoding, any WHATWG label such as utf-8,",
  "                         windows-1252 or shift_jis (default utf-8)",
  "    --save PATH          Write the built scene as MessagePack (one file only)",
  "",
  "\x1b[1mEXAMPLES:\x1b[0m",
  "    pingboard default.pb                 Check one board",
  "    pingboard a.pb b.pb                  Check several boards",
  "    pingboard --save out.msgpack a.pb    Check a board and save its scene",
  "",
  "Set RUST_LOG=debug to trace every declaration."]

def item (text : String) : String :=
  "  - " ++ text

/-- What is printed of a scene. -/
def summary (s : Scene) : String := lines (
  ["\x1b[1;36m=== " ++ s.name ++ " ===\x1b[0m",
    "Gravity: " ++ s.gravity.text,
    "Friction: mu1=" ++ s.friction1.text ++ " mu2=" ++ s.friction2.text,
    "Time step: " ++ s.timeStep.text ++ "s",
    "Gadgets: " ++ toString s.registry.size]
  ++ s.registry.toList.map (item ·.text)
  ++ ["Triggers: " ++ toString s.wiring.edgeCount]
  ++ s.wiring.edges.map (fun (trigger, action) => item (trigger ++ " -> " ++ action))
  ++ ["Balls: " ++ toString s.balls.length]
  ++ s.balls.map (item ·.text)
  ++ [""])

def savedText (path : String) : String :=
  "Saved to " ++ path ++ "\n"

def errorText (message : String) : String :=
  "\x1b[31mError: " ++ message ++ "\x1b[0m\n"

/-! ## Running -/

/-- What a run leaves behind, the files aside. -/
structure Outcome where
  code : UInt32 := 0
  stdout : String := ""
  stderr : String := ""
  deriving DecidableEq, Repr

def Outcome.failed (stdout message : String) : Outcome :=
  { code := 1, stdout, stderr := errorText message }

variable {m : Type → Type} [Monad m] [FileAccess m]

/-- Checks boards one after the other; `printed` is what has been printed so far. -/
def check (decoders : Decoders) (encoding : Encoding) (settings : Settings)
    (save : Option String) : String → List String → m Outcome
  | printed, [] => return { stdout := printed }
  | printed, board :: boards => do
    match ← Files.loadBoard decoders board encoding settings with
    | .error report => return .failed printed report.message
    | .ok s =>
      let printed := printed ++ summary s
      match save with
      | none => check decoders encoding settings save printed boards
      | some path =>
        match ← Files.saveScene path s with
        | .error fault => return .failed printed fault.message
        | .ok () => check decoders encoding settings save (printed ++ savedText path) boards

/-- Runs the command line with some arguments. -/
def run (decoders : Decoders) (arguments : List String) : m Outcome :=
  match request arguments with
  | .error e => return .failed "" e.message
  | .ok .help => return { stdout := helpText }
  | .ok .version => return { stdout := versionText }
  | .ok (.check boards encoding settings save) =>
    check decoders encoding settings save "" boards

end Playfield.Command
