import Playfield.Binary64.Basic
import Playfield.Binary64.Shortest
import Playfield.Text.Blank
import Playfield.Text.Numeral
import Playfield.Text.Quoted
import Playfield.Text.Unprintable
import Playfield.Text.Utf8
import Playfield.Journal
import Playfield.Fault
import Playfield.NameMap
import Playfield.Settings
import Playfield.Source.Span
import Playfield.Source.Token
import Playfield.Source.Scan
import Playfield.Source.Line
import Playfield.Board.Production
import Playfield.Board.Declaration
import Playfield.Board.Basic
import Playfield.Scene.Vec
import Playfield.Scene.Gadget
import Playfield.Scene.Ball
import Playfield.Scene.Registry
import Playfield.Scene.Wiring
import Playfield.Scene.Basic
import Playfield.Scene.Decode
import Playfield.Scene.Draft
import Playfield.Packed.Value
import Playfield.Packed.Record
import Playfield.Packed.Scene
import Playfield.Packed.Envelope
import Playfield.Encoding.Basic
import Playfield.Encoding.CodePage
import Playfield.Encoding.Scheme
import Playfield.Files.Access
import Playfield.Files.Tree
import Playfield.Files.Board
import Playfield.Command.Options
import Playfield.Command.Run
import Playfield.Main
import Playfield.Proofs.NameMap
import Playfield.Proofs.Result
import Playfield.Proofs.Scene.Wiring
import Playfield.Proofs.Scene.Integer
import Playfield.Proofs.Scene.Worth
import Playfield.Proofs.Scene.Walk
import Playfield.Proofs.Scene.Depiction
import Playfield.Proofs.Text.Utf8
import Playfield.Proofs.Packed.Value
import Playfield.Proofs.Packed.Record
import Playfield.Proofs.Packed.Scene
import Playfield.Proofs.Packed.Envelope
import Playfield.Proofs.Source.Scan
import Playfield.Proofs.Source.Grammar
import Playfield.Proofs.Board.Production
import Playfield.Proofs.Board.Grammar
import Playfield.Proofs.Binary64
import Playfield.Proofs.Settings
import Playfield.Proofs.Scene.Made
import Playfield.Proofs.Packed.RoundTrip
import Playfield.Proofs.Scene.Order
import Playfield.Proofs.Source.Lossless
import Playfield.Proofs.Source.Layout
import Playfield.Proofs.Source.Places
import Playfield.Proofs.Source.Composition
import Playfield.Proofs.Source.Numbering
import Playfield.Proofs.Board.Layout
import Playfield.Proofs.Scene.Layout
import Playfield.Proofs.Board.FirstFault
import Playfield.Proofs.Board.Location
import Playfield.Proofs.Packed.Truncation
import Playfield.Proofs.Scene.Blame
import Playfield.Proofs.Scene.Size
import Playfield.Proofs.Board.Context
import Playfield.Proofs.Source.Viable
import Playfield.Proofs.Files.Tree
import Playfield.Proofs.Command.Options
import Playfield.Proofs.Command.Run
import Playfield.Proofs.Text.Order
import Playfield.Proofs.Scene.Views
import Playfield.Proofs.Source.Munch
import Playfield.Proofs.Source.Resume
import Playfield.Proofs.Source.Returns
import Playfield.Proofs.Board.Places
import Playfield.Proofs.Board.Returns
import Playfield.Proofs.Scene.Returns
import Playfield.Proofs.Source.Numeral
import Playfield.Proofs.Scene.Limits
import Playfield.Proofs.Files.Board
