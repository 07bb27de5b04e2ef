/-
  Playfield.Proofs.Scene.Returns — line endings do not matter.

  A scene remembers of the places in a text only on which line a gadget or a ball was declared,
  and a fault of a declaration names only lines. So boards that differ in offsets are the same
  scene or have the same fault (`ofBoard_place`). With `Board.parse_crlf` this says of a text that
  a carriage return in front of every line feed changes nothing: neither the scene nor, but for
  the column of a fault at a line feed, the fault (`line_endings_keep_outcome`). Lines and columns
  are counted without a limit; 32 bits are enough for those of both texts when the one with the
  carriage returns has fewer than 2^32 - 1 characters (`Lossless.counters`).
-/

import Playfield.Proofs.Board.Returns
import Playfield.Scene.Draft

namespace Playfield

open Board (Declaration Form Header)
open Source (Span crlf)

/-! ## Boards without offsets -/

namespace Draft

theorem kindOf_place (form : Form) : kindOf (form.mapSpan Span.place) = kindOf form := by
  cases form with
  | triangleBumper orientation => cases orientation <;> rfl
  | flipper side orientation => cases orientation <;> rfl
  | _ => rfl

theorem perform_place (x : Declaration) : perform (x.mapSpan Span.place) = perform x := by
  cases x with
  | gadget form name px py span =>
    have hgadget : gadgetOf (form.mapSpan Span.place) (name.mapSpan Span.place)
        (px.mapSpan Span.place) (py.mapSpan Span.place) span.place =
          gadgetOf form name px py span := by
      unfold gadgetOf
      rw [kindOf_place]
      rfl
    rw [Declaration.mapSpan, perform, hgadget]
    rfl
  | ball => rfl
  | fire => rfl

theorem applyAll_place (d : Draft) (declarations : List Declaration) :
    d.applyAll (declarations.map (·.mapSpan Span.place)) = d.applyAll declarations := by
  have happly (d : Draft) (x : Declaration) : d.apply (x.mapSpan Span.place) = d.apply x := by
    rw [apply, perform_place]
    rfl
  unfold applyAll
  rw [List.foldlM_map]
  simp only [happly]

theorem finish_place (d : Draft) (settings : Settings) (header : Header) :
    d.finish settings (header.mapSpan Span.place) = d.finish settings header := by
  obtain ⟨name, gravity, friction1, friction2, span⟩ := header
  cases name <;> cases gravity <;> cases friction1 <;> cases friction2 <;> rfl

end Draft

namespace Scene

theorem ofBoard_place (settings : Settings) (b : Board) :
    ofBoard settings (b.mapSpan Span.place) = ofBoard settings b := by
  unfold ofBoard Board.mapSpan
  simp only [Draft.applyAll_place, Draft.finish_place]

/-- The scene of a text is that of its board without offsets. -/
theorem ofText_eq_place (settings : Settings) (source : String) :
    ofText settings source =
      (Board.parse source).map (Board.mapSpan Span.place) >>= ofBoard settings := by
  rw [ofText]
  cases Board.parse source with
  | error why => rfl
  | ok b => exact (ofBoard_place settings b).symm

/-- With a carriage return in front of every line feed a text is the same scene, declaring lines
included, or has the same fault: of the same kind, on the same line, saying and showing the same.
Only where the reader stops at a line feed the column goes up by one, and the fault is then shown
at that line feed. All these lines and columns fit in 32 bits if the text with the carriage returns
has fewer than 2^32 - 1 characters. -/
theorem line_endings_keep_outcome (settings : Settings) (source : String) :
    let found := (Source.read source).found
    ofText settings (crlf source) = (ofText settings source).mapError
        (Fault.moveColumn (if found.kind = .lineEnd then 1 else 0)) ∧
      (found.kind = .lineEnd → ∃ detail, ofText settings source =
        .error (.malformed detail found.span.line found.span.column
          (found.span.lineText source))) := by
  intro found
  refine ⟨?_, ?_⟩
  · show _ = (ofText settings source).mapError (Fault.moveColumn found.shift)
    rw [ofText_eq_place, ofText_eq_place, Board.parse_crlf]
    cases hparse : Board.parse source with
    | error why => rfl
    | ok b =>
      obtain ⟨lines, hlines, -⟩ := Board.parse_eq_ok_iff.1 hparse
      obtain ⟨hread, -⟩ := Source.parseLines_eq_ok_iff.1 hlines
      rw [Source.moveColumn_of_none hread]
      show ofBoard settings (b.mapSpan Span.place) =
        (ofBoard settings (b.mapSpan Span.place)).mapError id
      cases ofBoard settings (b.mapSpan Span.place) <;> rfl
  · intro hfeed
    cases hread : (Source.read source).missing with
    | none =>
      have hshift := Source.shift_found_of_none hread
      rw [Source.Token.shift, if_pos hfeed] at hshift
      cases hshift
    | some e =>
      refine ⟨e.message found.kind, ?_⟩
      rw [ofText, Board.parse_of_some hread]
      rfl

/-- The value that is missing at the end of a line is missed one column further, behind the
carriage return. A comment and stray carriage returns are in the text already. -/
example :
    let source := "board name=n # \r\n\r\nball name=a x=\r\r\n"
    let detail := "expected a value for 'x', found end of line"
    ofText {} source = .error (.malformed detail 3 17 "ball name=a x=") ∧
      ofText {} (crlf source) = .error (.malformed detail 3 18 "ball name=a x=") := by
  decide +kernel

end Scene

end Playfield
