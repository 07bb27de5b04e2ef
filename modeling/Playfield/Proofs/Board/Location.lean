/-
  Playfield.Proofs.Board.Location — where the declarations of a board stand in its text.

  A declaration keeps the span of its line and the literals of its values, and all of them are on
  the source line that its keyword is written on (`located_of_parse`). The header and the
  declarations are on different source lines, in order. So a line number taken from any part of
  a declaration names that declaration, and a smaller one names something in front of it.
-/

import Playfield.Proofs.Board.Grammar
import Playfield.Proofs.Source.Numbering

namespace Playfield

open Source (Literal Line Numbered Span)
open String (utf8Len)

/-- The word is written where the span starts, behind as many bytes and lines as it says. -/
def Source.Span.StartsWith (s : Span) (source word : String) : Prop :=
  ∃ before after, source.toList = before ++ word.toList ++ after ∧ s.start = utf8Len before ∧
    s.line = 1 + before.count '\n'

namespace Board

/-- The header and the declarations are on source lines of their own, each written where its span
says, with all its literals on the same line. -/
structure Located (source : String) (board : Board) : Prop where
  ordered : (board.header.span :: board.declarations.map (·.span)).Pairwise (·.line < ·.line)
  header : board.header.span.StartsWith source boardKeyword
  declarations : ∀ x ∈ board.declarations, x.span.StartsWith source x.keyword.text
  headerFields : ∀ key l, (key, some l) ∈ board.header.fields → l.line = board.header.span.line
  fields : ∀ x ∈ board.declarations, ∀ key l, (key, some l) ∈ x.fields → l.line = x.span.line

/-! ## One line -/

theorem Declaration.span_of_ofLine {line : Line} {d : Declaration} (h : ofLine line = .ok d) :
    d.span = line.span := by
  unfold ofLine at h
  split at h
  · cases h
  rename_i keyword _
  obtain ⟨_, -, h⟩ := bind_eq_ok_iff.1 h
  have hgadget {form : Except Misplaced Form} (h : gadgetOfLine line form = .ok d) :
      d.span = line.span := by
    obtain ⟨_, _, _, _, _, _, _, _, rfl⟩ := gadgetOfLine_eq_ok_iff.1 h
    rfl
  cases keyword with
  | ball =>
    simp only [bind_eq_ok_iff, require_eq_ok_iff, pure_eq_ok_iff] at h
    obtain ⟨_, _, _, _, _, _, _, _, _, _, rfl⟩ := h
    rfl
  | fire =>
    simp only [bind_eq_ok_iff, require_eq_ok_iff, pure_eq_ok_iff] at h
    obtain ⟨_, _, _, _, rfl⟩ := h
    rfl
  | squareBumper => exact hgadget h
  | circleBumper => exact hgadget h
  | triangleBumper => exact hgadget h
  | flipper side => exact hgadget h
  | absorber => exact hgadget h

/-- A header holds what its line gives. -/
theorem Header.of_ofLine {line : Line} {header : Header} (h : ofLine line = .ok header) :
    ∀ e ∈ header.fields, line.value? e.1 = e.2 := by
  obtain ⟨-, -, rfl⟩ := Header.ofLine_eq_ok_iff.1 h
  simp [fields]

/-- A value of a numbered line is on that line. -/
theorem line_of_value? {lines : List Line} (h : Numbered lines) {line : Line} (hline : line ∈ lines)
    {key : String} {l : Literal} (hl : line.value? key = some l) : l.line = line.span.line := by
  obtain ⟨f, hf, rfl⟩ := Option.map_eq_some_iff.1 hl
  have hmem : f ∈ line.fields := List.mem_of_find?_eq_some hf
  exact h.within line hline _ (Line.mem_spans_iff.2 (.inr ⟨f, hmem, .inr rfl⟩))

theorem text_of_name {word : String} {text : List Char}
    (h : Source.Spells (.name word) text) : text = word.toList := by
  generalize hkind : Source.Token.Kind.name word = kind at h
  cases h with
  | name text =>
    rw [Source.Token.Kind.name.inj hkind, String.toList_ofList]
  | _ => cases hkind

/-- A line that was read starts with its keyword. -/
theorem startsWith_of_mem {source : String} {line : Line} (h : line ∈ (Source.read source).lines) :
    line.span.StartsWith source line.keyword := by
  obtain ⟨hkeyword, -⟩ := Source.names_of_readLines h
  obtain ⟨before, text, after, hsource, hstands⟩ :=
    (Source.tiles_tokens source).exists_stands hkeyword
  have hword := text_of_name hstands.spells
  have hspan := congrArg Line.span (Source.eq_make_of_readLines h)
  refine ⟨before, after, hword ▸ hsource, ?_, ?_⟩
  · rw [hspan]
    exact hstands.start
  · rw [hspan]
    exact hstands.line

/-! ## The lines of a board -/

theorem map_eq_of_forall₂ {α β γ : Type} {R : α → β → Prop} {f : α → γ} {g : β → γ} {l : List α}
    {l' : List β} (h : List.Forall₂ R l l') (hfg : ∀ a b, R a b → g b = f a) :
    l'.map g = l.map f := by
  induction h with
  | nil => rfl
  | cons hab _ ih => rw [List.map_cons, List.map_cons, hfg _ _ hab, ih]

/-- A board that was parsed is of the lines of its text. -/
theorem exists_lines_of_parse {source : String} {board : Board} (h : parse source = .ok board) :
    ∃ first rest, (Source.read source).lines = first :: rest ∧
      Header.ofLine first = .ok board.header ∧
        List.Forall₂ (fun line d => Declaration.ofLine line = .ok d) rest board.declarations := by
  obtain ⟨lines, hlines, hboard⟩ := parse_eq_ok_iff.1 h
  obtain ⟨first, rest, rfl, hheader, hdeclarations⟩ := ofLines_eq_ok_iff.1 hboard
  obtain ⟨-, hread⟩ := Source.parseLines_eq_ok_iff.1 hlines
  exact ⟨first, rest, hread, hheader, hdeclarations⟩

theorem located_of_parse {source : String} {board : Board} (h : parse source = .ok board) :
    Located source board := by
  obtain ⟨first, rest, hread, hheader, hdeclarations⟩ := exists_lines_of_parse h
  have hnumbered := Source.read_numbered source
  have hmem {line : Line} (hline : line ∈ first :: rest) :
      line.span.StartsWith source line.keyword := startsWith_of_mem (hread ▸ hline)
  rw [hread] at hnumbered
  obtain ⟨hkeyword, -, hfields⟩ := Header.ofLine_eq_ok_iff.1 hheader
  have hspan : board.header.span = first.span := by rw [hfields]
  have hspans : board.declarations.map (·.span) = rest.map (·.span) :=
    map_eq_of_forall₂ hdeclarations fun _ _ => Declaration.span_of_ofLine
  have hline {x : Declaration} (hx : x ∈ board.declarations) :
      ∃ line ∈ rest, Declaration.ofLine line = .ok x :=
    exists_of_mem_forall₂ (R := fun line d => Declaration.ofLine line = .ok d) hdeclarations hx
  refine ⟨?_, ?_, fun x hx => ?_, fun key l hl => ?_, fun x hx key l hl => ?_⟩
  · rw [hspan, hspans, ← List.map_cons (f := Line.span), List.pairwise_map]
    exact hnumbered.ordered
  · rw [hspan, ← hkeyword]
    exact hmem List.mem_cons_self
  · obtain ⟨line, hrest, hx⟩ := hline hx
    obtain ⟨hkeyword, -⟩ := Declaration.of_ofLine hx
    rw [Declaration.span_of_ofLine hx, hkeyword]
    exact hmem (List.mem_cons_of_mem first hrest)
  · rw [hspan]
    exact line_of_value? hnumbered List.mem_cons_self (Header.of_ofLine hheader _ hl)
  · obtain ⟨line, hrest, hx⟩ := hline hx
    obtain ⟨-, -, hvalues⟩ := Declaration.of_ofLine hx
    rw [Declaration.span_of_ofLine hx]
    exact line_of_value? hnumbered (List.mem_cons_of_mem first hrest) (hvalues _ hl)

end Board

end Playfield
