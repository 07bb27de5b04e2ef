/-
  Playfield.Proofs.Board.Returns — carriage returns in front of line feeds and the board of a text.

  The tokens of the two texts stand on the same lines and, line feeds apart, in the same columns
  (`Source.tokens_crlf`), and neither the reader nor the productions look at places. So one text
  is a board when the other is, and then the same board but for offsets. If they are none, the
  faults say the same of the same line, and a fault at a line feed has moved with it.

  What such a fault shows is looked up by offset, and the offsets have all changed. But it is the
  line of the token's number (`shownLine?_of_mem`), and the lines of the two texts are the same up
  to the carriage returns at their ends, which are not shown (`shownLine?_crlf`). Both together
  are `parse_crlf`.
-/

import Playfield.Proofs.Board.Context
import Playfield.Proofs.Board.Places
import Playfield.Proofs.Source.Resume
import Playfield.Proofs.Source.Returns

namespace Playfield

/-- The fault some columns further. -/
def Fault.moveColumn (n : Nat) : Fault → Fault
  | .malformed detail line column context => .malformed detail line (column + n) context
  | why => why

theorem Fault.moveColumn_zero (why : Fault) : why.moveColumn 0 = why := by
  cases why <;> rfl

namespace Source

/-! ## The lines that are shown -/

/-- What is shown of the line with a number. -/
def shownLine? (source : String) (n : Nat) : Option String :=
  (sourceLine? source n).map fun line => .ofList (withoutReturns line)

theorem map_withoutReturns_splitOn (cs : List Char) :
    ((withReturns cs).splitOn '\n').map withoutReturns = (cs.splitOn '\n').map withoutReturns := by
  induction cs using Board.lines_induction with
  | last line hline => rw [withReturns_of_not_mem hline]
  | cons line rest hline ih =>
    have hline' : '\n' ∉ line ++ ['\r'] := by simp [hline]
    have hreturn : withoutReturns (line ++ ['\r']) = withoutReturns line :=
      List.rdropWhile_concat_pos _ _ _ (by simp)
    rw [withReturns_feed hline, List.append_cons, Board.splitOn_cons_line hline',
      Board.splitOn_cons_line hline, List.map_cons, List.map_cons, hreturn, ih]

/-- The same is shown of the lines with the same number. -/
theorem shownLine?_crlf (source : String) (n : Nat) :
    shownLine? (crlf source) n = shownLine? source n := by
  cases n with
  | zero => rfl
  | succ n =>
    have hlines := congrArg (·[n]?) (map_withoutReturns_splitOn source.toList)
    simp only [List.getElem?_map] at hlines
    have hshown := congrArg (Option.map String.ofList) hlines
    rw [Option.map_map, Option.map_map] at hshown
    rw [shownLine?, sourceLine?, crlf, String.toList_ofList]
    exact hshown

/-- A fault at a token shows the line of the token's number. -/
theorem shownLine?_of_mem {source : String} {t : Token} (ht : t ∈ tokens source) :
    shownLine? source t.span.line = some (t.span.lineText source) := by
  obtain ⟨-, hshows⟩ := showsItsLine_of_mem ht ""
  rw [faultAt] at hshows
  generalize t.span.lineText source = context at hshows ⊢
  cases hshows with
  | mk _ hline _ _ => rw [shownLine?, hline, Option.map_some]

/-- The end of a text shows its last line. -/
theorem shownLine?_endOf (source : String) :
    shownLine? source (source.toList.count '\n' + 1) =
      some ((Board.endOf source).lineText source) := by
  have hlast := lineAt_append_start source.toList []
  have hline := getElem?_splitOn_count source.toList []
  rw [List.append_nil, String.utf8Len_toList] at hlast
  rw [List.append_nil] at hline
  rw [shownLine?, sourceLine?, hline, Option.map_some, Span.lineText, Board.endOf, hlast]

theorem count_withReturns (cs : List Char) : (withReturns cs).count '\n' = cs.count '\n' := by
  induction cs using Board.lines_induction with
  | last line hline => rw [withReturns_of_not_mem hline]
  | cons line rest hline ih =>
    have hline' : '\n' ∉ line ++ ['\r'] := by simp [hline]
    rw [withReturns_feed hline, List.append_cons, Board.count_cons_line hline',
      Board.count_cons_line hline, ih]

theorem lineText_endOf_crlf (source : String) :
    (Board.endOf (crlf source)).lineText (crlf source) =
      (Board.endOf source).lineText source := by
  have hshown := shownLine?_endOf (crlf source)
  have hcount : (crlf source).toList.count '\n' = source.toList.count '\n' := by
    rw [crlf, String.toList_ofList, count_withReturns]
  rw [hcount, shownLine?_crlf, shownLine?_endOf] at hshown
  exact (Option.some.inj hshown).symm

/-! ## Faults -/

/-- Two tokens on the same line show the same. -/
theorem lineText_crlf {source : String} {t t' : Token} (ht : t ∈ tokens source)
    (ht' : t' ∈ tokens (crlf source)) (hline : t'.span.line = t.span.line) :
    t'.span.lineText (crlf source) = t.span.lineText source := by
  have hshown := shownLine?_of_mem ht'
  rw [shownLine?_crlf, hline, shownLine?_of_mem ht] at hshown
  exact (Option.some.inj hshown).symm

/-- By how many columns a token moves. -/
def Token.shift (t : Token) : Nat :=
  if t.kind = .lineEnd then 1 else 0

theorem Token.of_behindReturn {t t' : Token} (h : t'.mapSpan Span.place = t.behindReturn) :
    t'.kind = t.kind ∧ t'.span.line = t.span.line ∧ t'.span.column = t.span.column + t.shift := by
  obtain ⟨kind, s⟩ := t
  obtain ⟨kind', s'⟩ := t'
  unfold Token.behindReturn at h
  unfold Token.shift
  split at h
  · next hfeed =>
    rw [if_pos hfeed]
    simp only [Token.mapSpan, Span.place, Token.mk.injEq, Span.mk.injEq] at h
    obtain ⟨hkind, -, -, hline, hcolumn⟩ := h
    exact ⟨hkind, hline, hcolumn⟩
  · next hfeed =>
    rw [if_neg hfeed]
    simp only [Token.mapSpan, Span.place, Token.mk.injEq, Span.mk.injEq] at h
    obtain ⟨hkind, -, -, hline, hcolumn⟩ := h
    exact ⟨hkind, hline, hcolumn⟩

/-- The two texts are read alike. -/
theorem read_crlf (source : String) :
    (read (crlf source)).lines.map (·.mapSpan Span.place) =
        (read source).lines.map (·.mapSpan Span.place) ∧
      (read (crlf source)).missing = (read source).missing ∧
      (read (crlf source)).found.mapSpan Span.place = (read source).found.behindReturn := by
  have hread := relocates_behindReturn.readLines (tokens source)
  rw [← tokens_crlf, relocates_place.readLines] at hread
  obtain ⟨hlines, hmissing, hrest⟩ := Reading.mk.inj hread
  refine ⟨hlines, hmissing, ?_⟩
  obtain ⟨us, hus⟩ := (inOrder_tokens source).leave_eq_cons
  obtain ⟨us', hus'⟩ := (inOrder_tokens (crlf source)).leave_eq_cons
  rw [leave] at hus hus'
  rw [hus, hus', List.map_cons, List.map_cons] at hrest
  exact (List.cons.inj hrest).1

/-- A reader that came to the end stops at no line feed. -/
theorem shift_found_of_none {source : String} (h : (read source).missing = none) :
    (read source).found.shift = 0 := by
  obtain ⟨t, hleave, hkind⟩ := leave_of_none (inOrder_tokens source).closed h
  obtain ⟨us, hus⟩ := (inOrder_tokens source).leave_eq_cons
  have hfound : (read source).found = t := by
    rw [hleave] at hus
    exact (List.cons.inj hus).1.symm
  rw [Token.shift, hfound, hkind]
  rfl

/-- No fault moves where the reader came to the end. -/
theorem moveColumn_of_none {source : String} (h : (read source).missing = none) :
    Fault.moveColumn (read source).found.shift = id := by
  rw [shift_found_of_none h]
  exact funext Fault.moveColumn_zero

end Source

namespace Board

open Source

/-! ## Boards -/

/-- What is at fault is a token, or that there are no lines. -/
theorem span_of_misfit {source : String} {m : Misplaced}
    (h : ofLines source (read source).lines = .error m) :
    (read source).lines = [] ∧ m.span = endOf source ∨
      (read source).lines ≠ [] ∧ ∃ t ∈ tokens source, t.span = m.span := by
  rcases ofLines_error h with ⟨hnil, -⟩ | ⟨earlier, line, later, hlines, hspan, -⟩
  · rw [hnil] at h
    cases h
    exact .inl ⟨hnil, rfl⟩
  · have hmem : line ∈ (read source).lines := by rw [hlines]; simp
    exact .inr ⟨List.ne_nil_of_mem hmem, exists_token_of_span hmem hspan⟩

theorem lineText_of_misfit {source : String} {m m' : Misplaced}
    (hm : ofLines source (read source).lines = .error m)
    (hm' : ofLines (crlf source) (read (crlf source)).lines = .error m')
    (hline : m'.span.line = m.span.line) :
    m'.span.lineText (crlf source) = m.span.lineText source := by
  have hnil : (read (crlf source)).lines = [] ↔ (read source).lines = [] := by
    have hlines := congrArg (· = []) (read_crlf source).1
    simpa using hlines
  rcases span_of_misfit hm with ⟨hnone, hspan⟩ | ⟨hsome, t, ht, hspan⟩
  · rcases span_of_misfit hm' with ⟨-, hspan'⟩ | ⟨hsome', -⟩
    · rw [hspan, hspan', lineText_endOf_crlf]
    · exact absurd (hnil.2 hnone) hsome'
  · rcases span_of_misfit hm' with ⟨hnone', -⟩ | ⟨-, t', ht', hspan'⟩
    · exact absurd (hnil.1 hnone') hsome
    · rw [← hspan, ← hspan'] at hline ⊢
      exact lineText_crlf ht ht' hline

theorem fault_crlf {source : String} {m m' : Misplaced}
    (hm : ofLines source (read source).lines = .error m)
    (hm' : ofLines (crlf source) (read (crlf source)).lines = .error m')
    (hsame : m'.mapSpan Span.place = m.mapSpan Span.place) :
    m'.fault (crlf source) = m.fault source := by
  have hmisfit : m'.misfit = m.misfit := by
    have hmisfit := congrArg Misplaced.misfit hsame
    exact hmisfit
  have hline : m'.span.line = m.span.line := congrArg (·.span.line) hsame
  have hcolumn : m'.span.column = m.span.column := congrArg (·.span.column) hsame
  rw [Misplaced.fault, Misplaced.fault, faultAt, faultAt, lineText_of_misfit hm hm' hline, hmisfit,
    hline, hcolumn]

theorem parse_of_none {source : String} (h : (read source).missing = none) :
    parse source = (ofLines source (read source).lines).mapError (·.fault source) := by
  have hlines := parseLines_eq_ok_iff.2 ⟨h, rfl⟩
  cases hboard : ofLines source (read source).lines with
  | ok b => exact parse_eq_ok_iff.2 ⟨_, hlines, hboard⟩
  | error m => exact parse_eq_error_iff.2 (.inr ⟨_, m, hlines, hboard, rfl⟩)

theorem parse_of_some {source : String} {e : Expectation} (h : (read source).missing = some e) :
    parse source = .error
      (faultAt source (read source).found.span (e.message (read source).found.kind)) :=
  parse_eq_error_iff.2 (.inl (parseLines_eq_error_iff.2 ⟨e, h, rfl⟩))

/-- The board of the text with carriage returns is that of the text, but for offsets. When there is
none, the fault is the same. At a line feed it is shown one column further. -/
theorem parse_crlf (source : String) :
    (parse (crlf source)).map (mapSpan Span.place) =
      ((parse source).map (mapSpan Span.place)).mapError
        (Fault.moveColumn (read source).found.shift) := by
  obtain ⟨hlines, hmissing, hfound⟩ := read_crlf source
  cases hread : (read source).missing with
  | some e =>
    obtain ⟨hkind, hline, hcolumn⟩ := Token.of_behindReturn hfound
    rw [parse_of_some hread, parse_of_some (hmissing.trans hread), hkind, faultAt, hline, hcolumn,
      lineText_crlf (found_mem source) (found_mem (crlf source)) hline]
    rfl
  | none =>
    -- Both boards are held against what is left of them without offsets.
    have hend (s : String) : (endOf s).place = endOf "" := rfl
    have hboard := relocated_ofLines (hend source) (read source).lines
    have hboard' := relocated_ofLines (hend (crlf source)) (read (crlf source)).lines
    rw [parse_of_none hread, parse_of_none (hmissing.trans hread),
      moveColumn_of_none hread]
    rw [hlines] at hboard'
    rcases hboard.cases with ⟨b, hb, hsame⟩ | ⟨m, hm, hsame⟩
    · rcases hboard'.cases with ⟨b', hb', hsame'⟩ | ⟨m', -, hsame'⟩
      · rw [hsame] at hsame'
        rw [hb, hb']
        exact congrArg Except.ok (Except.ok.inj hsame').symm
      · rw [hsame] at hsame'
        cases hsame'
    · rcases hboard'.cases with ⟨b', -, hsame'⟩ | ⟨m', hm', hsame'⟩
      · rw [hsame] at hsame'
        cases hsame'
      · rw [hsame] at hsame'
        have hfault := fault_crlf hm hm' (Except.error.inj hsame').symm
        rw [hm, hm']
        exact congrArg Except.error hfault

end Board

end Playfield
