/-
  Playfield.Proofs.Board.Context — the source line that a fault of the grammar shows.

  A fault names a line by its number, which was counted while the text was scanned, and shows a
  line, which is looked up around a byte offset. Two facts make them the same line:
  - Behind a stretch of text, as many lines are over as it has line feeds, and the one around its
    end is the next (`getElem?_splitOn_count`, `lineAt_append_start`).
  - A token's offset, line and column are those of one stretch of text (`Tiles.exists_stands`), and
    the reader and the productions find fault with tokens only.

  So their faults show the line that they name (`faults_show_their_line`). One fault is found with
  no token: that a text has no lines at all. Its offset is the end of the text, but its number is
  1, so it shows the last line and names the first (`missing_board_shows_last_line`); they need
  not be alike (`missing_board_names_another_line`).
-/

import Playfield.Proofs.Board.FirstFault

namespace Playfield

open String (utf8Len)

namespace Source

/-! ## The lines of a text -/

/-- The line with a number: lines are counted from 1 and end at line feeds. -/
def sourceLine? (source : String) : Nat → Option (List Char)
  | 0 => none
  | n + 1 => (source.toList.splitOn '\n')[n]?

/-- The line without carriage returns at its end. -/
def withoutReturns (line : List Char) : List Char :=
  line.rdropWhile (· == '\r')

theorem lastLine_of_not_mem {cs : List Char} (h : '\n' ∉ cs) : lastLine cs = cs := by
  rw [lastLine, List.rtakeWhile_eq_self_iff]
  intro c hc
  rw [decide_eq_true_eq]
  rintro rfl
  exact h hc

theorem lastLine_append_feed (a b : List Char) : lastLine (a ++ '\n' :: b) = lastLine b := by
  induction b using List.reverseRecOn with
  | nil => rw [lastLine_concat, if_pos rfl]; rfl
  | append_singleton b c ih =>
    rw [← List.cons_append, ← List.append_assoc, lastLine_concat, lastLine_concat, ih]

/-- The first line of a text that goes on behind some characters of it. -/
theorem splitOn_append_head {before : List Char} (h : '\n' ∉ before) (after : List Char) :
    ((before ++ after).splitOn '\n')[0]? = some (before ++ after.takeWhile (· ≠ '\n')) := by
  have hline : '\n' ∉ before ++ after.takeWhile (· ≠ '\n') := by
    have hafter := not_mem_takeWhile (p := (· ≠ '\n')) (c := '\n') (by decide) after
    simpa [h] using hafter
  have hsplit : before ++ after =
      before ++ after.takeWhile (· ≠ '\n') ++ after.dropWhile (· ≠ '\n') := by
    rw [List.append_assoc, List.takeWhile_append_dropWhile]
  rw [hsplit]
  rcases dropWhile_ne_lineFeed after with hdrop | ⟨rest, hdrop⟩
  · rw [hdrop, List.append_nil, List.splitOn_eq_singleton hline]
    rfl
  · rw [hdrop, Board.splitOn_cons_line hline]
    rfl

/-- Behind a stretch of text as many lines are over as it has line feeds, and the next one is
what is written around its end. -/
theorem getElem?_splitOn_count (before after : List Char) :
    ((before ++ after).splitOn '\n')[before.count '\n']? =
      some (lastLine before ++ after.takeWhile (· ≠ '\n')) := by
  induction before using Board.lines_induction with
  | last line hline =>
    rw [List.count_eq_zero.2 hline, splitOn_append_head hline, lastLine_of_not_mem hline]
  | cons line rest hline ih =>
    rw [Board.count_cons_line hline, List.append_assoc, List.cons_append,
      Board.splitOn_cons_line hline, List.getElem?_cons_succ, ih, lastLine_append_feed]

/-- The line that is looked up around the end of a stretch of text. -/
theorem lineAt_append_start (before after : List Char) :
    lineAt (before ++ after) (utf8Len before) =
      withoutReturns (lastLine before ++ after.takeWhile (· ≠ '\n')) := by
  have hcut : cutAt (before ++ after) (utf8Len before) = (before, after) := by
    have hcut := cutAt_append before after 0
    rw [Nat.add_zero] at hcut
    rw [hcut]
    cases after <;> simp [cutAt]
  simp only [lineAt, hcut]
  rfl

/-! ## Faults that show their line -/

/-- The offset is between two characters of the text, or at one of its ends. -/
def IsBoundary (source : String) (offset : Nat) : Prop :=
  ∃ before after, source.toList = before ++ after ∧ offset = utf8Len before

/-- The fault is one of the grammar. It shows the line that it names, and its column is one of
that line's or the one behind them. -/
inductive ShowsItsLine (source : String) : Fault → Prop where
  | mk {n column : Nat} {line : List Char} (detail : String) :
      sourceLine? source n = some line → 1 ≤ column → column ≤ line.length + 1 →
      ShowsItsLine source (.malformed detail n column (.ofList (withoutReturns line)))

/-- A token starts between two characters, and a fault at it shows its line. -/
theorem showsItsLine_of_mem {source : String} {t : Token} (ht : t ∈ tokens source)
    (detail : String) :
    IsBoundary source t.span.start ∧ ShowsItsLine source (faultAt source t.span detail) := by
  obtain ⟨before, text, after, hsource, hstands⟩ := (tiles_tokens source).exists_stands ht
  rw [List.nil_append] at hstands
  rw [List.append_assoc] at hsource
  refine ⟨⟨before, text ++ after, hsource, hstands.start⟩, ?_⟩
  have hline : sourceLine? source t.span.line =
      some (lastLine before ++ (text ++ after).takeWhile (· ≠ '\n')) := by
    rw [hstands.line, Nat.add_comm, sourceLine?, hsource]
    exact getElem?_splitOn_count before (text ++ after)
  have hshown : t.span.lineText source =
      .ofList (withoutReturns (lastLine before ++ (text ++ after).takeWhile (· ≠ '\n'))) := by
    rw [Span.lineText, hsource, hstands.start, lineAt_append_start]
  rw [faultAt, hshown]
  refine .mk detail hline ?_ ?_
  · rw [hstands.column]
    omega
  · rw [hstands.column, List.length_append]
    omega

end Source

namespace Board

open Source

/-- A misfit of a line that was read, whichever production the line is held against, is shown at
one of the line's tokens. -/
theorem exists_token_of_misfit {source : String} {lines : List Line} {line : Line} {m : Misplaced}
    (h : parseLines source = .ok lines) (hline : line ∈ lines)
    (hm : Header.ofLine line = .error m ∨ Declaration.ofLine line = .error m) :
    ∃ t ∈ tokens source, t.span = m.span := by
  obtain ⟨-, rfl⟩ := parseLines_eq_ok_iff.1 h
  have hspan : m.span ∈ line.spans := by
    rcases hm with hm | hm
    · exact shownIn_header line m hm
    · exact shownIn_declaration line m hm
  exact exists_token_of_span hline hspan

/-- The fault of a text that cannot be read, and that of a line that is not what its place asks
for, show the line that they name. It is looked up from an offset between two characters. -/
theorem faults_show_their_line (source : String) :
    (∀ why, parseLines source = .error why →
      ShowsItsLine source why ∧ IsBoundary source (read source).found.span.start ∧
        ∃ detail, why = faultAt source (read source).found.span detail) ∧
    ∀ lines, parseLines source = .ok lines → ∀ line ∈ lines, ∀ m,
      (Header.ofLine line = .error m ∨ Declaration.ofLine line = .error m) →
        ShowsItsLine source (m.fault source) ∧ IsBoundary source m.span.start ∧
          m.fault source = faultAt source m.span m.misfit.message := by
  refine ⟨fun why hwhy => ?_, fun lines hlines line hline m hm => ?_⟩
  · obtain ⟨e, -, rfl⟩ := parseLines_eq_error_iff.1 hwhy
    obtain ⟨hboundary, hshows⟩ :=
      showsItsLine_of_mem (found_mem source) (e.message (read source).found.kind)
    exact ⟨hshows, hboundary, _, rfl⟩
  · obtain ⟨t, ht, hspan⟩ := exists_token_of_misfit hlines hline hm
    obtain ⟨hboundary, hshows⟩ := showsItsLine_of_mem ht m.misfit.message
    rw [hspan] at hboundary hshows
    exact ⟨hshows, hboundary, rfl⟩

/-- A value is missing behind two carriage returns, which are dropped from the line that is shown
though the column counts them. A header with a wrong value is shown on its line behind a
comment. -/
theorem missing_value_shows_its_line :
    let source := "# é\nball x=\r\r\n"
    let header := "# é\nboard name=1\r\n"
    let line := Line.make "board" ⟨5, 10, 2, 1⟩
      [⟨"name", ⟨11, 15, 2, 7⟩, ⟨.integer, "1", ⟨16, 17, 2, 12⟩⟩⟩]
    let m : Misplaced := ⟨.wrongClass "name" .name .integer "1", ⟨16, 17, 2, 12⟩⟩
    (parseLines source =
        .error (.malformed "expected a value for 'x', found end of line" 2 10 "ball x=") ∧
      ShowsItsLine source
        (.malformed "expected a value for 'x', found end of line" 2 10 "ball x=")) ∧
      parseLines header = .ok [line] ∧ Header.ofLine line = .error m ∧
        ShowsItsLine header (m.fault header) ∧
          m.fault header =
            .malformed "'name' expects a name, found integer '1'" 2 12 "board name=1" := by
  intro source header line m
  have hsource : parseLines source =
      .error (.malformed "expected a value for 'x', found end of line" 2 10 "ball x=") := by
    decide +kernel
  have hheader : parseLines header = .ok [line] := by decide +kernel
  have hm : Header.ofLine line = .error m := by decide +kernel
  obtain ⟨hshows, -, -⟩ := (faults_show_their_line source).1 _ hsource
  obtain ⟨hshows', -, -⟩ :=
    (faults_show_their_line header).2 _ hheader line List.mem_cons_self m (.inl hm)
  exact ⟨⟨hsource, hshows⟩, hheader, hm, hshows', by decide +kernel⟩

/-! ## Texts without lines -/

/-- Nothing but white space and a comment is written on the line. -/
def IsVacant (line : List Char) : Prop :=
  ∀ c ∈ (line.dropWhile Text.isBlank).head?, c = '#'

-- Named, since the search may also come upon the decision by trying all characters.
instance (line : List Char) : Decidable (IsVacant line) :=
  Option.decidableForallMem (line.dropWhile Text.isBlank).head?

theorem wordsOf_vacant {line : List Char} (hfeed : '\n' ∉ line) (h : IsVacant line) :
    wordsOf line = [] := by
  induction line with
  | nil => exact wordsOf_nil
  | cons c cs ih =>
    rw [List.mem_cons, not_or] at hfeed
    obtain ⟨hc, hcs⟩ := hfeed
    by_cases hblank : Text.isBlank c = true
    · have hgap : isGap c = true := by simp [isGap, hblank, Ne.symm hc]
      rw [IsVacant, List.dropWhile_cons_of_pos hblank] at h
      rw [wordsOf_gap hgap]
      exact ih hcs h
    · rw [IsVacant, List.dropWhile_cons_of_neg hblank] at h
      cases h c rfl
      have hrest : cs.dropWhile (· ≠ '\n') = [] := by
        rw [List.dropWhile_eq_nil_iff]
        intro c hmem
        rw [decide_eq_true_eq]
        rintro rfl
        exact hcs hmem
      rw [wordsOf_comment, hrest, wordsOf_nil]

theorem pieces_of_vacant {cs : List Char} (h : ∀ line ∈ cs.splitOn '\n', IsVacant line) :
    pieces (wordsOf cs) = [] := by
  induction cs using lines_induction with
  | last line hline =>
    rw [List.splitOn_eq_singleton hline] at h
    rw [wordsOf_vacant hline (h line List.mem_cons_self)]
    rfl
  | cons line rest hline ih =>
    rw [splitOn_cons_line hline] at h
    obtain ⟨hfirst, hrest⟩ := List.forall_mem_cons.1 h
    rw [wordsOf_feed, wordsOf_vacant hline hfirst, List.nil_append, pieces_lineEnd]
    exact ih hrest

/-- A text of white space and comments is read, and has no lines. -/
theorem parseLines_of_vacant {source : String}
    (h : ∀ line ∈ source.toList.splitOn '\n', IsVacant line) : parseLines source = .ok [] := by
  have hgroups : groups source = [] := pieces_of_vacant h
  obtain ⟨lines, hlines⟩ := parseLines_ok_iff.2 ⟨[], by rw [hgroups]; exact .nil⟩
  have hsaid := says_of_parseLines hlines
  rw [hgroups, List.forall₂_nil_left_iff, List.map_eq_nil_iff] at hsaid
  rw [hlines, hsaid]

theorem showsItsLine_iff {source detail context : String} {n column : Nat} {line : List Char}
    (hline : sourceLine? source n = some line) :
    ShowsItsLine source (.malformed detail n column context) ↔
      1 ≤ column ∧ column ≤ line.length + 1 ∧ context = .ofList (withoutReturns line) := by
  refine ⟨fun h => ?_, fun ⟨hone, hlength, hcontext⟩ => ?_⟩
  · generalize hwhy : Fault.malformed detail n column context = why at h
    obtain ⟨_, hline', hone, hlength⟩ := h
    cases hwhy
    cases hline.symm.trans hline'
    exact ⟨hone, hlength, rfl⟩
  · rw [hcontext]
    exact .mk detail hline hone hlength

/-- The fault of a text without lines is shown at the end of the text. -/
theorem parse_of_vacant {source : String}
    (h : ∀ line ∈ source.toList.splitOn '\n', IsVacant line) :
    parse source = .error (.malformed "missing board declaration" 1 1
      (.ofList (withoutReturns (lastLine source.toList)))) := by
  have hlast := lineAt_append_start source.toList []
  rw [List.append_nil, List.takeWhile_nil, List.append_nil, String.utf8Len_toList] at hlast
  refine parse_eq_error_iff.2 (.inr ⟨[], _, parseLines_of_vacant h, rfl, ?_⟩)
  rw [Misplaced.fault, faultAt, Span.lineText, endOf, hlast]
  rfl

/-- A text of white space and comments is refused at line 1, and shows its last line. It shows the
line that it names exactly when the first line and the last agree but for carriage returns at
their ends. -/
theorem missing_board_shows_last_line {source : String}
    (h : ∀ line ∈ source.toList.splitOn '\n', IsVacant line) :
    ∃ first last why, sourceLine? source 1 = some first ∧
      sourceLine? source (source.toList.count '\n' + 1) = some last ∧
      parse source = .error why ∧
      why = .malformed "missing board declaration" 1 1 (.ofList (withoutReturns last)) ∧
      (ShowsItsLine source why ↔ withoutReturns last = withoutReturns first) := by
  have hfirst : sourceLine? source 1 = some (source.toList.takeWhile (· ≠ '\n')) :=
    splitOn_append_head List.not_mem_nil source.toList
  have hlast : sourceLine? source (source.toList.count '\n' + 1) =
      some (lastLine source.toList) := by
    have hlast := getElem?_splitOn_count source.toList []
    rwa [List.append_nil, List.takeWhile_nil, List.append_nil] at hlast
  refine ⟨_, _, _, hfirst, hlast, parse_of_vacant h, rfl, ?_⟩
  rw [showsItsLine_iff hfirst, String.ofList_inj]
  refine ⟨fun ⟨_, _, hsame⟩ => hsame, fun hsame => ⟨Nat.le_refl 1, ?_, hsame⟩⟩
  exact Nat.le_add_left 1 _

/-- A comment on the only line is shown, with white space and a carriage return around it. -/
theorem missing_board_shows_only_line :
    let source := "\t# ball\r"
    (∀ line ∈ source.toList.splitOn '\n', IsVacant line) ∧
      parse source = .error (.malformed "missing board declaration" 1 1 "\t# ball") ∧
        ShowsItsLine source (.malformed "missing board declaration" 1 1 "\t# ball") := by
  intro source
  have hvacant : ∀ line ∈ source.toList.splitOn '\n', IsVacant line := by decide +kernel
  have hfault : parse source = .error (.malformed "missing board declaration" 1 1 "\t# ball") := by
    decide +kernel
  obtain ⟨first, last, why, hfirst, hlast, hwhy, -, hiff⟩ := missing_board_shows_last_line hvacant
  have hone : source.toList.count '\n' = 0 := by decide +kernel
  rw [hone] at hlast
  cases hfault.symm.trans hwhy
  cases hfirst.symm.trans hlast
  exact ⟨hvacant, hfault, hiff.2 rfl⟩

/-- Behind a comment and a line feed, the fault names the line of the comment and shows the empty
one. -/
theorem missing_board_names_another_line :
    let source := "# nothing here\n"
    let why : Fault := .malformed "missing board declaration" 1 1 ""
    (∀ line ∈ source.toList.splitOn '\n', IsVacant line) ∧ parse source = .error why ∧
      sourceLine? source 1 = some "# nothing here".toList ∧ ¬ShowsItsLine source why := by
  intro source why
  have hvacant : ∀ line ∈ source.toList.splitOn '\n', IsVacant line := by decide +kernel
  have hfault : parse source = .error why := by decide +kernel
  have hline : sourceLine? source 1 = some "# nothing here".toList := by decide +kernel
  refine ⟨hvacant, hfault, hline, ?_⟩
  rw [showsItsLine_iff hline]
  rintro ⟨-, -, hcontext⟩
  revert hcontext
  decide +kernel

end Board

end Playfield
