/-
  Playfield.Proofs.Board.FirstFault — what stands in front of the line that a fault shows.

  A text is read in two passes, all tokens first and then all productions, and each pass stops at
  the first line that it cannot take. So the lines in front of a fault are in order as far as its
  pass goes:
  - They can always be read. A token that does not fit stops the reader in the text as it does in
    its first lines alone, and the fault is then shown on one of these (`found_line_of_append`).
  - If the text can be read to its end, they are a board or hold no line at all. A line that is
    not what its place asks for is shown in a place of its own (`shownIn_declaration`), and the
    lines in front of it are taken (`ofLines_error`).

  Both together are `first_fault_of_pass`. It cannot say more: a token that does not fit hides the
  productions in front of it (`token_hides_misfit`).
-/

import Playfield.Proofs.Board.Layout
import Playfield.Proofs.Source.Composition
import Playfield.Proofs.Source.Numbering

namespace Playfield.Board

open Source

/-! ## The first lines of a text -/

/-- The text made of the first lines of a text. -/
def firstLines (source : String) (count : Nat) : String :=
  .ofList (['\n'].intercalate ((source.toList.splitOn '\n').take count))

theorem splitOn_cons_line {line : List Char} (hline : '\n' ∉ line) (cs : List Char) :
    (line ++ '\n' :: cs).splitOn '\n' = line :: cs.splitOn '\n' :=
  List.splitOn_append_cons_self_of_not_mem hline cs

theorem count_cons_line {line : List Char} (hline : '\n' ∉ line) (cs : List Char) :
    (line ++ '\n' :: cs).count '\n' = cs.count '\n' + 1 := by
  rw [List.count_append, List.count_eq_zero.2 hline, List.count_cons_self, Nat.zero_add]

/-- Line by line, from the last line back to the first. -/
@[elab_as_elim]
theorem lines_induction {motive : List Char → Prop} (last : ∀ line, '\n' ∉ line → motive line)
    (cons : ∀ line rest, '\n' ∉ line → motive rest → motive (line ++ '\n' :: rest))
    (cs : List Char) : motive cs := by
  induction hk : cs.count '\n' generalizing cs with
  | zero => exact last cs (List.count_eq_zero.1 hk)
  | succ k ih =>
    have hpos : 0 < cs.count '\n' := by omega
    obtain ⟨line, rest, rfl, hline⟩ := List.eq_append_cons_of_mem (List.count_pos_iff.1 hpos)
    rw [count_cons_line hline] at hk
    exact cons line rest hline (ih rest (by omega))

/-- A text that goes on behind some of its lines is cut at a line feed. -/
theorem exists_take_splitOn {cs : List Char} {k : Nat} (h : k < cs.count '\n') :
    ∃ a b, cs = a ++ '\n' :: b ∧ (cs.splitOn '\n').take (k + 1) = a.splitOn '\n' ∧
      a.count '\n' = k := by
  induction cs using lines_induction generalizing k with
  | last line hline =>
    rw [List.count_eq_zero.2 hline] at h
    omega
  | cons line rest hline ih =>
    rw [splitOn_cons_line hline, List.take_succ_cons]
    cases k with
    | zero =>
      refine ⟨line, rest, rfl, ?_, List.count_eq_zero.2 hline⟩
      rw [List.splitOn_eq_singleton hline, List.take_zero]
    | succ k =>
      rw [count_cons_line hline] at h
      obtain ⟨a, b, rfl, htake, ha⟩ := ih (show k < rest.count '\n' by omega)
      refine ⟨line ++ '\n' :: a, b, by simp, ?_, ?_⟩
      · rw [splitOn_cons_line hline, htake]
      · rw [count_cons_line hline, ha]

/-- The first lines of a text are the whole of it up to one of its line feeds. -/
theorem exists_firstLines {source : String} {k : Nat} (h : k < source.toList.count '\n') :
    ∃ t, source = firstLines source (k + 1) ++ "\n" ++ t ∧
      (firstLines source (k + 1)).toList.count '\n' = k := by
  obtain ⟨a, b, hsource, htake, ha⟩ := exists_take_splitOn h
  have hfirst : firstLines source (k + 1) = .ofList a := by
    rw [firstLines, htake, List.intercalate_splitOn]
  refine ⟨.ofList b, ?_, ?_⟩
  · rw [hfirst]
    apply String.toList_injective
    simp [hsource]
  · rw [hfirst, String.toList_ofList]
    exact ha

theorem firstLines_zero (source : String) : firstLines source 0 = "" := by
  simp [firstLines]

/-! ## Tokens that do not fit -/

theorem line_le_of_mem {source : String} {t : Token} (ht : t ∈ tokens source) :
    t.span.line ≤ 1 + source.toList.count '\n' := by
  obtain ⟨front, text, after, hsource, hstands⟩ := (tiles_tokens source).exists_stands ht
  have hcount : source.toList.count '\n' = (front ++ text ++ after).count '\n' :=
    congrArg _ hsource
  rw [hstands.line, hcount]
  simp only [List.nil_append, List.count_append]
  omega

/-- A token that does not fit the first lines does not fit the whole text either, and is found on
the same line. -/
theorem found_line_of_append {s : String} {e : Expectation} (h : (read s).missing = some e)
    (t : String) :
    (read (s ++ "\n" ++ t)).missing = some e ∧
      (read (s ++ "\n" ++ t)).found.span.line = (read s).found.span.line := by
  obtain ⟨feed, hfeed, hcontinues⟩ := tokens_continues s t
  have hread := readLines_continues hfeed hcontinues
  rw [Source.read] at h
  rw [h] at hread
  obtain ⟨hmissing, hrest⟩ := hread
  obtain ⟨u, us, u', us', hu, hu', hline, -⟩ := hrest.head
  refine ⟨hmissing, ?_⟩
  rw [Reading.found, Reading.found, Source.read, Source.read, hu, hu']
  exact hline.symm

/-! ## Lines that are not what their place asks for -/

/-- Whatever the computation finds wrong, it shows it at one of the places. -/
def ShownIn {α : Type} (spans : List Span) (x : Except Misplaced α) : Prop :=
  ∀ m, x = .error m → m.span ∈ spans

theorem ShownIn.bind {α β : Type} {spans : List Span} {x : Except Misplaced α}
    {f : α → Except Misplaced β} (hx : ShownIn spans x) (hf : ∀ a, ShownIn spans (f a)) :
    ShownIn spans (x >>= f) := by
  intro m hm
  cases x with
  | error m' =>
    cases hm
    exact hx m rfl
  | ok a => exact hf a m hm

theorem shownIn_pure {α : Type} (spans : List Span) (a : α) :
    ShownIn spans (pure a : Except Misplaced α) :=
  fun _ h => nomatch h

theorem shownIn_require (line : Line) (key : String) : ShownIn line.spans (require line key) := by
  intro m hm
  unfold require at hm
  split at hm
  · cases hm
  · cases hm
    exact List.mem_cons_self

theorem checkField_error {slots : List Slot} {keyword : String} {earlier : List String} {f : Field}
    {m : Misplaced} (h : checkField slots keyword earlier f = .error m) :
    m.span = f.keySpan ∨ m.span = f.value.span := by
  unfold checkField at h
  split at h
  · cases h
    exact .inl rfl
  · split at h
    · cases h
      exact .inl rfl
    · split at h
      · cases h
      · cases h
        exact .inr rfl

theorem checkFields_error {slots : List Slot} {keyword : String} {earlier : List String}
    {fields : List Field} {m : Misplaced}
    (h : checkFields slots keyword earlier fields = .error m) :
    ∃ f ∈ fields, m.span = f.keySpan ∨ m.span = f.value.span := by
  induction fields generalizing earlier with
  | nil => cases h
  | cons f fields ih =>
    unfold checkFields at h
    split at h
    · next m' hf =>
      cases h
      exact ⟨f, List.mem_cons_self, checkField_error hf⟩
    · obtain ⟨f', hf', hspan⟩ := ih h
      exact ⟨f', List.mem_cons_of_mem f hf', hspan⟩

theorem shownIn_checkRequired (line : Line) (slots : List Slot) :
    ShownIn line.spans (checkRequired line slots) := by
  intro m hm
  induction slots with
  | nil => cases hm
  | cons slot slots ih =>
    unfold checkRequired at hm
    split at hm
    · split at hm
      · next m' hrequire =>
        cases hm
        exact shownIn_require line slot.key m hrequire
      · exact ih hm
    · exact ih hm

theorem shownIn_checkLine (line : Line) (slots : List Slot) :
    ShownIn line.spans (checkLine slots line) := by
  intro m hm
  unfold checkLine at hm
  split at hm
  · next m' hfields =>
    cases hm
    exact Line.mem_spans_iff.2 (.inr (checkFields_error hfields))
  · exact shownIn_checkRequired line slots m hm

theorem shownIn_header (line : Line) : ShownIn line.spans (Header.ofLine line) := by
  unfold Header.ofLine
  split
  · intro m hm
    cases hm
    exact List.mem_cons_self
  · exact .bind (shownIn_checkLine line boardSlots) fun _ => shownIn_pure _ _

theorem shownIn_gadgetOfLine {line : Line} {form : Except Misplaced Form}
    (hform : ShownIn line.spans form) : ShownIn line.spans (gadgetOfLine line form) :=
  .bind (shownIn_require line "name") fun _ => .bind (shownIn_require line "x") fun _ =>
    .bind (shownIn_require line "y") fun _ => .bind hform fun _ => shownIn_pure _ _

/-- A line that is no declaration is shown in a place of its own. -/
theorem shownIn_declaration (line : Line) : ShownIn line.spans (Declaration.ofLine line) := by
  unfold Declaration.ofLine
  split
  · intro m hm
    cases hm
    exact List.mem_cons_self
  · next keyword _ =>
    refine .bind (shownIn_checkLine line keyword.slots) fun _ => ?_
    have hrequire := shownIn_require line
    have hpure {α : Type} (a : α) := shownIn_pure line.spans a
    cases keyword with
    | squareBumper => exact shownIn_gadgetOfLine (hpure _)
    | circleBumper => exact shownIn_gadgetOfLine (hpure _)
    | triangleBumper => exact shownIn_gadgetOfLine (hpure _)
    | flipper side => exact shownIn_gadgetOfLine (hpure _)
    | absorber =>
      exact shownIn_gadgetOfLine
        (.bind (hrequire "width") fun _ => .bind (hrequire "height") fun _ => hpure _)
    | ball =>
      exact .bind (hrequire "name") fun _ => .bind (hrequire "x") fun _ =>
        .bind (hrequire "y") fun _ => .bind (hrequire "xVelocity") fun _ =>
          .bind (hrequire "yVelocity") fun _ => hpure _
    | fire => exact .bind (hrequire "trigger") fun _ => .bind (hrequire "action") fun _ => hpure _

/-- Lines that a board takes from its first one on. -/
def Fitting : List Line → Prop
  | [] => True
  | first :: rest => (∃ header, Header.ofLine first = .ok header) ∧
      ∀ line ∈ rest, ∃ d, Declaration.ofLine line = .ok d

theorem Fitting.of_append {lines later : List Line} (h : Fitting (lines ++ later)) :
    Fitting lines := by
  cases lines with
  | nil => trivial
  | cons first rest =>
    obtain ⟨hheader, hrest⟩ := h
    exact ⟨hheader, fun line hline => hrest line (List.mem_append_left later hline)⟩

theorem Fitting.exists_board {lines : List Line} (h : Fitting lines) (hne : lines ≠ [])
    (source : String) : ∃ board, ofLines source lines = .ok board := by
  cases lines with
  | nil => exact absurd rfl hne
  | cons first rest =>
    obtain ⟨⟨header, hheader⟩, hrest⟩ := h
    obtain ⟨declarations, hdeclarations⟩ := exists_forall₂ hrest
    exact ⟨⟨header, declarations⟩,
      ofLines_eq_ok_iff.2 ⟨first, rest, rfl, hheader, hdeclarations⟩⟩

/-- The lines in front of the first one that is not what its place asks for are taken. -/
theorem ofLines_error {source : String} {lines : List Line} {m : Misplaced}
    (h : ofLines source lines = .error m) :
    (lines = [] ∧ m.span.line = 1) ∨ ∃ earlier line later,
      lines = earlier ++ line :: later ∧ m.span ∈ line.spans ∧ Fitting earlier := by
  cases lines with
  | nil =>
    cases h
    exact .inl ⟨rfl, rfl⟩
  | cons first rest =>
    refine .inr ?_
    rw [ofLines] at h
    by_cases hkeyword : first.keyword = boardKeyword
    · simp only [ne_eq, hkeyword, not_true_eq_false, if_false] at h
      rcases bind_eq_error_iff.1 h with hheader | ⟨header, hheader, h⟩
      · exact ⟨[], first, rest, rfl, shownIn_header first m hheader, trivial⟩
      rcases bind_eq_error_iff.1 h with hrest | ⟨_, _, h⟩
      · obtain ⟨front, line, back, rfl, hfront, hline⟩ := exists_of_mapM_error hrest
        exact ⟨first :: front, line, back, rfl, shownIn_declaration line m hline,
          ⟨header, hheader⟩, hfront⟩
      · cases h
    · rw [if_pos hkeyword] at h
      cases h
      exact ⟨[], first, rest, rfl, List.mem_cons_self, trivial⟩

/-! ## Faults -/

/-- A fault shows a token that does not fit, or a line that is not what its place asks for when
all lines can be read. -/
theorem parse_error_cases {source : String} {why : Fault} (h : parse source = .error why) :
    (∃ e, (read source).missing = some e ∧
      why.line? = some (read source).found.span.line) ∨
    ∃ m, (read source).missing = none ∧ ofLines source (read source).lines = .error m ∧
      why.line? = some m.span.line := by
  rcases parse_eq_error_iff.1 h with h | ⟨lines, m, hlines, hm, rfl⟩
  · obtain ⟨e, he, rfl⟩ := parseLines_eq_error_iff.1 h
    exact .inl ⟨e, he, rfl⟩
  · obtain ⟨hnone, rfl⟩ := parseLines_eq_ok_iff.1 hlines
    exact .inr ⟨m, hnone, hm, rfl⟩

theorem line_le_of_span {source : String} {line : Line} {s : Span}
    (hline : line ∈ (read source).lines) (hs : s ∈ line.spans) :
    s.line ≤ 1 + source.toList.count '\n' := by
  obtain ⟨t, ht, rfl⟩ := exists_token_of_span hline hs
  exact line_le_of_mem ht

/-- A fault behind the first line shows a line of the text. -/
theorem line_le_of_parse_error {source : String} {why : Fault} {n : Nat}
    (h : parse source = .error why) (hline : why.line? = some n) :
    n ≤ 1 + source.toList.count '\n' := by
  rcases parse_error_cases h with ⟨e, -, hfound⟩ | ⟨m, -, hm, hspan⟩
  · cases hline.symm.trans hfound
    exact line_le_of_mem (found_mem source)
  · cases hline.symm.trans hspan
    rcases ofLines_error hm with ⟨-, hone⟩ | ⟨earlier, line, later, hlines, hmem, -⟩
    · omega
    · exact line_le_of_span (by rw [hlines]; simp) hmem

section

variable {front t : String} {why : Fault} {n : Nat}

/-- The first lines can be read when a fault of the text is shown behind them: a token that does
not fit would stop the reader there. -/
theorem missing_of_fault_behind (h : parse (front ++ "\n" ++ t) = .error why)
    (hline : why.line? = some n) (hn : 1 + front.toList.count '\n' < n) :
    (read front).missing = none := by
  cases hfront : (read front).missing with
  | none => rfl
  | some e =>
    obtain ⟨hwhole, hsame⟩ := found_line_of_append hfront t
    have hbound := line_le_of_mem (found_mem front)
    rcases parse_error_cases h with ⟨_, -, hfound⟩ | ⟨_, hnone, -, -⟩
    · have hn' := Option.some.inj (hline.symm.trans hfound)
      omega
    · rw [hwhole] at hnone
      cases hnone

/-- The first lines are taken when the text can be read and its fault is shown behind them: the
line at fault is one of those that follow. -/
theorem fitting_of_fault_behind (h : parse (front ++ "\n" ++ t) = .error why)
    (hline : why.line? = some n) (hn : 1 + front.toList.count '\n' < n)
    (hwhole : (read (front ++ "\n" ++ t)).missing = none) : Fitting (read front).lines := by
  have hfront := missing_of_fault_behind h hline hn
  rcases parse_error_cases h with ⟨_, hsome, -⟩ | ⟨m, -, hm, hspan⟩
  · rw [hwhole] at hsome
    cases hsome
  have hn' := Option.some.inj (hline.symm.trans hspan)
  rw [read_append hfront t] at hm
  rcases ofLines_error hm with ⟨-, hone⟩ | ⟨earlier, line, later, hsplit, hmem, hfit⟩
  · omega
  rcases append_eq_append_cons hsplit with ⟨_, hin⟩ | ⟨between, rfl, -⟩
  · have hread : line ∈ (read front).lines := by rw [hin]; simp
    have hbound := line_le_of_span hread hmem
    omega
  · exact hfit.of_append

end

/-- The lines in front of a fault can be read. If all lines can, those in front are a board,
unless there are none. -/
theorem first_fault_of_pass {source detail context : String} {line column : Nat}
    (h : parse source = .error (.malformed detail line column context)) :
    ∃ earlier, parseLines (firstLines source (line - 1)) = .ok earlier ∧
      ∀ lines, parseLines source = .ok lines →
        earlier = [] ∨ ∃ board, parse (firstLines source (line - 1)) = .ok board := by
  cases hk : line - 1 with
  | zero =>
    rw [firstLines_zero]
    exact ⟨[], by decide +kernel, fun _ _ => .inl rfl⟩
  | succ k =>
    have hle : line ≤ 1 + source.toList.count '\n' := line_le_of_parse_error h rfl
    have hcut : k < source.toList.count '\n' := by omega
    obtain ⟨t, hsource, hcount⟩ := exists_firstLines hcut
    generalize firstLines source (k + 1) = front at hsource hcount ⊢
    subst hsource
    have hbehind : 1 + front.toList.count '\n' < line := by omega
    have hfront := parseLines_eq_ok_iff.2 ⟨missing_of_fault_behind h rfl hbehind, rfl⟩
    refine ⟨_, hfront, fun lines hlines => ?_⟩
    obtain ⟨hwhole, -⟩ := parseLines_eq_ok_iff.1 hlines
    by_cases hnil : (read front).lines = []
    · exact .inl hnil
    · have hfit := fitting_of_fault_behind h rfl hbehind hwhole
      obtain ⟨board, hboard⟩ := hfit.exists_board hnil front
      exact .inr ⟨board, parse_eq_ok_iff.2 ⟨_, hfront, hboard⟩⟩

/-- Two misfits, and only the first is a fault: the header and the bumper in front of it are a
board. -/
theorem first_misfit_of_three :
    let source := "board name=n\n# a bumper\nabsorber y=2\n\nspinner name=s\nflipper"
    let detail := "'absorber' requires a 'name' field"
    parse source = .error (.malformed detail 3 1 "absorber y=2") ∧
      (∃ lines, parseLines source = .ok lines) ∧
        ∃ board, parse (firstLines source 2) = .ok board := by
  intro source detail
  have hfault : parse source = .error (.malformed detail 3 1 "absorber y=2") := by decide +kernel
  have hread : (read source).missing = none := by decide +kernel
  have hlines : parseLines source = .ok (read source).lines := parseLines_eq_ok_iff.2 ⟨hread, rfl⟩
  obtain ⟨earlier, hearlier, htaken⟩ := first_fault_of_pass hfault
  refine ⟨hfault, ⟨_, hlines⟩, ?_⟩
  rcases htaken _ hlines with rfl | hboard
  · have hheader : (read (firstLines source 2)).lines.length = 1 := by decide +kernel
    obtain ⟨-, hnil⟩ := parseLines_eq_ok_iff.1 hearlier
    rw [hnil] at hheader
    cases hheader
  · exact hboard

/-- An unknown keyword on the second line is not the fault when a token on the third does not
fit. -/
theorem token_hides_misfit :
    let source := "board name=B\nspinner name=A\n@"
    parse source = .error (.malformed "unexpected character: @" 3 1 "@") ∧
      parse (firstLines source 2) =
        .error (.malformed "unknown declaration 'spinner'" 2 1 "spinner name=A") ∧
      ¬((∃ board, parse (firstLines source 2) = .ok board) ∨
        parseLines (firstLines source 2) = .ok []) := by
  intro source
  have hfault : parse (firstLines source 2) =
      .error (.malformed "unknown declaration 'spinner'" 2 1 "spinner name=A") := by
    decide +kernel
  refine ⟨by decide +kernel, hfault, ?_⟩
  rintro (⟨board, hboard⟩ | hnone)
  · rw [hfault] at hboard
    cases hboard
  · have hlines : (read (firstLines source 2)).lines.length = 2 := by decide +kernel
    obtain ⟨-, hnil⟩ := parseLines_eq_ok_iff.1 hnone
    rw [hnil] at hlines
    cases hlines

end Playfield.Board
