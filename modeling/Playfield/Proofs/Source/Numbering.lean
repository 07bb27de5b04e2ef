/-
  Playfield.Proofs.Source.Numbering — which source line each part of a line that was read is on.

  The line number of a token goes up behind the end of a line and nowhere else (`Paced`); the
  tokens of a text are paced because only the end of a line is written with a line feed
  (`Tiles.paced`). What is read off paced tokens is then numbered (`readLines_numbered`): a
  keyword, its keys and its values are all on one source line, and no two lines that are read
  share it. A fault may therefore point at any part of a line to point at the line.

  Every keyword, key and value that is read is a token of the text (`names_of_readLines`,
  `exists_token_of_span`), so its line is one of the text's.
-/

import Playfield.Proofs.Source.Grammar
import Playfield.Proofs.Source.Lossless

namespace Playfield.Source

/-! ## The spans of a line -/

/-- The places of a line's keyword, keys and values. -/
def Line.spans (line : Line) : List Span :=
  line.keywordSpan :: line.fields.flatMap fun f => [f.keySpan, f.value.span]

theorem Line.mem_spans_iff {line : Line} {s : Span} :
    s ∈ line.spans ↔
      s = line.keywordSpan ∨ ∃ f ∈ line.fields, s = f.keySpan ∨ s = f.value.span := by
  simp [spans]

theorem keys_of_readFields {ts rest : List Token} {fields : List Field}
    (hr : readFields ts = (.ok fields, rest)) :
    ∀ f ∈ fields, (⟨.name f.key, f.keySpan⟩ : Token) ∈ ts := by
  fun_induction readFields ts generalizing fields rest with
  | case1 => cases hr; simp
  | case2 => cases hr; simp
  | case3 => cases hr; simp
  | case4 text s ts ih => exact fun f hf => List.mem_cons_of_mem _ (ih hr f hf)
  | case5 key keySpan s t ts value hvalue fields' rest' hfields ih =>
    cases fields' with
    | error e => cases hr
    | ok fields' =>
      cases hr
      intro f hf
      rcases List.mem_cons.1 hf with rfl | hf
      · exact List.mem_cons_self
      · have hmem := ih hfields f hf
        simp [hmem]
  | case6 => cases hr
  | case7 => cases hr
  | case8 => cases hr
  | case9 => cases hr

/-- The keyword of a line and the keys of its fields are names of the text. -/
theorem names_of_readLines {ts : List Token} {line : Line} (hline : line ∈ (readLines ts).lines) :
    ⟨.name line.keyword, line.keywordSpan⟩ ∈ ts ∧
      ∀ f ∈ line.fields, (⟨.name f.key, f.keySpan⟩ : Token) ∈ ts := by
  fun_induction readLines ts with
  | case1 => cases hline
  | case2 => cases hline
  | case3 text s ts ih =>
    obtain ⟨hkeyword, hkeys⟩ := ih hline
    exact ⟨List.mem_cons_of_mem _ hkeyword, fun f hf => List.mem_cons_of_mem _ (hkeys f hf)⟩
  | case4 s ts ih =>
    obtain ⟨hkeyword, hkeys⟩ := ih hline
    exact ⟨List.mem_cons_of_mem _ hkeyword, fun f hf => List.mem_cons_of_mem _ (hkeys f hf)⟩
  | case5 => cases hline
  | case6 keyword s ts fields rest hfields _ after ih =>
    rcases List.mem_cons.1 hline with rfl | hline
    · exact ⟨List.mem_cons_self,
        fun f hf => List.mem_cons_of_mem _ (keys_of_readFields hfields f hf)⟩
    · obtain ⟨hkeyword, hkeys⟩ := ih hline
      obtain ⟨-, hrest⟩ := mem_of_readFields hfields
      exact ⟨List.mem_cons_of_mem _ (hrest hkeyword),
        fun f hf => List.mem_cons_of_mem _ (hrest (hkeys f hf))⟩
  | case7 => cases hline

/-- A line spans from its keyword to its last field. -/
theorem eq_make_of_readLines {ts : List Token} {line : Line}
    (hline : line ∈ (readLines ts).lines) :
    line = Line.make line.keyword line.keywordSpan line.fields := by
  fun_induction readLines ts with
  | case1 => cases hline
  | case2 => cases hline
  | case3 text s ts ih => exact ih hline
  | case4 s ts ih => exact ih hline
  | case5 => cases hline
  | case6 keyword s ts fields rest hfields _ after ih =>
    rcases List.mem_cons.1 hline with rfl | hline
    · rfl
    · exact ih hline
  | case7 => cases hline

/-- Every place in a line that was read is that of a token. -/
theorem exists_token_of_span {ts : List Token} {line : Line} {s : Span}
    (hline : line ∈ (readLines ts).lines) (hs : s ∈ line.spans) : ∃ t ∈ ts, t.span = s := by
  obtain ⟨hkeyword, hkeys⟩ := names_of_readLines hline
  rcases Line.mem_spans_iff.1 hs with rfl | ⟨f, hf, rfl | rfl⟩
  · exact ⟨_, hkeyword, rfl⟩
  · exact ⟨_, hkeys f hf, rfl⟩
  · obtain ⟨t, ht, hvalue⟩ := mem_of_readLines hline hf
    obtain ⟨-, hspan⟩ := literal?_eq_some_iff.1 hvalue
    exact ⟨t, ht, hspan.symm⟩

/-! ## The pace of tokens -/

/-- From the given line number on, the tokens count one line more behind each end of a line. -/
inductive Paced : Nat → List Token → Prop where
  | nil (n : Nat) : Paced n []
  | lineEnd {n : Nat} {s : Span} {ts : List Token} : s.line = n → Paced (n + 1) ts →
      Paced n (⟨.lineEnd, s⟩ :: ts)
  | word {n : Nat} {t : Token} {ts : List Token} : t.kind ≠ .lineEnd → t.span.line = n →
      Paced n ts → Paced n (t :: ts)

theorem Paced.line_head {n : Nat} {t : Token} {ts : List Token} (h : Paced n (t :: ts)) :
    t.span.line = n := by
  cases h with
  | lineEnd hline _ => exact hline
  | word _ hline _ => exact hline

theorem Paced.tail {n : Nat} {t : Token} {ts : List Token} (h : Paced n (t :: ts))
    (ht : t.kind ≠ .lineEnd := by simp) : Paced n ts := by
  cases h with
  | lineEnd _ _ => exact absurd rfl ht
  | word _ _ hts => exact hts

theorem Paced.tail_lineEnd {n : Nat} {s : Span} {ts : List Token}
    (h : Paced n (⟨.lineEnd, s⟩ :: ts)) : Paced (n + 1) ts := by
  cases h with
  | lineEnd _ hts => exact hts
  | word hne _ _ => exact absurd rfl hne

/-- White space between tokens has no line feed, and neither has a token unless it is one. -/
theorem Tiles.paced {before rest : List Char} {ts : List Token} (h : Tiles before rest ts) :
    Paced (1 + before.count '\n') ts := by
  have hgap (gap : List Char) (hgap : ∀ c ∈ gap, isGap c = true) : gap.count '\n' = 0 := by
    refine List.count_eq_zero.2 fun hmem => ?_
    have hfeed := hgap _ hmem
    cases hfeed
  induction h with
  | @inputEnd before gap t hall hkind hstands =>
    refine .word (by rw [hkind]; simp) ?_ (.nil _)
    rw [hstands.line, List.count_append, hgap gap hall, Nat.add_zero]
  | @cons before gap text rest t ts hall _ hstands _ ih =>
    have hline : t.span.line = 1 + before.count '\n' := by
      rw [hstands.line, List.count_append, hgap gap hall, Nat.add_zero]
    rw [List.count_append, List.count_append, hgap gap hall, Nat.add_zero] at ih
    obtain ⟨kind, s⟩ := t
    by_cases hfeed : '\n' ∈ text
    · cases hstands.lineFeed hfeed
      cases hstands.spells
      exact .lineEnd hline ih
    · rw [List.count_eq_zero.2 hfeed, Nat.add_zero] at ih
      refine .word ?_ hline ih
      rintro rfl
      cases hstands.spells
      exact hfeed (List.mem_singleton.2 rfl)

/-! ## The numbers of lines -/

theorem readFields_paced {n : Nat} {ts rest : List Token} {fields : List Field}
    (h : Paced n ts) (hr : readFields ts = (.ok fields, rest)) :
    (∀ f ∈ fields, f.keySpan.line = n ∧ f.value.span.line = n) ∧ Paced n rest ∧
      ∀ t ∈ rest.head?, t.kind.isEnd = true := by
  fun_induction readFields ts generalizing fields rest with
  | case1 => cases hr; simp [h]
  | case2 s ts => cases hr; simp [h, Token.Kind.isEnd]
  | case3 s ts => cases hr; simp [h, Token.Kind.isEnd]
  | case4 text s ts ih => exact ih h.tail hr
  | case5 key keySpan s t ts value hvalue fields' rest' hfields ih =>
    obtain ⟨hv, hspan⟩ := literal?_eq_some_iff.1 hvalue
    obtain ⟨-, hline, -⟩ := word_of_value? hv
    cases fields' with
    | error e => cases hr
    | ok fields' =>
      cases hr
      obtain ⟨hfields', hrest⟩ := ih (h.tail.tail.tail hline) hfields
      refine ⟨List.forall_mem_cons.2 ⟨⟨h.line_head, ?_⟩, hfields'⟩, hrest⟩
      rw [hspan]
      exact h.tail.tail.line_head
  | case6 => cases hr
  | case7 => cases hr
  | case8 => cases hr
  | case9 => cases hr

/-- The parts of a line are on one source line, and the lines are in order on source lines of
their own. -/
structure Numbered (lines : List Line) : Prop where
  within : ∀ line ∈ lines, ∀ s ∈ line.spans, s.line = line.span.line
  ordered : lines.Pairwise fun a b => a.span.line < b.span.line

/-- Behind the end of a line all lines have larger numbers. -/
theorem readLines_numbered {n : Nat} {ts : List Token} (h : Paced n ts) :
    Numbered (readLines ts).lines ∧
      ∀ line ∈ (readLines ts).lines, n ≤ line.span.line ∧
        ((∀ t ∈ ts.head?, t.kind.isEnd = true) → n < line.span.line) := by
  have hnone : Numbered [] := ⟨by simp, List.Pairwise.nil⟩
  fun_induction readLines ts generalizing n with
  | case1 => exact ⟨hnone, by simp⟩
  | case2 s ts => exact ⟨hnone, by simp⟩
  | case3 text s ts ih =>
    obtain ⟨hnumbered, hlines⟩ := ih h.tail
    refine ⟨hnumbered, fun line hline => ⟨(hlines line hline).1, fun hend => ?_⟩⟩
    cases hend _ rfl
  | case4 s ts ih =>
    obtain ⟨hnumbered, hlines⟩ := ih h.tail_lineEnd
    refine ⟨hnumbered, fun line hline => ?_⟩
    have hle := (hlines line hline).1
    exact ⟨by omega, fun _ => by omega⟩
  | case5 => exact ⟨hnone, by simp⟩
  | case6 keyword s ts fields rest hfields _ after =>
    rename_i ih
    obtain ⟨hvalues, hrest, hend⟩ := readFields_paced h.tail hfields
    obtain ⟨hnumbered, hlines⟩ := ih hrest
    have hfirst : (Line.make keyword s fields).span.line = n := h.line_head
    refine ⟨⟨List.forall_mem_cons.2 ⟨fun s' hs' => ?_, hnumbered.within⟩,
      List.pairwise_cons.2 ⟨fun line hline => ?_, hnumbered.ordered⟩⟩,
      List.forall_mem_cons.2 ⟨⟨hfirst.ge, fun hend' => ?_⟩, fun line hline => ?_⟩⟩
    · rw [hfirst]
      rcases Line.mem_spans_iff.1 hs' with rfl | ⟨f, hf, rfl | rfl⟩
      · exact h.line_head
      · exact (hvalues f hf).1
      · exact (hvalues f hf).2
    · rw [hfirst]
      exact (hlines line hline).2 hend
    · cases hend' _ rfl
    · refine ⟨(hlines line hline).1, fun hend' => ?_⟩
      cases hend' _ rfl
  | case7 => exact ⟨hnone, by simp⟩

theorem tiles_tokens (source : String) : Tiles [] source.toList (tokens source) :=
  show Tiles [] (Cursor.ofString source).rest (tokens source) from Cursor.tiles rfl

/-- The lines of a text are numbered. -/
theorem read_numbered (source : String) : Numbered (read source).lines :=
  (readLines_numbered (tiles_tokens source).paced).1

end Playfield.Source
