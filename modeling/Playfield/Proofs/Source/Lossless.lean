/-
  Playfield.Proofs.Source.Lossless — the tokens of a text tile it, and their places are exact.

  A position keeps an offset, a line and a column, moved on character by character. `advance_eq`
  says what they are worth behind a stretch of text: its bytes, its line feeds, and the
  characters since the last one. A token `Stands` behind a stretch of text when its span is worth
  that, and what it keeps is what was written there.

  `Tiles` is the text laid out as tokens: white space, a token, white space, and so on to the end
  of input. The tokens of a text tile it (`Cursor.tiles`), and all else is read off the tiling:
  `tokens_lossless`.
-/

import Mathlib.Data.List.DropRight
import Mathlib.Data.String.Basic
import Playfield.Proofs.Source.Scan

namespace Playfield.Source

open String (utf8Len utf8Len_append)

/-! ## Places -/

/-- The characters behind the last line feed. -/
def lastLine (cs : List Char) : List Char :=
  cs.rtakeWhile (· ≠ '\n')

theorem lastLine_concat (cs : List Char) (c : Char) :
    lastLine (cs ++ [c]) = if c = '\n' then [] else lastLine cs ++ [c] := by
  rw [lastLine, List.rtakeWhile_concat]
  by_cases hc : c = '\n'
  · simp [hc]
  · simp [hc, lastLine]

theorem Position.advance_append (p : Position) (cs cs' : List Char) :
    p.advance (cs ++ cs') = (p.advance cs).advance cs' :=
  List.foldl_append

/-- The position behind a stretch of text. -/
theorem Position.advance_eq (cs : List Char) :
    ({} : Position).advance cs =
      { offset := utf8Len cs, line := 1 + cs.count '\n', column := 1 + (lastLine cs).length } := by
  induction cs using List.reverseRecOn with
  | nil => rfl
  | append_singleton cs c ih =>
    rw [Position.advance_append, ih, lastLine_concat]
    by_cases hc : c = '\n'
    · simp [Position.advance, Position.step, hc, Nat.add_assoc]
    · simp [Position.advance, Position.step, hc, Nat.add_assoc]

theorem length_lastLine_le (cs : List Char) : (lastLine cs).length ≤ cs.length :=
  (List.rtakeWhile_suffix _ _).length_le

theorem utf8Len_lt_append_cons (cs cs' : List Char) (c : Char) :
    utf8Len cs < utf8Len (cs ++ c :: cs') := by
  have hpos := c.utf8Size_pos
  simp only [utf8Len_append, String.utf8Len_cons]
  omega

/-! ## What a token keeps of its text -/

/-- What is written where a token of some kind stands. -/
inductive Spells : Token.Kind → List Char → Prop where
  | name (text : List Char) : Spells (.name (.ofList text)) text
  | integer (text : List Char) : Spells (.integer (.ofList text)) text
  | decimal (text : List Char) : Spells (.decimal (.ofList text)) text
  | equals : Spells .equals ['=']
  | lineEnd : Spells .lineEnd ['\n']
  | comment (text : List Char) : Spells (.comment (.ofList (Text.trimEnd text))) text
  | inputEnd : Spells .inputEnd []
  | bareMinus : Spells (.invalid .bareMinus) ['-']
  | barePoint : Spells (.invalid .barePoint) ['.']
  | stray (c : Char) : Spells (.invalid (.stray c)) [c]

/-- A lexeme spells its token, and only the end of a line is written with a line feed. -/
structure Lexeme.Written (lx : Lexeme) : Prop where
  spells : Spells lx.kind lx.text
  lineFeed : '\n' ∈ lx.text → lx.kind = .lineEnd

theorem not_mem_takeWhile {p : Char → Bool} {c : Char} (hc : p c = false) (cs : List Char) :
    c ∉ cs.takeWhile p := by
  intro hmem
  rw [List.mem_takeWhile_imp hmem] at hc
  cases hc

theorem lineFeed_not_mem_unsigned (cs : List Char) : '\n' ∉ unsigned cs := by
  have hdigits (l : List Char) : '\n' ∉ l.takeWhile Char.isDigit := not_mem_takeWhile rfl l
  unfold unsigned
  split
  · simp [hdigits]
  · exact hdigits cs

theorem numeral_written {sign : List Char} (hsign : '\n' ∉ sign) (cs : List Char) :
    (numeral sign cs).Written := by
  have hnot : '\n' ∉ sign ++ unsigned cs := by
    simp [hsign, lineFeed_not_mem_unsigned]
  refine ⟨?_, fun hmem => absurd hmem hnot⟩
  cases h : (sign ++ unsigned cs).contains '.' with
  | true =>
    simp only [numeral, h, if_true]
    exact .decimal _
  | false =>
    simp only [numeral, h, Bool.false_eq_true, if_false]
    exact .integer _

theorem lexeme_written (c : Char) (cs : List Char) : (lexeme c cs).Written := by
  unfold lexeme
  split
  · next hc => exact ⟨hc ▸ .lineEnd, fun _ => rfl⟩
  rename_i hfeed
  have hone : '\n' ∉ [c] := by simpa using Ne.symm hfeed
  split
  · next hc => exact ⟨hc ▸ .equals, fun hmem => absurd hmem hone⟩
  split
  · have hnot := not_mem_takeWhile (p := (· ≠ '\n')) (c := '\n') (by decide) cs
    exact ⟨.comment _, fun hmem => absurd hmem (by simpa [Ne.symm hfeed] using hnot)⟩
  split
  · next hc =>
    split
    · exact numeral_written hone cs
    · exact ⟨hc ▸ .bareMinus, fun hmem => absurd hmem hone⟩
  split
  · exact numeral_written List.not_mem_nil _
  split
  · next hc => exact ⟨hc ▸ .barePoint, fun hmem => absurd hmem hone⟩
  split
  · have hnot := not_mem_takeWhile (p := isNameChar) (c := '\n') (by decide) cs
    exact ⟨.name _, fun hmem => absurd hmem (by simpa [Ne.symm hfeed] using hnot)⟩
  · exact ⟨.stray c, fun hmem => absurd hmem hone⟩

/-! ## Tilings -/

/-- The token stands behind `before` and is written `text`. -/
structure Token.Stands (t : Token) (before text : List Char) : Prop where
  start : t.span.start = utf8Len before
  stop : t.span.stop = utf8Len (before ++ text)
  line : t.span.line = 1 + before.count '\n'
  column : t.span.column = 1 + (lastLine before).length
  spells : Spells t.kind text
  lineFeed : '\n' ∈ text → t.kind = .lineEnd

/-- Behind `before`, the text goes on with white space and tokens in turn, up to the end of
input. -/
inductive Tiles : List Char → List Char → List Token → Prop where
  | inputEnd {before gap : List Char} {t : Token} : (∀ c ∈ gap, isGap c = true) →
      t.kind = .inputEnd → t.Stands (before ++ gap) [] → Tiles before gap [t]
  | cons {before gap text rest : List Char} {t : Token} {ts : List Token} :
      (∀ c ∈ gap, isGap c = true) → text ≠ [] → t.Stands (before ++ gap) text →
      Tiles (before ++ gap ++ text) rest ts → Tiles before (gap ++ (text ++ rest)) (t :: ts)

theorem stands_of_written (before : List Char) {text : List Char} {kind : Token.Kind}
    (hspells : Spells kind text) (hfeed : '\n' ∈ text → kind = .lineEnd) :
    Token.Stands
      ⟨kind, (Position.advance {} before).upto (Position.advance {} (before ++ text))⟩
      before text where
  start := congrArg Position.offset (Position.advance_eq before)
  stop := congrArg Position.offset (Position.advance_eq (before ++ text))
  line := congrArg Position.line (Position.advance_eq before)
  column := congrArg Position.column (Position.advance_eq before)
  spells := hspells
  lineFeed := hfeed

namespace Cursor

theorem next_of_end {cur : Cursor} (h : cur.skipGap.rest = []) :
    cur.next.1 = ⟨.inputEnd, cur.skipGap.position.upto cur.skipGap.position⟩ := by
  simp only [next, h]

theorem next_of_cons {cur : Cursor} {c : Char} {cs : List Char}
    (h : cur.skipGap.rest = c :: cs) :
    cur.next =
      (⟨(lexeme c cs).kind,
          cur.skipGap.position.upto (cur.skipGap.position.advance (lexeme c cs).text)⟩,
        ⟨cur.skipGap.position.advance (lexeme c cs).text, (lexeme c cs).rest⟩) := by
  simp only [next, h]

/-- The tokens from a cursor on tile the rest of the text. -/
theorem tiles {cur : Cursor} {before : List Char}
    (h : cur.position = Position.advance {} before) : Tiles before cur.rest cur.tokens := by
  fun_induction tokens cur generalizing before with
  | case1 cur hend =>
    have hgap : cur.rest.takeWhile isGap = cur.rest := by
      rw [← List.append_nil (cur.rest.takeWhile isGap), ← hend]
      exact List.takeWhile_append_dropWhile
    have hposition : cur.skipGap.position = Position.advance {} (before ++ cur.rest) := by
      rw [skipGap, hgap, h, Position.advance_append]
    rw [next_of_end hend, hposition]
    refine .inputEnd (fun c hc => ?_) rfl ?_
    · rw [← hgap] at hc
      exact List.mem_takeWhile_imp hc
    · have hstands := stands_of_written (before ++ cur.rest) .inputEnd
        (fun hmem => absurd hmem List.not_mem_nil)
      rwa [List.append_nil] at hstands
  | case2 cur hend _ ih =>
    obtain ⟨c, cs, hrest⟩ := List.exists_cons_of_ne_nil hend
    have hposition :
        cur.skipGap.position = Position.advance {} (before ++ cur.rest.takeWhile isGap) := by
      rw [skipGap, h, Position.advance_append]
    have htext : cur.rest.takeWhile isGap ++ ((lexeme c cs).text ++ (lexeme c cs).rest) =
        cur.rest := by
      rw [lexeme_text_append_rest, ← hrest]
      exact List.takeWhile_append_dropWhile
    obtain ⟨hspells, hfeed⟩ := lexeme_written c cs
    rw [next_of_cons hrest] at ih ⊢
    rw [hposition, ← Position.advance_append] at ih ⊢
    have htiles := Tiles.cons (fun _ => List.mem_takeWhile_imp) (lexeme_text_ne_nil c cs)
      (stands_of_written _ hspells hfeed) (ih rfl)
    rwa [htext] at htiles

end Cursor

/-! ## What a tiling says -/

/-- An element of two lists in a row is in the first or in the second. -/
theorem append_eq_append_cons {α : Type} {as bs xs ys : List α} {c : α}
    (h : as ++ bs = xs ++ c :: ys) :
    (∃ as', as = xs ++ c :: as') ∨ ∃ xs', xs = as ++ xs' ∧ bs = xs' ++ c :: ys := by
  rcases List.append_eq_append_iff.1 h with ⟨xs', hxs, hbs⟩ | ⟨as', has, hys⟩
  · exact .inr ⟨xs', hxs, hbs⟩
  · cases as' with
    | nil => exact .inr ⟨[], by simp [has], hys.symm⟩
    | cons c' as' =>
      cases hys
      exact .inl ⟨as', has⟩

namespace Tiles

variable {before rest : List Char} {ts : List Token}

/-- Every token stands somewhere in the text, and not before the tiling begins. -/
theorem exists_stands (h : Tiles before rest ts) {t : Token} (ht : t ∈ ts) :
    ∃ front text after, rest = front ++ text ++ after ∧ t.Stands (before ++ front) text := by
  induction h with
  | @inputEnd before gap t' _ _ hstands =>
    cases List.mem_singleton.1 ht
    exact ⟨gap, [], [], by simp, hstands⟩
  | @cons before gap text rest t' ts _ _ hstands _ ih =>
    rcases List.mem_cons.1 ht with rfl | ht
    · exact ⟨gap, text, rest, by simp, hstands⟩
    · obtain ⟨front, text', after, rfl, hstands'⟩ := ih ht
      refine ⟨gap ++ text ++ front, text', after, by simp, ?_⟩
      simpa using hstands'

theorem le_start (h : Tiles before rest ts) {t : Token} (ht : t ∈ ts) :
    utf8Len before ≤ t.span.start := by
  obtain ⟨front, _, _, -, hstands⟩ := h.exists_stands ht
  rw [hstands.start, utf8Len_append]
  exact Nat.le_add_right _ _

theorem ordered (h : Tiles before rest ts) :
    ts.Pairwise fun t u => t.span.stop ≤ u.span.start := by
  induction h with
  | inputEnd _ _ _ => exact List.pairwise_singleton _ _
  | cons _ _ hstands htiles ih =>
    refine List.pairwise_cons.2 ⟨fun u hu => ?_, ih⟩
    rw [hstands.stop]
    exact htiles.le_start hu

theorem ends (h : Tiles before rest ts) :
    ∃ init last, ts = init ++ [last] ∧ last.kind = .inputEnd ∧
      last.Stands (before ++ rest) [] ∧ ∀ t ∈ init, t.kind ≠ .inputEnd := by
  induction h with
  | @inputEnd before gap t _ hkind hstands =>
    exact ⟨[], t, rfl, hkind, hstands, fun _ h => nomatch h⟩
  | @cons before gap text rest t ts _ htext hstands _ ih =>
    obtain ⟨init, last, rfl, hkind, hlast, hinit⟩ := ih
    refine ⟨t :: init, last, rfl, hkind, by simpa using hlast, ?_⟩
    refine List.forall_mem_cons.2 ⟨fun hend => ?_, hinit⟩
    have hspells := hstands.spells
    rw [hend] at hspells
    cases hspells
    exact htext rfl

theorem length_le (h : Tiles before rest ts) : ts.length ≤ rest.length + 1 := by
  induction h with
  | inputEnd _ _ _ => simp
  | cons _ htext _ _ ih =>
    have hpos := List.length_pos_iff.2 htext
    simp only [List.length_append, List.length_cons]
    omega

/-- A character of the text is white space or a token's. -/
theorem char_cases (h : Tiles before rest ts) {front after : List Char} {c : Char}
    (hc : rest = front ++ c :: after) :
    isGap c = true ∨ ∃ t ∈ ts, ∃ stretch left right,
      t.Stands stretch (left ++ c :: right) ∧ before ++ front = stretch ++ left := by
  induction h generalizing front with
  | @inputEnd before gap t hgap _ _ =>
    exact .inl (hgap c (by simp [hc]))
  | @cons before gap text rest t ts hgap _ hstands _ ih =>
    rcases append_eq_append_cons hc with ⟨_, hfront⟩ | ⟨left, rfl, hc'⟩
    · exact .inl (hgap c (by simp [hfront]))
    rcases append_eq_append_cons hc' with ⟨right, rfl⟩ | ⟨front, rfl, hrest⟩
    · exact .inr ⟨t, List.mem_cons_self, before ++ gap, left, right, hstands, by simp⟩
    rcases ih hrest with hgap | ⟨u, hu, stretch, left, right, hstands', hfront⟩
    · exact .inl hgap
    · exact .inr ⟨u, List.mem_cons_of_mem t hu, stretch, left, right, hstands', by
        rw [← hfront]
        simp⟩

end Tiles

/-! ## The tokens of a text -/

/-- The tokens are the text: nothing but white space is left out, and every place is exact. -/
structure Lossless (source : String) (ts : List Token) : Prop where
  /-- The end of input stands once, at the end of the text. -/
  ends : ∃ init last, ts = init ++ [last] ∧ last.kind = .inputEnd ∧
    last.span.start = source.utf8ByteSize ∧ last.span.stop = source.utf8ByteSize ∧
      ∀ t ∈ init, t.kind ≠ .inputEnd
  /-- No token begins before the ones in front of it have ended. -/
  ordered : ts.Pairwise fun t u => t.span.stop ≤ u.span.start
  /-- A token's span goes from one character of the text to another, what it keeps is what is
  written in between, and its line and column are those of its start. -/
  stands : ∀ t ∈ ts, ∃ before text after,
    source.toList = before ++ text ++ after ∧ t.Stands before text
  /-- A character outside of all spans is white space and no line feed. -/
  gaps : ∀ before c after, source.toList = before ++ c :: after →
    (∃ t ∈ ts, t.span.start ≤ utf8Len before ∧ utf8Len before < t.span.stop) ∨
      Text.isBlank c = true ∧ c ≠ '\n'
  /-- Every line feed is the one byte of a token of its own. -/
  lineFeeds : ∀ before after, source.toList = before ++ '\n' :: after →
    ∃ t ∈ ts, t.kind = .lineEnd ∧ t.span.start = utf8Len before ∧
      t.span.stop = utf8Len before + 1
  count : ts.length ≤ source.length + 1
  /-- Lines and columns count no further than the characters do. -/
  counters : ∀ t ∈ ts, t.span.line ≤ source.length + 1 ∧ t.span.column ≤ source.length + 1

theorem Tiles.lossless {source : String} {ts : List Token} (h : Tiles [] source.toList ts) :
    Lossless source ts where
  ends := by
    obtain ⟨init, last, hts, hkind, hlast, hinit⟩ := h.ends
    have hsize : utf8Len source.toList = source.utf8ByteSize := by
      rw [← String.utf8ByteSize_ofList, String.ofList_toList]
    refine ⟨init, last, hts, hkind, hlast.start.trans hsize, ?_, hinit⟩
    rw [hlast.stop, List.append_nil]
    exact hsize
  ordered := h.ordered
  stands t ht := by
    obtain ⟨before, text, after, hsource, hstands⟩ := h.exists_stands ht
    exact ⟨before, text, after, hsource, hstands⟩
  gaps before c after hsource := by
    rcases h.char_cases hsource with hgap | ⟨t, ht, stretch, left, right, hstands, rfl⟩
    · refine .inr ?_
      simpa [isGap] using hgap
    · refine .inl ⟨t, ht, ?_, ?_⟩
      · rw [hstands.start, utf8Len_append]
        exact Nat.le_add_right _ _
      · rw [hstands.stop, ← List.append_assoc]
        exact utf8Len_lt_append_cons _ _ _
  lineFeeds before after hsource := by
    rcases h.char_cases hsource with hgap | ⟨t, ht, stretch, left, right, hstands, rfl⟩
    · cases hgap
    · have hkind := hstands.lineFeed (by simp)
      have hspells := hstands.spells
      rw [hkind] at hspells
      -- The token is written with the one character, so it begins where the line feed does.
      cases left with
      | nil =>
        cases hspells
        refine ⟨t, ht, hkind, by simpa using hstands.start, ?_⟩
        rw [hstands.stop, List.append_nil, List.nil_append, utf8Len_append]
        rfl
      | cons _ left =>
        cases left <;> cases hspells
  count := h.length_le
  counters t ht := by
    obtain ⟨before, text, after, hsource, hstands⟩ := h.exists_stands ht
    rw [List.nil_append] at hstands
    have hlength : before.length ≤ source.length := by
      rw [← String.length_toList, hsource]
      simp only [List.length_append]
      omega
    have hcount : before.count '\n' ≤ before.length := List.count_le_length
    have hlast := length_lastLine_le before
    rw [hstands.line, hstands.column]
    omega

/-- The tokens of a text lose nothing of it but white space, and their places are exact. -/
theorem tokens_lossless (source : String) : Lossless source (tokens source) := by
  have hstart : (Cursor.ofString source).position = Position.advance {} [] := rfl
  exact (Cursor.tiles hstart).lossless

/-- Offsets count bytes, and columns count characters. -/
example : (tokens "é=1").map (·.span) =
    [⟨0, 2, 1, 1⟩, ⟨2, 3, 1, 2⟩, ⟨3, 4, 1, 3⟩, ⟨4, 4, 1, 4⟩] := by decide +kernel

end Playfield.Source
