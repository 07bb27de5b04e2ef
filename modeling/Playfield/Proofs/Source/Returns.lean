/-
  Playfield.Proofs.Source.Returns — carriage returns in front of the line feeds of a text.

  A carriage return is white space, and no name or number goes on with one. In front of a line
  feed it is therefore skipped, or it is the end of a comment, from which it is trimmed: the
  tokens stay what they are (`lexeme_withReturns`). All offsets behind the first line feed are
  others. But lines are counted by line feeds, and the column starts anew behind each, so the
  carriage return moves no token of its line but the line feed itself, by one column.

  Two cursors that go down the two texts are therefore beside each other: on one line, and in one
  column, but for a line feed that a comment ends at (`Beside`). With each token they stay so
  (`Beside.next`), and `tokens_crlf` says what that makes of the tokens.
-/

import Playfield.Proofs.Source.Composition

namespace Playfield.Source

/-! ## Texts with carriage returns -/

/-- The characters with a carriage return in front of every line feed. -/
def withReturns (cs : List Char) : List Char :=
  cs.flatMap fun c => if c = '\n' then ['\r', '\n'] else [c]

/-- The text with a carriage return in front of every line feed. -/
def crlf (source : String) : String :=
  .ofList (withReturns source.toList)

theorem withReturns_cons (c : Char) (cs : List Char) :
    withReturns (c :: cs) = if c = '\n' then '\r' :: '\n' :: withReturns cs
      else c :: withReturns cs := by
  unfold withReturns
  rw [List.flatMap_cons]
  split <;> rfl

theorem withReturns_append (a b : List Char) :
    withReturns (a ++ b) = withReturns a ++ withReturns b :=
  List.flatMap_append

theorem withReturns_of_not_mem {cs : List Char} (h : '\n' ∉ cs) : withReturns cs = cs := by
  induction cs with
  | nil => rfl
  | cons c cs ih =>
    rw [List.mem_cons, not_or] at h
    rw [withReturns_cons, if_neg (Ne.symm h.1), ih h.2]

theorem withReturns_feed {line : List Char} (h : '\n' ∉ line) (rest : List Char) :
    withReturns (line ++ '\n' :: rest) = line ++ '\r' :: '\n' :: withReturns rest := by
  rw [withReturns_append, withReturns_of_not_mem h, withReturns_cons, if_pos rfl]

/-! ## One token -/

theorem trimEnd_return (cs : List Char) : Text.trimEnd (cs ++ ['\r']) = Text.trimEnd cs := by
  have hblank : Text.isBlank '\r' = true := by decide
  rw [Text.trimEnd, List.reverse_append, List.reverse_singleton, List.singleton_append,
    List.dropWhile_cons_of_pos hblank]
  rfl

theorem lexeme_comment {line : List Char} (h : '\n' ∉ line) (rest : List Char) :
    lexeme '#' (line ++ '\n' :: rest) =
      { kind := .comment (.ofList (Text.trimEnd ('#' :: line))), text := '#' :: line
        rest := '\n' :: rest } := by
  have hall : ∀ c ∈ line, decide (c ≠ '\n') = true := by
    intro c hc
    rw [decide_eq_true_eq]
    rintro rfl
    exact h hc
  have htake : (line ++ '\n' :: rest).takeWhile (· ≠ '\n') = line := by
    rw [List.takeWhile_append_of_pos hall, List.takeWhile_cons_of_neg (by simp), List.append_nil]
  have hdrop : (line ++ '\n' :: rest).dropWhile (· ≠ '\n') = '\n' :: rest := by
    rw [List.dropWhile_append_of_pos hall, List.dropWhile_cons_of_neg (by simp)]
  show Lexeme.mk _ _ _ = _
  rw [htake, hdrop]

theorem lexeme_kind_ne {c : Char} (hc : c ≠ '\n') (cs : List Char) :
    (lexeme c cs).kind ≠ .lineEnd := by
  intro hend
  have hspells := (lexeme_written c cs).spells
  have htext := lexeme_text_append_rest c cs
  rw [hend] at hspells
  generalize (lexeme c cs).text = text at hspells htext
  cases hspells
  exact hc (List.cons.inj htext).1.symm

/-- The tokens at the front of a text and of the one with carriage returns are of one kind, and
written the same. Only a comment that ends at a line feed ends with the carriage return there. -/
theorem lexeme_withReturns {c : Char} (hc : c ≠ '\n') (cs : List Char) :
    (lexeme c (withReturns cs)).kind = (lexeme c cs).kind ∧
      ((lexeme c (withReturns cs)).text = (lexeme c cs).text ∧
          (lexeme c (withReturns cs)).rest = withReturns (lexeme c cs).rest ∨
        (lexeme c (withReturns cs)).text = (lexeme c cs).text ++ ['\r'] ∧
          ∃ rest, (lexeme c cs).rest = '\n' :: rest ∧
            (lexeme c (withReturns cs)).rest = '\n' :: withReturns rest) := by
  have hrest {line : List Char} (hline : '\n' ∉ line) : '\n' ∉ (lexeme c line).rest := by
    intro hmem
    have hin : '\n' ∈ c :: line := by
      rw [← lexeme_text_append_rest c line]
      exact List.mem_append_right _ hmem
    rcases List.mem_cons.1 hin with rfl | hin
    · exact hc rfl
    · exact hline hin
  by_cases hfeed : '\n' ∈ cs
  · obtain ⟨line, more, rfl, hline⟩ := List.eq_append_cons_of_mem hfeed
    rw [withReturns_feed hline]
    by_cases hhash : c = '#'
    · subst hhash
      have hline' : '\n' ∉ line ++ ['\r'] := by simp [hline]
      have hsplit : line ++ '\r' :: '\n' :: withReturns more =
          line ++ ['\r'] ++ '\n' :: withReturns more := by simp
      rw [hsplit, lexeme_comment hline, lexeme_comment hline', ← List.cons_append, trimEnd_return]
      exact ⟨rfl, .inr ⟨rfl, more, rfl, rfl⟩⟩
    · rw [lexeme_append (by decide) fun _ => rfl,
        lexeme_append (by decide) fun h => absurd h hhash]
      exact ⟨rfl, .inl ⟨rfl, (withReturns_feed (hrest hline) more).symm⟩⟩
  · rw [withReturns_of_not_mem hfeed]
    exact ⟨rfl, .inl ⟨rfl, (withReturns_of_not_mem (hrest hfeed)).symm⟩⟩

/-! ## Places without offsets -/

/-- The line and the column of a place. -/
def Span.place (s : Span) : Span :=
  { s with start := 0, stop := 0 }

/-- The token without its offsets. A line feed stands one column further, behind a carriage
return. -/
def Token.behindReturn (t : Token) : Token :=
  if t.kind = .lineEnd then { t with span := { t.span.place with column := t.span.column + 1 } }
  else t.mapSpan Span.place

theorem relocates_place : Relocates Span.place (Token.mapSpan Span.place) where
  kind _ := rfl
  span _ _ := rfl
  join _ _ := rfl

theorem relocates_behindReturn : Relocates Span.place Token.behindReturn where
  kind t := by
    unfold Token.behindReturn
    split <;> rfl
  span t ht := by
    unfold Token.behindReturn
    rw [if_neg ht]
    rfl
  join _ _ := rfl

/-- The positions are on one line, and the second one is some columns further. -/
structure Level (n : Nat) (p p' : Position) : Prop where
  line : p'.line = p.line
  column : p'.column = p.column + n

section

variable {p p' : Position}

theorem Level.step (h : Level 0 p p') (c : Char) : Level 0 (p.step c) (p'.step c) := by
  obtain ⟨hline, hcolumn⟩ := h
  unfold Position.step
  split
  · exact ⟨congrArg (· + 1) hline, rfl⟩
  · exact ⟨hline, congrArg (· + 1) hcolumn⟩

theorem Level.advance (h : Level 0 p p') (cs : List Char) :
    Level 0 (p.advance cs) (p'.advance cs) := by
  induction cs generalizing p p' with
  | nil => exact h
  | cons c cs ih => exact ih (h.step c)

/-- A carriage return more is a column more. -/
theorem Level.advance_return (h : Level 0 p p') (cs : List Char) :
    Level 1 (p.advance cs) (p'.advance (cs ++ ['\r'])) := by
  obtain ⟨hline, hcolumn⟩ := h.advance cs
  rw [Position.advance_append]
  exact ⟨hline, congrArg (· + 1) hcolumn⟩

/-- Behind a line feed the columns are the same again. -/
theorem Level.advance_feed {n : Nat} (h : Level n p p') :
    Level 0 (p.advance ['\n']) (p'.advance ['\n']) :=
  ⟨congrArg (· + 1) h.line, rfl⟩

end

/-! ## Two cursors -/

/-- The second cursor is where the first one is, in the text with carriage returns. At a line feed
it may be behind the carriage return already. -/
inductive Beside : Cursor → Cursor → Prop where
  | same {p p' : Position} {rest : List Char} : Level 0 p p' →
      Beside ⟨p, rest⟩ ⟨p', withReturns rest⟩
  | behind {p p' : Position} {rest : List Char} : Level 1 p p' →
      Beside ⟨p, '\n' :: rest⟩ ⟨p', '\n' :: withReturns rest⟩

/-- What two cursors that are beside each other come upon: the end of both texts, or a line feed
in both, or the same other character. -/
inductive Meets : Cursor → Cursor → Prop where
  | inputEnd {p p' : Position} : Level 0 p p' → Meets ⟨p, []⟩ ⟨p', []⟩
  | feed {p p' : Position} {rest : List Char} : Level 1 p p' →
      Meets ⟨p, '\n' :: rest⟩ ⟨p', '\n' :: withReturns rest⟩
  | char {p p' : Position} {c : Char} {rest : List Char} : c ≠ '\n' → Level 0 p p' →
      Meets ⟨p, c :: rest⟩ ⟨p', c :: withReturns rest⟩

section

variable {cur cur' : Cursor}

theorem exists_gap (cs : List Char) :
    ∃ gap rest, cs = gap ++ rest ∧ (∀ c ∈ gap, isGap c = true) ∧
      ∀ c ∈ rest.head?, isGap c = false := by
  refine ⟨cs.takeWhile isGap, cs.dropWhile isGap, List.takeWhile_append_dropWhile.symm,
    fun _ => List.mem_takeWhile_imp, fun c hc => ?_⟩
  have hhead := List.head?_dropWhile_not isGap cs
  rw [Option.mem_def.1 hc] at hhead
  simpa using hhead

theorem skipGap_of_append {gap rest : List Char} (hgap : ∀ c ∈ gap, isGap c = true)
    (hrest : ∀ c ∈ rest.head?, isGap c = false) (p : Position) :
    (Cursor.mk p (gap ++ rest)).skipGap = ⟨p.advance gap, rest⟩ := by
  have hends : rest.takeWhile isGap = [] ∧ rest.dropWhile isGap = rest := by
    cases rest with
    | nil => exact ⟨rfl, rfl⟩
    | cons c cs => simp [hrest c rfl]
  simp only [Cursor.skipGap, List.takeWhile_append_of_pos hgap, List.dropWhile_append_of_pos hgap,
    hends, List.append_nil]

/-- In front of a line feed the second cursor skips the carriage return. -/
theorem Beside.skipGap (h : Beside cur cur') : Meets cur.skipGap cur'.skipGap := by
  have hfeed (cs : List Char) : ∀ c ∈ ('\n' :: cs).head?, isGap c = false := by
    rintro c ⟨⟩
    rfl
  cases h with
  | @same p p' rest hlevel =>
    obtain ⟨gap, rest, rfl, hgap, hrest⟩ := exists_gap rest
    have hline : '\n' ∉ gap := by
      intro hmem
      cases hgap _ hmem
    rw [withReturns_append, withReturns_of_not_mem hline, skipGap_of_append hgap hrest]
    cases rest with
    | nil =>
      rw [withReturns_of_not_mem List.not_mem_nil, skipGap_of_append hgap hrest]
      exact .inputEnd (hlevel.advance gap)
    | cons c cs =>
      by_cases hc : c = '\n'
      · subst hc
        have hgap' : ∀ c ∈ gap ++ ['\r'], isGap c = true := by
          intro c hmem
          rcases List.mem_append.1 hmem with hmem | hmem
          · exact hgap c hmem
          · rw [List.mem_singleton.1 hmem]
            decide
        rw [withReturns_cons, if_pos rfl, List.append_cons, skipGap_of_append hgap' (hfeed _)]
        exact .feed (hlevel.advance_return gap)
      · have hrest' : ∀ c' ∈ (c :: withReturns cs).head?, isGap c' = false := hrest
        rw [withReturns_cons, if_neg hc, skipGap_of_append hgap hrest']
        exact .char hc (hlevel.advance gap)
  | @behind p p' rest hlevel =>
    have hstay (cs : List Char) (p : Position) :
        (Cursor.mk p ('\n' :: cs)).skipGap = ⟨p, '\n' :: cs⟩ :=
      skipGap_of_append (List.forall_mem_nil _) (hfeed cs) p
    rw [hstay, hstay]
    exact .feed hlevel

/-! ## All tokens -/

theorem place_upto {p p' : Position} (h : Level 0 p p') (q q' : Position) :
    (p'.upto q').place = (p.upto q).place := by
  obtain ⟨hline, hcolumn⟩ := h
  simp only [Position.upto, Span.place, hline, hcolumn, Nat.add_zero]

theorem behindReturn_of_ne {kind : Token.Kind} (h : kind ≠ .lineEnd) (s : Span) :
    Token.behindReturn ⟨kind, s⟩ = ⟨kind, s.place⟩ :=
  if_neg h

/-- The next token is the same, on its line and in its column, and behind it the cursors are beside
each other again. -/
theorem Beside.next (h : Beside cur cur') :
    cur'.next.1.mapSpan Span.place = cur.next.1.behindReturn ∧
      (cur.skipGap.rest = [] ∧ cur'.skipGap.rest = [] ∨
        cur.skipGap.rest ≠ [] ∧ cur'.skipGap.rest ≠ [] ∧ Beside cur.next.2 cur'.next.2) := by
  have hmeets := h.skipGap
  unfold Cursor.next
  generalize cur.skipGap = start at hmeets ⊢
  generalize cur'.skipGap = start' at hmeets ⊢
  cases hmeets with
  | @inputEnd p p' hlevel =>
    refine ⟨?_, .inl ⟨rfl, rfl⟩⟩
    rw [behindReturn_of_ne (by simp), Token.mapSpan, place_upto hlevel]
  | @feed p p' rest hlevel =>
    refine ⟨?_, .inr ⟨by simp, by simp, .same hlevel.advance_feed⟩⟩
    obtain ⟨hline, hcolumn⟩ := hlevel
    show Token.mk _ ⟨0, 0, p'.line, p'.column⟩ = _
    rw [hline, hcolumn]
    rfl
  | @char p p' c rest hc hlevel =>
    obtain ⟨hkind, hrest⟩ := lexeme_withReturns hc rest
    have hne := lexeme_kind_ne hc rest
    refine ⟨?_, .inr ⟨by simp, by simp, ?_⟩⟩
    · show Token.mk (lexeme c (withReturns rest)).kind (p'.upto _).place = _
      rw [behindReturn_of_ne hne, hkind, place_upto hlevel]
    · rcases hrest with ⟨htext, hrest⟩ | ⟨htext, more, hmore, hrest⟩
      · simp only [htext, hrest]
        exact .same (hlevel.advance _)
      · simp only [htext, hmore, hrest]
        exact .behind (hlevel.advance_return _)

/-- The tokens of two cursors that are beside each other. -/
theorem Beside.tokens (h : Beside cur cur') :
    cur'.tokens.map (·.mapSpan Span.place) = cur.tokens.map Token.behindReturn := by
  fun_induction Cursor.tokens cur generalizing cur' with
  | case1 cur hend =>
    obtain ⟨htoken, ⟨-, hend'⟩ | ⟨hne, -⟩⟩ := h.next
    · rw [Cursor.tokens, dif_pos hend', List.map_singleton, List.map_singleton, htoken]
    · exact absurd hend hne
  | case2 cur hne _ ih =>
    obtain ⟨htoken, ⟨hend, -⟩ | ⟨-, hne', hnext⟩⟩ := h.next
    · exact absurd hend hne
    · rw [Cursor.tokens, dif_neg hne', List.map_cons, List.map_cons, htoken, ih hnext]

end

/-- The tokens of the text with carriage returns are those of the text, on their lines and in their
columns. Only the line feeds are one column further. -/
theorem tokens_crlf (source : String) :
    (tokens (crlf source)).map (·.mapSpan Span.place) = (tokens source).map Token.behindReturn := by
  have hstart : Cursor.ofString (crlf source) = ⟨{}, withReturns source.toList⟩ := by
    rw [Cursor.ofString, crlf, String.toList_ofList]
  have hbeside : Beside (Cursor.ofString source) (Cursor.ofString (crlf source)) := by
    rw [hstart]
    exact .same ⟨rfl, rfl⟩
  exact hbeside.tokens

end Playfield.Source
