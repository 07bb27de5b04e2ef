/-
  Playfield.Proofs.Source.Composition — a text is read line by line, and so part by part.

  Two texts that meet at a line feed are read as the first and then the second. What makes it so:
  - A token reaches over no line feed, so the tokens in front of one do not hang on what follows.
    The tokens of the whole are those of the first text up to its end of input, the line feed,
    and those of the second, as far down as the first goes (`Cursor.tokens_continues`,
    `Cursor.tokens_moved`).
  - At the end of a line the reader is where it began. So it reads the first tokens as if they
    were alone, and goes on (`readLines_continues`).
  - The line that a fault shows is found from its offset, and it ends at the line feeds around it
    (`lineText_moved`).

  Together: a text whose lines can be read may stand in front of any other, and lines or fault
  of the other are the same, only further down (`parseLines_composes`).
-/

import Playfield.Proofs.Source.Layout
import Playfield.Proofs.Source.Lossless
import Playfield.Proofs.Source.Places

namespace Playfield.Source

open String (utf8Len utf8Len_append utf8Len_cons utf8Len_toList)

/-! ## Places further down -/

/-- How far down something is moved, in bytes and in lines. -/
structure Distance where
  bytes : Nat
  lines : Nat

/-- From the beginning of a text to behind the line feed that follows it. -/
def Distance.past (s : String) : Distance :=
  { bytes := s.utf8ByteSize + 1, lines := 1 + s.toList.count '\n' }

variable (d : Distance)

def Position.moved (p : Position) : Position :=
  { p with offset := p.offset + d.bytes, line := p.line + d.lines }

/-- The span further down, in the same columns. -/
def Span.moved (s : Span) : Span :=
  { start := s.start + d.bytes, stop := s.stop + d.bytes, line := s.line + d.lines
    column := s.column }

def Token.moved (t : Token) : Token :=
  { t with span := t.span.moved d }

def Literal.moved (l : Literal) : Literal :=
  { l with span := l.span.moved d }

def Field.moved (f : Field) : Field :=
  { f with keySpan := f.keySpan.moved d, value := f.value.moved d }

/-- The same line further down. -/
def Line.moved (line : Line) : Line :=
  { line with
    keywordSpan := line.keywordSpan.moved d
    fields := line.fields.map (·.moved d)
    span := line.span.moved d }

def Cursor.moved (cur : Cursor) : Cursor :=
  { cur with position := cur.position.moved d }

def Reading.moved (r : Reading) : Reading :=
  { r with lines := r.lines.map (·.moved d), rest := r.rest.map (·.moved d) }

variable {d}

theorem Position.step_moved (p : Position) (c : Char) :
    (p.moved d).step c = (p.step c).moved d := by
  unfold step
  split <;> simp only [moved, Nat.add_right_comm]

theorem Position.advance_moved (p : Position) (cs : List Char) :
    (p.moved d).advance cs = (p.advance cs).moved d := by
  induction cs generalizing p with
  | nil => rfl
  | cons c cs ih =>
    simp only [advance, List.foldl_cons] at ih ⊢
    rw [step_moved, ih]

theorem Position.upto_moved (p q : Position) : (p.moved d).upto (q.moved d) = (p.upto q).moved d :=
  rfl

/-- A text begins where the one in front of it and the line feed end. -/
theorem Position.advance_past (s : String) :
    ({} : Position).advance (s.toList ++ ['\n']) = ({} : Position).moved (.past s) := by
  rw [advance_eq, lastLine_concat, if_pos rfl, utf8Len_append, utf8Len_toList,
    List.count_append]
  simp only [moved, Distance.past, Position.mk.injEq]
  refine ⟨?_, ?_, rfl⟩
  · rw [Nat.zero_add]
    rfl
  · rw [List.count_singleton_self]
    omega

namespace Cursor

theorem tokens_of_end {cur : Cursor} (h : cur.skipGap.rest = []) :
    cur.tokens = [⟨.inputEnd, cur.skipGap.position.upto cur.skipGap.position⟩] := by
  rw [tokens, dif_pos h, next_of_end h]

theorem tokens_of_cons {cur : Cursor} {c : Char} {cs : List Char}
    (h : cur.skipGap.rest = c :: cs) : cur.tokens = cur.next.1 :: cur.next.2.tokens := by
  rw [tokens, dif_neg (by rw [h]; exact List.cons_ne_nil c cs)]

theorem skipGap_moved (cur : Cursor) : (cur.moved d).skipGap = cur.skipGap.moved d := by
  simp only [skipGap, moved, Position.advance_moved]

theorem tokens_moved (cur : Cursor) : (cur.moved d).tokens = cur.tokens.map (·.moved d) := by
  induction hn : cur.rest.length using Nat.strong_induction_on generalizing cur with
  | _ n ih =>
    cases hrest : cur.skipGap.rest with
    | nil =>
      have hrest' : (cur.moved d).skipGap.rest = [] := by rw [skipGap_moved]; exact hrest
      rw [tokens_of_end hrest, tokens_of_end hrest', skipGap_moved]
      rfl
    | cons c cs =>
      have hrest' : (cur.moved d).skipGap.rest = c :: cs := by rw [skipGap_moved]; exact hrest
      have hnext : (cur.moved d).next = (cur.next.1.moved d, cur.next.2.moved d) := by
        rw [next_of_cons hrest, next_of_cons hrest', skipGap_moved]
        simp only [moved, Position.advance_moved, Position.upto_moved]
        rfl
      have hlt : cur.next.2.rest.length < n := by
        rw [← hn]
        exact cur.next_rest_length_lt (by rw [hrest]; exact List.cons_ne_nil c cs)
      rw [tokens_of_cons hrest, tokens_of_cons hrest', hnext, ih _ hlt cur.next.2 rfl,
        List.map_cons]

end Cursor

/-! ## Tokens that go on behind the end of input -/

/-- The second tokens are the first ones up to the end of input. There they go on with a token on
the same line, and others behind it. -/
inductive Continues (feed : Token) (later : List Token) : List Token → List Token → Prop where
  | inputEnd {t : Token} : t.kind = .inputEnd → t.span.line = feed.span.line →
      Continues feed later [t] (feed :: later)
  | cons {t : Token} {ts ts' : List Token} : t.kind ≠ .inputEnd → Continues feed later ts ts' →
      Continues feed later (t :: ts) (t :: ts')

/-- Behind a text and a line feed the tokens go on with those of what follows. -/
theorem Cursor.tokens_continues (p : Position) (a b : List Char) :
    Continues ⟨.lineEnd, (p.advance a).upto (p.advance (a ++ ['\n']))⟩
      (Cursor.mk (p.advance (a ++ ['\n'])) b).tokens (Cursor.mk p a).tokens
      (Cursor.mk p (a ++ '\n' :: b)).tokens := by
  have hfeed : isGap '\n' = false := by decide
  induction hn : a.length using Nat.strong_induction_on generalizing p a with
  | _ n ih =>
    have hgap : (Cursor.mk p (a ++ '\n' :: b)).skipGap.position = (Cursor.mk p a).skipGap.position := by
      simp only [skipGap, takeWhile_append_cons hfeed]
    have hdrop : (Cursor.mk p (a ++ '\n' :: b)).skipGap.rest =
        (Cursor.mk p a).skipGap.rest ++ '\n' :: b := dropWhile_append_cons hfeed a b
    cases hrest : (Cursor.mk p a).skipGap.rest with
    | nil =>
      rw [hrest, List.nil_append] at hdrop
      have hall : a.takeWhile isGap = a := by
        have hsplit := List.takeWhile_append_dropWhile (p := isGap) (l := a)
        rwa [show a.dropWhile isGap = [] from hrest, List.append_nil] at hsplit
      have hposition : (Cursor.mk p a).skipGap.position = p.advance a := by
        simp only [skipGap, hall]
      rw [tokens_of_end hrest, tokens_of_cons hdrop, next_of_cons hdrop, hgap, hposition,
        Position.advance_append p a]
      exact .inputEnd rfl rfl
    | cons c cs =>
      rw [hrest, List.cons_append] at hdrop
      have hsplit : a = a.takeWhile isGap ++ ((lexeme c cs).text ++ (lexeme c cs).rest) := by
        rw [lexeme_text_append_rest, ← hrest]
        exact List.takeWhile_append_dropWhile.symm
      have hlt : (lexeme c cs).rest.length < n := by
        have hpos := List.length_pos_iff.2 (lexeme_text_ne_nil c cs)
        have hlen := congrArg List.length hsplit
        simp only [List.length_append] at hlen
        omega
      have hstop : ((Cursor.mk p a).skipGap.position.advance (lexeme c cs).text).advance
          (lexeme c cs).rest = p.advance a := by
        conv_rhs => rw [hsplit]
        simp only [Position.advance_append, skipGap]
      have hnext := ih _ hlt ((Cursor.mk p a).skipGap.position.advance (lexeme c cs).text)
        (lexeme c cs).rest rfl
      rw [Position.advance_append _ _ ['\n'], hstop, ← Position.advance_append] at hnext
      rw [tokens_of_cons hrest, tokens_of_cons hdrop, next_of_cons hrest, next_of_cons hdrop, hgap,
        lexeme_append (by decide) fun _ => rfl]
      refine .cons ?_ hnext
      intro hend
      have hend : (lexeme c cs).kind = .inputEnd := hend
      have hproper := lexeme_proper c cs
      rw [Lexeme.Proper, hend] at hproper
      exact hproper

/-! ## Reading on -/

section

variable {feed : Token} {later ts ts' : List Token}

theorem Continues.inputEnd_inv {s : Span} (h : Continues feed later (⟨.inputEnd, s⟩ :: ts) ts') :
    ts' = feed :: later := by
  cases h with
  | inputEnd _ _ => rfl
  | cons hne _ => exact absurd rfl hne

theorem Continues.cons_inv {t : Token} (ht : t.kind ≠ .inputEnd)
    (h : Continues feed later (t :: ts) ts') :
    ∃ us, ts' = t :: us ∧ Continues feed later ts us := by
  cases h with
  | inputEnd hend _ => exact absurd hend ht
  | cons _ h => exact ⟨_, rfl, h⟩

theorem Continues.misfit_inv {t : Token} (ht : t.kind.isMisfit = true)
    (h : Continues feed later (t :: ts) ts') : ∃ us, ts' = t :: us := by
  have hne : t.kind ≠ .inputEnd := by
    intro hend
    rw [hend] at ht
    cases ht
  obtain ⟨us, hus, -⟩ := h.cons_inv hne
  exact ⟨us, hus⟩

/-- The first tokens of both are the same, or the end of input and the line feed. -/
theorem Continues.head (h : Continues feed later ts ts') :
    ∃ t us t' us', ts = t :: us ∧ ts' = t' :: us' ∧ t.span.line = t'.span.line ∧
      (t = t' ∨ t.kind = .inputEnd ∧ t' = feed) := by
  cases h with
  | inputEnd hend hline => exact ⟨_, _, _, _, rfl, rfl, hline, .inr ⟨hend, rfl⟩⟩
  | cons _ _ => exact ⟨_, _, _, _, rfl, rfl, rfl, .inl rfl⟩

/-- Fields are read the same, and what is left goes on the same way. -/
theorem readFields_continues (hfeed : feed.kind = .lineEnd) (h : Continues feed later ts ts') :
    (readFields ts').1 = (readFields ts).1 ∧
      Continues feed later (readFields ts).2 (readFields ts').2 := by
  obtain ⟨kind, span⟩ := feed
  cases hfeed
  fun_induction readFields ts generalizing ts' with
  | case1 => cases h
  | case2 s ts =>
    cases h.inputEnd_inv
    exact ⟨rfl, h⟩
  | case3 s ts =>
    obtain ⟨us, rfl, -⟩ := h.cons_inv (by simp)
    exact ⟨rfl, h⟩
  | case4 text s ts ih =>
    obtain ⟨us, rfl, htail⟩ := h.cons_inv (by simp)
    rw [readFields]
    exact ih htail
  | case5 key keySpan s t ts value hvalue fields rest hfields ih =>
    obtain ⟨us, rfl, hname⟩ := h.cons_inv (by simp)
    obtain ⟨us, rfl, hequals⟩ := hname.cons_inv (by simp)
    have ht : t.kind ≠ .inputEnd := by
      intro hend
      rw [Token.literal?, hend] at hvalue
      cases hvalue
    obtain ⟨us, rfl, htail⟩ := hequals.cons_inv ht
    obtain ⟨hsame, hrest⟩ := ih htail
    rw [hfields] at hsame hrest
    simp only [readFields, hvalue]
    exact ⟨by rw [hsame], hrest⟩
  | case6 key keySpan s t ts hnone =>
    obtain ⟨us, rfl, hname⟩ := h.cons_inv (by simp)
    obtain ⟨us, rfl, hequals⟩ := hname.cons_inv (by simp)
    obtain ⟨u, vs, t', us', hcons, rfl, -, hhead⟩ := hequals.head
    cases hcons
    have hnone' : t'.literal? = none := by
      rcases hhead with rfl | ⟨-, rfl⟩
      · exact hnone
      · rfl
    simp only [readFields, hnone']
    exact ⟨trivial, hequals⟩
  | case7 key s s' =>
    obtain ⟨us, rfl, hname⟩ := h.cons_inv (by simp)
    obtain ⟨us, rfl, hequals⟩ := hname.cons_inv (by simp)
    cases hequals
  | case8 key s ts hnot hnot' =>
    obtain ⟨us, rfl, hname⟩ := h.cons_inv (by simp)
    obtain ⟨t, vs, ⟨k, s'⟩, us', hcons, rfl, -, hhead⟩ := hname.head
    have hequals : k ≠ .equals := by
      rintro rfl
      rcases hhead with rfl | ⟨-, hfeed⟩
      · cases vs with
        | nil => exact hnot' s' hcons
        | cons t us => exact hnot s' t us hcons
      · cases hfeed
    cases k <;> first | exact absurd rfl hequals | exact ⟨rfl, hname⟩
  | case9 ts hne hend hline hcomment _ _ hname =>
    obtain ⟨t, us, rfl, ht⟩ := exists_misfit hne hend hline hcomment hname
    obtain ⟨us', rfl⟩ := h.misfit_inv ht
    rw [readFields_of_misfit ht]
    exact ⟨rfl, h⟩

/-- Lines that can be read stand in front of those of what follows. A token that does not fit
stops the reader in both cases. -/
theorem readLines_continues (hfeed : feed.kind = .lineEnd) (h : Continues feed later ts ts') :
    match (readLines ts).missing with
    | none => readLines ts' =
        { readLines later with lines := (readLines ts).lines ++ (readLines later).lines }
    | some e => (readLines ts').missing = some e ∧
        Continues feed later (readLines ts).rest (readLines ts').rest := by
  obtain ⟨kind, span⟩ := feed
  cases hfeed
  fun_induction readLines ts generalizing ts' with
  | case1 => cases h
  | case2 s ts =>
    cases h.inputEnd_inv
    rw [readLines]
    rfl
  | case3 text s ts ih =>
    obtain ⟨us, rfl, htail⟩ := h.cons_inv (by simp)
    rw [readLines]
    exact ih htail
  | case4 s ts ih =>
    obtain ⟨us, rfl, htail⟩ := h.cons_inv (by simp)
    rw [readLines]
    exact ih htail
  | case5 keyword s ts missing rest hfields =>
    obtain ⟨us, rfl, htail⟩ := h.cons_inv (by simp)
    obtain ⟨hsame, hrest⟩ := readFields_continues rfl htail
    rw [hfields] at hsame hrest
    rw [readLines_of_error hsame]
    exact ⟨rfl, hrest⟩
  | case6 keyword s ts fields rest hfields _ after =>
    rename_i ih
    obtain ⟨us, rfl, htail⟩ := h.cons_inv (by simp)
    obtain ⟨hsame, hrest⟩ := readFields_continues rfl htail
    rw [hfields] at hsame hrest
    rw [readLines_of_ok hsame]
    have hrest := ih hrest
    simp only [after]
    cases hmissing : (readLines rest).missing with
    | none =>
      rw [hmissing] at hrest
      simp only [hrest, List.cons_append]
    | some e =>
      rw [hmissing] at hrest
      exact hrest
  | case7 ts hne hend hcomment hline hname =>
    obtain ⟨t, us, rfl, ht⟩ := exists_misfit hne hend hline hcomment hname
    obtain ⟨us', rfl⟩ := h.misfit_inv ht
    rw [readLines_of_misfit ht]
    exact ⟨rfl, h⟩

end

/-! ## Reading further down -/

theorem relocates_moved (d : Distance) : Relocates (Span.moved d) (Token.moved d) where
  kind _ := rfl
  span _ _ := rfl
  join _ _ := rfl

theorem readLines_moved (ts : List Token) :
    readLines (ts.map (·.moved d)) = (readLines ts).moved d :=
  (relocates_moved d).readLines ts

/-! ## The token that stopped the reader -/

theorem rest_of_readFields (ts : List Token) : (readFields ts).2 <:+ ts := by
  fun_induction readFields ts with
  | case1 => exact List.suffix_rfl
  | case2 => exact List.suffix_rfl
  | case3 => exact List.suffix_rfl
  | case4 text s ts ih => exact ih.trans (List.suffix_cons _ _)
  | case5 key keySpan s t ts value hvalue fields rest hfields ih =>
    rw [hfields] at ih
    exact ih.trans ⟨[⟨.name key, keySpan⟩, ⟨.equals, s⟩, t], rfl⟩
  | case6 key keySpan s t ts hnone => exact ⟨[⟨.name key, keySpan⟩, ⟨.equals, s⟩], rfl⟩
  | case7 key s s' => exact List.nil_suffix
  | case8 key s ts hnot hnot' => exact List.suffix_cons _ _
  | case9 ts hne hend hline hcomment _ _ hname => exact List.suffix_rfl

theorem rest_of_readLines (ts : List Token) : (readLines ts).rest <:+ ts := by
  fun_induction readLines ts with
  | case1 => exact List.suffix_rfl
  | case2 => exact List.suffix_rfl
  | case3 text s ts ih => exact ih.trans (List.suffix_cons _ _)
  | case4 s ts ih => exact ih.trans (List.suffix_cons _ _)
  | case5 keyword s ts missing rest hfields =>
    have hrest := rest_of_readFields ts
    rw [hfields] at hrest
    exact hrest.trans (List.suffix_cons _ _)
  | case6 keyword s ts fields rest hfields _ after ih =>
    have hrest := rest_of_readFields ts
    rw [hfields] at hrest
    exact (ih.trans hrest).trans (List.suffix_cons _ _)
  | case7 ts hne hend hcomment hline hname => exact List.suffix_rfl

theorem Closed.readFields {ts : List Token} (h : Closed ts) : Closed (readFields ts).2 := by
  fun_induction Source.readFields ts with
  | case1 => exact h
  | case2 s ts => exact h
  | case3 s ts => exact h
  | case4 text s ts ih => exact ih h.tail
  | case5 key keySpan s t ts value hvalue fields rest hfields ih =>
    obtain ⟨hv, -⟩ := literal?_eq_some_iff.1 hvalue
    obtain ⟨-, -, hend⟩ := word_of_value? hv
    rw [hfields] at ih
    exact ih (h.tail.tail.tail hend)
  | case6 key keySpan s t ts hnone => exact h.tail.tail
  | case7 key s s' => exact h.tail.tail
  | case8 key s ts hnot hnot' => exact h.tail
  | case9 ts hne hend hline hcomment _ _ hname => exact h

/-- The end of input stays unread, so a reader always stops at a token of the text. -/
theorem Closed.readLines {ts : List Token} (h : Closed ts) : Closed (readLines ts).rest := by
  fun_induction Source.readLines ts with
  | case1 => exact h
  | case2 s ts => exact h
  | case3 text s ts ih => exact ih h.tail
  | case4 s ts ih => exact ih h.tail
  | case5 keyword s ts missing rest hfields =>
    have hrest := h.tail.readFields
    rw [hfields] at hrest
    exact hrest
  | case6 keyword s ts fields rest hfields _ after ih =>
    have hrest := h.tail.readFields
    rw [hfields] at hrest
    exact ih hrest
  | case7 ts hne hend hcomment hline hname => exact h

/-- A reader stops at one of the tokens. -/
theorem found_mem (source : String) : (read source).found ∈ tokens source := by
  have hclosed : Closed (read source).rest := (Cursor.ofString source).tokens_closed.readLines
  obtain ⟨t, ts, hrest⟩ := List.exists_cons_of_ne_nil hclosed.ne_nil
  have hmem : t ∈ tokens source := by
    apply (rest_of_readLines (tokens source)).subset
    show t ∈ (read source).rest
    rw [hrest]
    exact List.mem_cons_self
  rw [Reading.found, hrest]
  exact hmem

theorem Reading.found_moved {r : Reading} (h : r.rest ≠ []) :
    (r.moved d).found = r.found.moved d := by
  obtain ⟨t, ts, hrest⟩ := List.exists_cons_of_ne_nil h
  simp only [found, moved, hrest, List.map_cons, List.headD_cons]

/-! ## The line of a fault -/

theorem cutAt_append (a b : List Char) (n : Nat) :
    cutAt (a ++ b) (utf8Len a + n) = (a ++ (cutAt b n).1, (cutAt b n).2) := by
  induction a with
  | nil => simp
  | cons c cs ih =>
    obtain ⟨m, hm⟩ := Nat.exists_eq_succ_of_ne_zero c.utf8Size_pos.ne'
    have hcut : utf8Len (c :: cs) + n = utf8Len cs + m + n + 1 := by
      rw [utf8Len_cons, hm]
      omega
    have hleft : utf8Len cs + m + n + 1 - c.utf8Size = utf8Len cs + n := by
      rw [hm]
      omega
    rw [hcut, List.cons_append, cutAt, hleft, ih]
    rfl

/-- The line around an offset does not hang on the lines in front of it. -/
theorem lineAt_append (a b : List Char) (n : Nat) :
    lineAt (a ++ '\n' :: b) (utf8Len a + 1 + n) = lineAt b n := by
  have hfeed : utf8Len (a ++ ['\n']) = utf8Len a + 1 := by
    rw [utf8Len_append]
    rfl
  have hcut := cutAt_append (a ++ ['\n']) b n
  rw [hfeed, List.append_assoc, List.singleton_append] at hcut
  have hstart : ((a ++ ['\n'] ++ (cutAt b n).1).reverse.takeWhile (· ≠ '\n')) =
      (cutAt b n).1.reverse.takeWhile (· ≠ '\n') := by
    rw [List.append_assoc, List.reverse_append, List.singleton_append, List.reverse_cons,
      List.append_assoc, List.singleton_append]
    exact takeWhile_append_cons (by decide) _ _
  simp only [lineAt, hcut, hstart]

theorem lineText_moved (span : Span) (s t : String) :
    (span.moved (.past s)).lineText (s ++ "\n" ++ t) = span.lineText t := by
  have htext : (s ++ "\n" ++ t).toList = s.toList ++ '\n' :: t.toList := by
    simp
  have hstart : (span.moved (.past s)).start = utf8Len s.toList + 1 + span.start := by
    rw [utf8Len_toList]
    exact Nat.add_comm _ _
  rw [Span.lineText, Span.lineText, htext, hstart, lineAt_append]

/-- The same fault further down. -/
theorem faultAt_moved (span : Span) (detail : String) (s t : String) :
    faultAt (s ++ "\n" ++ t) (span.moved (.past s)) detail =
      .malformed detail (span.line + (1 + s.toList.count '\n')) span.column
        (span.lineText t) := by
  rw [faultAt, lineText_moved]
  rfl

/-! ## Texts in a row -/

/-- The tokens of a text, the line feed behind it, and the tokens of what follows. -/
theorem tokens_continues (s t : String) :
    ∃ feed : Token, feed.kind = .lineEnd ∧
      Continues feed ((tokens t).map (·.moved (.past s))) (tokens s)
        (tokens (s ++ "\n" ++ t)) := by
  have hwhole : tokens (s ++ "\n" ++ t) =
      (Cursor.mk {} (s.toList ++ '\n' :: t.toList)).tokens := by
    simp [tokens, Cursor.ofString]
  have hlater : (tokens t).map (·.moved (.past s)) =
      (Cursor.mk (({} : Position).moved (.past s)) t.toList).tokens :=
    (Cursor.tokens_moved (Cursor.ofString t)).symm
  have hcontinues := Cursor.tokens_continues {} s.toList t.toList
  rw [Position.advance_past] at hcontinues
  rw [hwhole, hlater]
  exact ⟨_, rfl, hcontinues⟩

theorem read_append {s : String} (h : (read s).missing = none) (t : String) :
    read (s ++ "\n" ++ t) =
      { (read t).moved (.past s) with
        lines := (read s).lines ++ (read t).lines.map (·.moved (.past s)) } := by
  obtain ⟨feed, hfeed, hcontinues⟩ := tokens_continues s t
  have hread := readLines_continues hfeed hcontinues
  rw [read] at h
  rw [h, readLines_moved] at hread
  exact hread

/-- A text whose lines can be read may stand in front of any other. The lines of the other come
behind them, or its fault is that of both, with every place behind the first text and the line
feed. -/
theorem parseLines_composes {s : String} {lines : List Line} (h : parseLines s = .ok lines)
    (t : String) :
    (∀ more, parseLines t = .ok more →
      parseLines (s ++ "\n" ++ t) = .ok (lines ++ more.map (·.moved (.past s)))) ∧
    ∀ why, parseLines t = .error why →
      ∃ detail line column context, why = .malformed detail line column context ∧
        parseLines (s ++ "\n" ++ t) =
          .error (.malformed detail (line + (1 + s.toList.count '\n')) column context) := by
  obtain ⟨hnone, rfl⟩ := parseLines_eq_ok_iff.1 h
  have hread := read_append hnone t
  refine ⟨fun more hmore => ?_, fun why hwhy => ?_⟩
  · obtain ⟨hnone', rfl⟩ := parseLines_eq_ok_iff.1 hmore
    rw [parseLines_eq_ok_iff, hread]
    exact ⟨hnone', rfl⟩
  · rw [parseLines, Reading.result] at hwhy ⊢
    rw [hread]
    cases hmissing : (read t).missing with
    | none =>
      rw [hmissing] at hwhy
      cases hwhy
    | some e =>
      rw [hmissing] at hwhy
      cases hwhy
      have hrest : (read t).rest ≠ [] := (Cursor.ofString t).tokens_closed.readLines.ne_nil
      have hfound := Reading.found_moved (d := .past s) hrest
      have hmissing' : ((read t).moved (.past s)).missing = some e := hmissing
      refine ⟨_, _, _, _, rfl, ?_⟩
      simp only [hmissing', Reading.found] at hfound ⊢
      rw [hfound, Token.moved, faultAt_moved]

/-- A ball's line stands two lines down behind a header, a comment and a line feed. So does the
fault when its second field has no name. -/
theorem ball_composes :
    let s := "board name=n # \n"
    let ball := "\tball x=-1"
    let header := Line.make "board" ⟨0, 5, 1, 1⟩
      [⟨"name", ⟨6, 10, 1, 7⟩, ⟨.name, "n", ⟨11, 12, 1, 12⟩⟩⟩]
    let line := Line.make "ball" ⟨1, 5, 1, 2⟩
      [⟨"x", ⟨6, 7, 1, 7⟩, ⟨.integer, "-1", ⟨8, 10, 1, 9⟩⟩⟩]
    let detail := "expected a field name, found '='"
    parseLines s = .ok [header] ∧ parseLines ball = .ok [line] ∧
      parseLines (s ++ "\n" ++ ball) = .ok [header, line.moved ⟨17, 2⟩] ∧
        parseLines (ball ++ "=") = .error (.malformed detail 1 11 "\tball x=-1=") ∧
          parseLines (s ++ "\n" ++ (ball ++ "=")) =
            .error (.malformed detail 3 11 "\tball x=-1=") := by
  intro s ball header line detail
  have hs : parseLines s = .ok [header] := by decide +kernel
  have hball : parseLines ball = .ok [line] := by decide +kernel
  have hfault : parseLines (ball ++ "=") = .error (.malformed detail 1 11 "\tball x=-1=") := by
    decide +kernel
  have hcount : s.toList.count '\n' = 1 := by decide +kernel
  have hpast : Distance.past s = ⟨17, 2⟩ := by rw [Distance.past, hcount]; rfl
  obtain ⟨hlines, -⟩ := parseLines_composes hs ball
  obtain ⟨-, hfaults⟩ := parseLines_composes hs (ball ++ "=")
  obtain ⟨_, _, _, _, hwhy, hwhole⟩ := hfaults _ hfault
  have hmore := hlines _ hball
  cases hwhy
  rw [hcount] at hwhole
  rw [hpast] at hmore
  exact ⟨hs, hball, hmore, hfault, hwhole⟩

end Playfield.Source
