/-
  Playfield.Proofs.Source.Grammar — the lines of a text, without saying how they are read.

  A text is a list of words once comments and the end of input are dropped; cut at the line
  ends, with the empty pieces left out, it is a list of groups. A group says a sentence when it
  is a name and then triples of a name, an equals sign and a value. Reading a text succeeds
  exactly when every group says a sentence (`parseLines_ok_iff`), and the lines that are read say
  the same (`says_of_parseLines`).
-/

import Mathlib.Data.List.TakeWhile
import Playfield.Proofs.Result
import Playfield.Proofs.Source.Scan

namespace Playfield.Source

/-! ## Sentences -/

/-- What a field says. -/
structure Entry where
  key : String
  kind : Literal.Kind
  text : String
  deriving DecidableEq, Repr

/-- What a line says. -/
structure Sentence where
  keyword : String
  entries : List Entry
  deriving DecidableEq, Repr

def Field.entry (f : Field) : Entry :=
  { key := f.key, kind := f.value.kind, text := f.value.text }

def Line.sentence (line : Line) : Sentence :=
  { keyword := line.keyword, entries := line.fields.map Field.entry }

/-- The class and the text of a token that can be a value. -/
def Token.Kind.value? : Token.Kind → Option (Literal.Kind × String)
  | .name text => some (.name, text)
  | .integer text => some (.integer, text)
  | .decimal text => some (.decimal, text)
  | _ => none

/-- Any number of triples, and what they say. -/
inductive Triples : List Token.Kind → List Entry → Prop where
  | nil : Triples [] []
  | cons {key text : String} {v : Token.Kind} {kind : Literal.Kind} {ks : List Token.Kind}
      {es : List Entry} : v.value? = some (kind, text) → Triples ks es →
      Triples (.name key :: .equals :: v :: ks) ({ key, kind, text } :: es)

/-- A keyword and triples, and what they say. -/
inductive Says : List Token.Kind → Sentence → Prop where
  | mk {keyword : String} {ks : List Token.Kind} {entries : List Entry} :
      Triples ks entries → Says (.name keyword :: ks) { keyword, entries }

theorem Triples.unique {ks : List Token.Kind} {es es' : List Entry} (h : Triples ks es)
    (h' : Triples ks es') : es = es' := by
  induction h generalizing es' with
  | nil =>
    cases h'
    rfl
  | cons hv _ ih =>
    cases h' with
    | cons hv' ht' =>
      cases hv.symm.trans hv'
      rw [ih ht']

theorem Says.unique {ks : List Token.Kind} {x x' : Sentence} (h : Says ks x) (h' : Says ks x') :
    x = x' := by
  cases h with
  | mk ht =>
    cases h' with
    | mk ht' => rw [ht.unique ht']

/-! ## Groups -/

/-- Whether a token is a word of a line or ends one. -/
def Token.Kind.isWord : Token.Kind → Bool
  | .comment _ | .inputEnd => false
  | _ => true

def words (ts : List Token) : List Token.Kind :=
  (ts.map (·.kind)).filter (·.isWord)

/-- The pieces between line ends that are not empty. -/
def pieces (ks : List Token.Kind) : List (List Token.Kind) :=
  (ks.splitOn .lineEnd).filter (· ≠ [])

/-- The lines of a text as groups of words. -/
def groups (source : String) : List (List Token.Kind) :=
  pieces (words (tokens source))

/-- The words up to the next line end. -/
def firstWords (ks : List Token.Kind) : List Token.Kind :=
  ks.takeWhile (· ≠ .lineEnd)

/-- The words from the next line end on. -/
def laterWords (ks : List Token.Kind) : List Token.Kind :=
  ks.dropWhile (· ≠ .lineEnd)

theorem pieces_lineEnd (ks : List Token.Kind) : pieces (.lineEnd :: ks) = pieces ks := by
  have hsplit : (Token.Kind.lineEnd :: ks).splitOn .lineEnd = [] :: ks.splitOn .lineEnd :=
    List.splitOn_append_cons_self_of_not_mem (List.not_mem_nil) ks
  rw [pieces, hsplit]
  rfl

theorem pieces_cons {k : Token.Kind} (hk : k ≠ .lineEnd) (ks : List Token.Kind) :
    pieces (k :: ks) = (k :: firstWords ks) :: pieces (laterWords ks) := by
  have hsplit : k :: ks = (k :: firstWords ks) ++ laterWords ks := by
    rw [List.cons_append, firstWords, laterWords, List.takeWhile_append_dropWhile]
  have hnot : Token.Kind.lineEnd ∉ k :: firstWords ks := by
    intro hmem
    rcases List.mem_cons.1 hmem with h | h
    · exact hk h.symm
    · simpa using List.mem_takeWhile_imp h
  rw [hsplit]
  cases hlater : laterWords ks with
  | nil =>
    rw [List.append_nil, pieces, List.splitOn_eq_singleton hnot]
    rfl
  | cons j later =>
    have hj : j = .lineEnd := by
      have hhead := List.head?_dropWhile_not (fun k : Token.Kind => decide (k ≠ .lineEnd)) ks
      rw [← laterWords, hlater] at hhead
      simpa using hhead
    rw [hj, pieces, List.splitOn_append_cons_self_of_not_mem hnot, pieces_lineEnd]
    rfl

/-! ## Words of closed tokens -/

theorem words_cons {t : Token} (ht : t.kind.isWord = true) (ts : List Token) :
    words (t :: ts) = t.kind :: words ts :=
  List.filter_cons_of_pos ht

theorem words_of_comment {t : Token} (ht : t.kind.isComment = true) (ts : List Token) :
    words (t :: ts) = words ts := by
  have hword : t.kind.isWord = false := by
    cases hk : t.kind with
    | comment _ => rfl
    | _ => rw [hk] at ht; cases ht
  rw [words, List.map_cons, List.filter_cons, hword]
  rfl

theorem firstWords_cons {k : Token.Kind} (hk : k ≠ .lineEnd) (ks : List Token.Kind) :
    firstWords (k :: ks) = k :: firstWords ks := by
  rw [firstWords, List.takeWhile_cons, if_pos (by simpa using hk), firstWords]

theorem laterWords_cons {k : Token.Kind} (hk : k ≠ .lineEnd) (ks : List Token.Kind) :
    laterWords (k :: ks) = laterWords ks := by
  rw [laterWords, List.dropWhile_cons, if_pos (by simpa using hk), laterWords]

theorem firstWords_of_end {t : Token} {ts : List Token} (h : Closed (t :: ts))
    (ht : t.kind.isEnd = true) : firstWords (words (t :: ts)) = [] := by
  cases hk : t.kind with
  | inputEnd =>
    rw [h.tail_eq_nil hk, words, List.map_singleton, hk]
    rfl
  | lineEnd =>
    rw [words_cons (by rw [hk]; rfl), hk]
    rfl
  | _ => rw [hk] at ht; cases ht

theorem firstWords_of_comment {t : Token} {ts : List Token} (h : Closed (t :: ts))
    (ht : t.kind.isComment = true) : firstWords (words (t :: ts)) = [] := by
  rw [words_of_comment ht]
  cases h with
  | inputEnd hend => rw [hend] at ht; cases ht
  | cons _ hcomment hts => exact firstWords_of_end hts (hcomment ht)

/-- If any words come before the next line end, the first one is the next token. -/
theorem kind_eq_of_firstWords {t : Token} {ts : List Token} {k : Token.Kind}
    {ks : List Token.Kind} (h : Closed (t :: ts)) (hk : firstWords (words (t :: ts)) = k :: ks) :
    t.kind = k := by
  by_cases hend : t.kind.isEnd = true
  · rw [firstWords_of_end h hend] at hk
    cases hk
  by_cases hcomment : t.kind.isComment = true
  · rw [firstWords_of_comment h hcomment] at hk
    cases hk
  have hword : t.kind.isWord = true ∧ t.kind ≠ .lineEnd := by
    cases hkind : t.kind <;> simp_all [Token.Kind.isEnd, Token.Kind.isComment, Token.Kind.isWord]
  rw [words_cons hword.1, firstWords_cons hword.2] at hk
  exact (List.cons.inj hk).1

/-- A token that is no end and no comment is a word of a line. -/
theorem word_of_not_trivia {ts : List Token} (hne : ts = [] → False)
    (hend : ∀ s us, ts = ⟨.inputEnd, s⟩ :: us → False)
    (hline : ∀ s us, ts = ⟨.lineEnd, s⟩ :: us → False)
    (hcomment : ∀ text s us, ts = ⟨.comment text, s⟩ :: us → False) :
    ∃ t us, ts = t :: us ∧ t.kind.isWord = true ∧ t.kind ≠ .lineEnd := by
  cases ts with
  | nil => exact (hne rfl).elim
  | cons t us =>
    obtain ⟨k, s⟩ := t
    refine ⟨⟨k, s⟩, us, rfl, ?_⟩
    cases k with
    | inputEnd => exact (hend s us rfl).elim
    | lineEnd => exact (hline s us rfl).elim
    | comment text => exact (hcomment text s us rfl).elim
    | _ => exact ⟨rfl, nofun⟩

/-! ## Reading -/

theorem literal?_eq_some_iff {t : Token} {l : Literal} :
    t.literal? = some l ↔ t.kind.value? = some (l.kind, l.text) ∧ l.span = t.span := by
  obtain ⟨kind, text, span⟩ := l
  unfold Token.literal?
  cases t.kind <;> simp [Token.Kind.value?, eq_comm, and_assoc]

theorem literal?_eq_none_iff {t : Token} : t.literal? = none ↔ t.kind.value? = none := by
  unfold Token.literal?
  cases t.kind <;> simp [Token.Kind.value?]

/-- A token that can be a value is a word and no line end. -/
theorem word_of_value? {k : Token.Kind} {v : Literal.Kind × String} (h : k.value? = some v) :
    k.isWord = true ∧ k ≠ .lineEnd ∧ k ≠ .inputEnd := by
  cases k with
  | name _ => exact ⟨rfl, nofun, nofun⟩
  | integer _ => exact ⟨rfl, nofun, nofun⟩
  | decimal _ => exact ⟨rfl, nofun, nofun⟩
  | _ => cases h

theorem words_pair (key : String) (s s' : Span) (ts : List Token) :
    words (⟨.name key, s⟩ :: ⟨.equals, s'⟩ :: ts) = .name key :: .equals :: words ts := rfl

theorem firstWords_pair (key : String) (ks : List Token.Kind) :
    firstWords (.name key :: .equals :: ks) = .name key :: .equals :: firstWords ks := rfl

theorem laterWords_pair (key : String) (ks : List Token.Kind) :
    laterWords (.name key :: .equals :: ks) = laterWords ks := rfl

theorem readFields_ok {ts rest : List Token} {fields : List Field} (h : Closed ts)
    (hr : readFields ts = (.ok fields, rest)) :
    Triples (firstWords (words ts)) (fields.map Field.entry) ∧ Closed rest ∧
      words rest = laterWords (words ts) := by
  fun_induction readFields ts generalizing fields rest with
  | case1 => exact absurd rfl h.ne_nil
  | case2 s ts =>
    cases hr
    rw [firstWords_of_end h rfl]
    refine ⟨.nil, h, ?_⟩
    cases h.tail_eq_nil rfl
    rfl
  | case3 s ts =>
    cases hr
    rw [firstWords_of_end h rfl]
    exact ⟨.nil, h, rfl⟩
  | case4 text s ts ih =>
    rw [words_of_comment rfl]
    exact ih h.tail hr
  | case5 key keySpan s t ts value hvalue fields' rest' hfields ih =>
    obtain ⟨hv, -⟩ := literal?_eq_some_iff.1 hvalue
    obtain ⟨hword, hline, hend⟩ := word_of_value? hv
    have hts : Closed ts := h.tail.tail.tail hend
    rw [words_pair, words_cons hword, firstWords_pair, firstWords_cons hline]
    cases fields' with
    | error e => cases hr
    | ok fields' =>
      cases hr
      obtain ⟨htriples, hclosed, hrest⟩ := ih hts hfields
      refine ⟨.cons hv htriples, hclosed, ?_⟩
      rw [hrest, laterWords_pair, laterWords_cons hline]
  | case6 => cases hr
  | case7 => cases hr
  | case8 => cases hr
  | case9 => cases hr

theorem not_triples_of_head {k : Token.Kind} {ks : List Token.Kind} {es : List Entry}
    (hk : ∀ key, k ≠ .name key) : ¬Triples (k :: ks) es := by
  intro h
  cases h
  exact hk _ rfl

theorem readFields_error {ts rest : List Token} {e : Expectation} (h : Closed ts)
    (hr : readFields ts = (.error e, rest)) (es : List Entry) :
    ¬Triples (firstWords (words ts)) es := by
  fun_induction readFields ts generalizing e rest es with
  | case1 => cases hr
  | case2 => cases hr
  | case3 => cases hr
  | case4 text s ts ih =>
    rw [words_of_comment rfl]
    exact ih h.tail hr es
  | case5 key keySpan s t ts value hvalue fields' rest' hfields ih =>
    obtain ⟨hv, -⟩ := literal?_eq_some_iff.1 hvalue
    obtain ⟨hword, hline, hend⟩ := word_of_value? hv
    have hts : Closed ts := h.tail.tail.tail hend
    rw [words_pair, words_cons hword, firstWords_pair, firstWords_cons hline]
    cases fields' with
    | error e' =>
      cases hr
      intro h'
      cases h'
      rename_i htriples
      exact ih hts hfields _ htriples
    | ok fields' => cases hr
  | case6 key keySpan s t ts hnone =>
    have ht : Closed (t :: ts) := h.tail.tail
    rw [words_pair, firstWords_pair]
    generalize hrest : firstWords (words (t :: ts)) = ks
    intro h'
    cases h'
    rename_i hv _
    rw [literal?_eq_none_iff, kind_eq_of_firstWords ht hrest, hv] at hnone
    cases hnone
  | case7 key s s' =>
    cases h.tail.tail
  | case8 key s ts hnot hnot' =>
    have hts : Closed ts := h.tail
    rw [words_cons rfl, firstWords_cons (k := .name key) (by simp)]
    generalize hrest : firstWords (words ts) = ks
    intro h'
    cases h'
    cases ts with
    | nil => exact hts.ne_nil rfl
    | cons t us =>
      obtain ⟨k, s'⟩ := t
      cases kind_eq_of_firstWords hts hrest
      cases us with
      | nil => exact hnot' s' rfl
      | cons t us => exact hnot s' t us rfl
  | case9 ts hne hend hline hcomment _ _ hname =>
    obtain ⟨t, us, rfl, hword, hkind⟩ := word_of_not_trivia hne hend hline hcomment
    rw [words_cons hword, firstWords_cons hkind]
    refine not_triples_of_head fun key hkey => ?_
    exact hname key t.span us (by rw [← hkey])

/-- The lines that are read say what the groups say; when something is missing, some group says
nothing. -/
theorem readLines_says {ts : List Token} (h : Closed ts) :
    match (readLines ts).missing with
    | none => List.Forall₂ Says (pieces (words ts)) ((readLines ts).lines.map Line.sentence)
    | some _ => ∀ xs, ¬List.Forall₂ Says (pieces (words ts)) xs := by
  fun_induction readLines ts with
  | case1 => exact absurd rfl h.ne_nil
  | case2 s ts =>
    cases h.tail_eq_nil rfl
    exact .nil
  | case3 text s ts ih =>
    rw [words_of_comment rfl]
    exact ih h.tail
  | case4 s ts ih =>
    rw [words_cons rfl, pieces_lineEnd]
    exact ih h.tail
  | case5 keyword s ts missing rest hfields =>
    rw [words_cons rfl, pieces_cons (k := .name keyword) (by simp)]
    intro _ h'
    cases h'
    rename_i hsaid _
    cases hsaid with
    | mk htriples => exact readFields_error h.tail hfields _ htriples
  | case6 keyword s ts fields rest hfields _ after ih =>
    obtain ⟨htriples, hclosed, hrest⟩ := readFields_ok h.tail hfields
    rw [words_cons rfl, pieces_cons (k := .name keyword) (by simp), ← hrest]
    have hafter := ih hclosed
    simp only [after]
    cases hmissing : (readLines rest).missing with
    | none =>
      rw [hmissing] at hafter
      exact .cons (.mk htriples) hafter
    | some e =>
      rw [hmissing] at hafter
      intro _ h'
      cases h'
      rename_i hlater
      exact hafter _ hlater
  | case7 ts hne hend hcomment hline hname =>
    obtain ⟨t, us, rfl, hword, hkind⟩ := word_of_not_trivia hne hend hline hcomment
    rw [words_cons hword, pieces_cons hkind]
    intro _ h'
    cases h'
    rename_i hsaid _
    generalize hk : t.kind = k at hsaid
    cases hsaid with
    | mk _ => exact hname _ t.span us (by rw [← hk])

theorem parseLines_eq_ok_iff {source : String} {lines : List Line} :
    parseLines source = .ok lines ↔ (read source).missing = none ∧ (read source).lines = lines := by
  rw [parseLines, Reading.result]
  cases (read source).missing with
  | none => simp
  | some e => simp

theorem parseLines_eq_error_iff {source : String} {why : Fault} :
    parseLines source = .error why ↔ ∃ e, (read source).missing = some e ∧
      why = faultAt source (read source).found.span (e.message (read source).found.kind) := by
  rw [parseLines, Reading.result]
  cases (read source).missing with
  | none => simp
  | some e => simp [eq_comm]

/-- A text can be read exactly when each of its groups says a sentence. -/
theorem parseLines_ok_iff {source : String} :
    (∃ lines, parseLines source = .ok lines) ↔
      ∃ xs, List.Forall₂ Says (groups source) xs := by
  have hsaid := readLines_says (Cursor.ofString source).tokens_closed
  rw [parseLines, Reading.result]
  cases hmissing : (read source).missing with
  | none =>
    rw [read, tokens] at hmissing
    rw [hmissing] at hsaid
    exact ⟨fun _ => ⟨_, hsaid⟩, fun _ => ⟨_, rfl⟩⟩
  | some e =>
    rw [read, tokens] at hmissing
    rw [hmissing] at hsaid
    refine ⟨fun h => ?_, fun h => ?_⟩
    · obtain ⟨_, ⟨⟩⟩ := h
    · obtain ⟨xs, hxs⟩ := h
      exact absurd hxs (hsaid xs)

/-- The lines that are read are the sentences of the groups. -/
theorem says_of_parseLines {source : String} {lines : List Line}
    (h : parseLines source = .ok lines) :
    List.Forall₂ Says (groups source) (lines.map Line.sentence) := by
  have hsaid := readLines_says (Cursor.ofString source).tokens_closed
  obtain ⟨hnone, rfl⟩ := parseLines_eq_ok_iff.1 h
  rw [read, tokens] at hnone
  rw [hnone] at hsaid
  exact hsaid

/-! ## Where values come from -/

theorem mem_of_readFields {ts rest : List Token} {fields : List Field}
    (hr : readFields ts = (.ok fields, rest)) :
    (∀ f ∈ fields, ∃ t ∈ ts, t.literal? = some f.value) ∧ rest ⊆ ts := by
  fun_induction readFields ts generalizing fields rest with
  | case1 => cases hr; exact ⟨by simp, List.Subset.refl _⟩
  | case2 => cases hr; exact ⟨by simp, List.Subset.refl _⟩
  | case3 => cases hr; exact ⟨by simp, List.Subset.refl _⟩
  | case4 text s ts ih =>
    obtain ⟨hfields, hrest⟩ := ih hr
    refine ⟨fun f hf => ?_, List.subset_cons_of_subset _ hrest⟩
    obtain ⟨t, ht, hl⟩ := hfields f hf
    exact ⟨t, List.mem_cons_of_mem _ ht, hl⟩
  | case5 key keySpan s t ts value hvalue fields' rest' hfields ih =>
    cases fields' with
    | error e => cases hr
    | ok fields' =>
      cases hr
      obtain ⟨hfields', hrest⟩ := ih hfields
      have htail : ts ⊆ ⟨.name key, keySpan⟩ :: ⟨.equals, s⟩ :: t :: ts :=
        fun u hu => by simp [hu]
      refine ⟨fun f hf => ?_, List.Subset.trans hrest htail⟩
      rcases List.mem_cons.1 hf with rfl | hf
      · exact ⟨t, by simp, hvalue⟩
      · obtain ⟨u, hu, hl⟩ := hfields' f hf
        exact ⟨u, htail hu, hl⟩
  | case6 => cases hr
  | case7 => cases hr
  | case8 => cases hr
  | case9 => cases hr

/-- The value of every field that is read is one of the tokens. -/
theorem mem_of_readLines {ts : List Token} {line : Line} {f : Field}
    (hline : line ∈ (readLines ts).lines) (hf : f ∈ line.fields) :
    ∃ t ∈ ts, t.literal? = some f.value := by
  fun_induction readLines ts with
  | case1 => cases hline
  | case2 => cases hline
  | case3 text s ts ih =>
    obtain ⟨t, ht, hl⟩ := ih hline
    exact ⟨t, List.mem_cons_of_mem _ ht, hl⟩
  | case4 s ts ih =>
    obtain ⟨t, ht, hl⟩ := ih hline
    exact ⟨t, List.mem_cons_of_mem _ ht, hl⟩
  | case5 => cases hline
  | case6 keyword s ts fields rest hfields _ after ih =>
    obtain ⟨hvalues, hrest⟩ := mem_of_readFields hfields
    rcases List.mem_cons.1 hline with rfl | hline
    · obtain ⟨t, ht, hl⟩ := hvalues f hf
      exact ⟨t, List.mem_cons_of_mem _ ht, hl⟩
    · obtain ⟨t, ht, hl⟩ := ih hline
      exact ⟨t, List.mem_cons_of_mem _ (hrest ht), hl⟩
  | case7 => cases hline

theorem text_ne_empty_of_parseLines {source : String} {lines : List Line} {line : Line}
    {f : Field} (h : parseLines source = .ok lines) (hline : line ∈ lines)
    (hf : f ∈ line.fields) : f.value.text ≠ "" := by
  obtain ⟨-, rfl⟩ := parseLines_eq_ok_iff.1 h
  obtain ⟨t, ht, hl⟩ := mem_of_readLines hline hf
  exact Cursor.text_ne_empty_of_mem_tokens ht hl

end Playfield.Source
