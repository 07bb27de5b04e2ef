/-
  Playfield.Proofs.Source.Viable — the reader stops at the first token that leaves no way on.

  `IsFile` is the grammar of a whole text over kinds of tokens, comments left out. Some tokens are
  `Viable` when others can be put behind them to make a file. Whether they are is decided from left
  to right by the `Stage` they lead to, which is what may come next:
  - Tokens make a file exactly when they lead to the end (`isFile_iff_run_done`), and from every
    stage there is a way to the end. So tokens are viable exactly when they lead anywhere
    (`viable_iff`).
  - The reader is at a stage whenever it takes a token, and where it stops the stage has no place
    for the token, or for the first one behind it that is no comment (`readLines_leads`): a
    comment in the middle of a field leaves nothing but the end of its line.

  Together: `stops_where_hopeless`.
-/

import Playfield.Proofs.Source.Composition

namespace Playfield.Source

/-! ## The grammar -/

/-- A file is lines, empty or not, each up to its end, and the end of input behind the last. -/
inductive IsFile : List Token.Kind → Prop where
  | inputEnd : IsFile [.inputEnd]
  | lastLine {ls : List Token.Kind} {x : Sentence} : Says ls x → IsFile (ls ++ [.inputEnd])
  | emptyLine {ks : List Token.Kind} : IsFile ks → IsFile (.lineEnd :: ks)
  | line {ls ks : List Token.Kind} {x : Sentence} : Says ls x → IsFile ks →
      IsFile (ls ++ .lineEnd :: ks)

/-- More tokens make a file of these. -/
def Viable (ks : List Token.Kind) : Prop :=
  ∃ more, IsFile (ks ++ more)

/-- The kinds of the tokens that are no comments. -/
def plain (ts : List Token) : List Token.Kind :=
  (ts.map (·.kind)).filter (!·.isComment)

/-! ## Stages -/

/-- What may come next. -/
inductive Stage where
  /-- A keyword or the end of a line that is empty so far. -/
  | line
  /-- A key or the end of the line. -/
  | field
  | equals
  | value
  /-- Nothing, behind the end of input. -/
  | done
  deriving DecidableEq, Repr

namespace Stage

/-- The stage behind a token, if there is a place for it. -/
def next : Stage → Token.Kind → Option Stage
  | .line, .name _ => some .field
  | .field, .name _ => some .equals
  | .line, .lineEnd | .field, .lineEnd => some .line
  | .line, .inputEnd | .field, .inputEnd => some .done
  | .equals, .equals => some .value
  | .value, k => if k.value?.isSome then some .field else none
  | _, _ => none

/-- The stage behind some tokens. -/
def run (st : Stage) (ks : List Token.Kind) : Option Stage :=
  ks.foldlM next st

@[simp] theorem run_nil (st : Stage) : st.run [] = some st := rfl

@[simp] theorem run_cons (st : Stage) (k : Token.Kind) (ks : List Token.Kind) :
    st.run (k :: ks) = (st.next k).bind (·.run ks) := rfl

theorem run_append (st : Stage) (ks ks' : List Token.Kind) :
    st.run (ks ++ ks') = (st.run ks).bind (·.run ks') :=
  List.foldlM_append

theorem run_append_of {st st' : Stage} {ks : List Token.Kind} (h : st.run ks = some st')
    (ks' : List Token.Kind) : st.run (ks ++ ks') = st'.run ks' := by
  rw [run_append, h, Option.bind_some]

theorem next_value_eq_some_iff {k : Token.Kind} {st : Stage} :
    value.next k = some st ↔ (∃ v, k.value? = some v) ∧ st = .field := by
  cases h : k.value? <;> simp [next, h, eq_comm]

/-- No stage has a place for a comment. -/
theorem not_isComment_of_next {st st' : Stage} {k : Token.Kind} (h : st.next k = some st') :
    k.isComment = false := by
  cases k with
  | comment _ => cases st <;> cases h
  | _ => rfl

theorem run_triples {ks : List Token.Kind} {es : List Entry} (h : Triples ks es) :
    field.run ks = some .field := by
  induction h with
  | nil => rfl
  | @cons key text v kind ks es hv _ ih =>
    show (value.next v).bind (·.run ks) = some .field
    rw [next_value_eq_some_iff.2 ⟨⟨_, hv⟩, rfl⟩]
    exact ih

theorem run_sentence {ls : List Token.Kind} {x : Sentence} (h : Says ls x) :
    line.run ls = some .field := by
  obtain ⟨htriples⟩ := h
  exact run_triples htriples

theorem run_isFile {ks : List Token.Kind} (h : IsFile ks) : line.run ks = some .done := by
  induction h with
  | inputEnd => rfl
  | lastLine hsaid => rw [run_append_of (run_sentence hsaid)]; rfl
  | emptyLine _ ih => exact ih
  | line hsaid _ ih =>
    rw [run_append_of (run_sentence hsaid)]
    exact ih

/-- The rest of a file behind the keyword of a line. -/
def EndsFile (ks : List Token.Kind) : Prop :=
  ∃ fs es, Triples fs es ∧ (ks = fs ++ [.inputEnd] ∨ ∃ rest, IsFile rest ∧ ks = fs ++ .lineEnd :: rest)

/-- What makes a file at each stage. -/
def Completes : Stage → List Token.Kind → Prop
  | .line, ks => IsFile ks
  | .field, ks => EndsFile ks
  | .equals, ks => ∃ v w rest, v.value? = some w ∧ EndsFile rest ∧ ks = .equals :: v :: rest
  | .value, ks => ∃ v w rest, v.value? = some w ∧ EndsFile rest ∧ ks = v :: rest
  | .done, ks => ks = []

theorem EndsFile.isFile {ks : List Token.Kind} (h : EndsFile ks) (keyword : String) :
    IsFile (.name keyword :: ks) := by
  obtain ⟨fs, es, htriples, rfl | ⟨rest, hrest, rfl⟩⟩ := h
  · exact .lastLine (.mk htriples)
  · exact .line (.mk htriples) hrest

theorem EndsFile.cons {ks : List Token.Kind} (h : EndsFile ks) (key : String) {v : Token.Kind}
    {w : Literal.Kind × String} (hv : v.value? = some w) :
    EndsFile (.name key :: .equals :: v :: ks) := by
  obtain ⟨fs, es, htriples, rfl | ⟨rest, hrest, rfl⟩⟩ := h
  · exact ⟨_, _, .cons hv htriples, .inl rfl⟩
  · exact ⟨_, _, .cons hv htriples, .inr ⟨rest, hrest, rfl⟩⟩

/-- A token in front of what makes a file. -/
theorem Completes.cons {st st' : Stage} {k : Token.Kind} {ks : List Token.Kind}
    (hnext : st.next k = some st') (h : Completes st' ks) : Completes st (k :: ks) := by
  cases st with
  | line =>
    cases k with
    | name keyword =>
      cases hnext
      exact EndsFile.isFile h keyword
    | lineEnd =>
      cases hnext
      exact .emptyLine h
    | inputEnd =>
      cases hnext
      cases h
      exact .inputEnd
    | _ => cases hnext
  | field =>
    cases k with
    | name key =>
      cases hnext
      obtain ⟨v, w, rest, hv, hrest, rfl⟩ := h
      exact hrest.cons key hv
    | lineEnd =>
      cases hnext
      exact ⟨[], [], .nil, .inr ⟨ks, h, rfl⟩⟩
    | inputEnd =>
      cases hnext
      cases h
      exact ⟨[], [], .nil, .inl rfl⟩
    | _ => cases hnext
  | equals =>
    cases k <;> cases hnext
    obtain ⟨v, w, rest, hv, hrest, rfl⟩ := h
    exact ⟨v, w, rest, hv, hrest, rfl⟩
  | value =>
    obtain ⟨⟨w, hw⟩, rfl⟩ := next_value_eq_some_iff.1 hnext
    exact ⟨k, w, ks, hw, h, rfl⟩
  | done => cases hnext

theorem completes_of_run {st : Stage} {ks : List Token.Kind} (h : st.run ks = some .done) :
    Completes st ks := by
  induction ks generalizing st with
  | nil =>
    cases h
    rfl
  | cons k ks ih =>
    rw [run_cons, Option.bind_eq_some_iff] at h
    obtain ⟨st', hnext, hrun⟩ := h
    exact (ih hrun).cons hnext

/-- From every stage there is a way to the end. -/
theorem exists_run_done (st : Stage) : ∃ more, st.run more = some .done := by
  cases st with
  | line => exact ⟨[.inputEnd], rfl⟩
  | field => exact ⟨[.inputEnd], rfl⟩
  | equals => exact ⟨[.equals, .name "a", .inputEnd], rfl⟩
  | value => exact ⟨[.name "a", .inputEnd], rfl⟩
  | done => exact ⟨[], rfl⟩

end Stage

/-- Tokens make a file exactly when they lead to the end. -/
theorem isFile_iff_run_done {ks : List Token.Kind} :
    IsFile ks ↔ Stage.line.run ks = some .done :=
  ⟨Stage.run_isFile, Stage.completes_of_run⟩

/-- Tokens are viable exactly when they lead to a stage. -/
theorem viable_iff {ks : List Token.Kind} : Viable ks ↔ ∃ st, Stage.line.run ks = some st := by
  constructor
  · rintro ⟨more, hfile⟩
    rw [isFile_iff_run_done, Stage.run_append, Option.bind_eq_some_iff] at hfile
    obtain ⟨st, hst, -⟩ := hfile
    exact ⟨st, hst⟩
  · rintro ⟨st, hst⟩
    obtain ⟨more, hmore⟩ := st.exists_run_done
    exact ⟨more, isFile_iff_run_done.2 (by rw [Stage.run_append_of hst, hmore])⟩

/-! ## The reader -/

theorem plain_of_comment {t : Token} (h : t.kind.isComment = true) (ts : List Token) :
    plain (t :: ts) = plain ts := by
  simp [plain, h]

theorem plain_cons {t : Token} (h : t.kind.isComment = false) (ts : List Token) :
    plain (t :: ts) = t.kind :: plain ts := by
  simp [plain, h]

theorem plain_append (ts ts' : List Token) : plain (ts ++ ts') = plain ts ++ plain ts' := by
  simp [plain]

theorem not_isComment_of_isEnd {k : Token.Kind} (h : k.isEnd = true) : k.isComment = false := by
  cases k with
  | comment _ => cases h
  | _ => rfl

/-- The stage has no place for the first token that is no comment. -/
def Stage.Blocks (st : Stage) (ts : List Token) : Prop :=
  ∃ t, ts.find? (!·.kind.isComment) = some t ∧ st.next t.kind = none

/-- The tokens lead from one stage to another up to the rest of them. -/
def Leads (st : Stage) (ts rest : List Token) (st' : Stage) : Prop :=
  ∃ before, ts = before ++ rest ∧ st.run (plain before) = some st'

section

variable {st st' st'' : Stage} {t : Token} {ts rest rest' : List Token}

theorem Leads.refl (st : Stage) (ts : List Token) : Leads st ts ts st :=
  ⟨[], rfl, rfl⟩

theorem Leads.trans (h : Leads st ts rest st') (h' : Leads st' rest rest' st'') :
    Leads st ts rest' st'' := by
  obtain ⟨before, rfl, hrun⟩ := h
  obtain ⟨before', rfl, hrun'⟩ := h'
  refine ⟨before ++ before', by simp, ?_⟩
  rw [plain_append, Stage.run_append_of hrun, hrun']

theorem Leads.comment (ht : t.kind.isComment = true) (h : Leads st ts rest st') :
    Leads st (t :: ts) rest st' := by
  obtain ⟨before, rfl, hrun⟩ := h
  exact ⟨t :: before, rfl, by rw [plain_of_comment ht, hrun]⟩

theorem Leads.step (ht : st.next t.kind = some st') (h : Leads st' ts rest st'') :
    Leads st (t :: ts) rest st'' := by
  obtain ⟨before, rfl, hrun⟩ := h
  refine ⟨t :: before, rfl, ?_⟩
  rw [plain_cons (Stage.not_isComment_of_next ht), Stage.run_cons, ht, Option.bind_some, hrun]

/-- A token that the stage has no place for blocks it. -/
theorem blocks_of_next (hplain : t.kind.isComment = false) (hnext : st.next t.kind = none) :
    st.Blocks (t :: ts) := by
  refine ⟨t, ?_, hnext⟩
  rw [List.find?_cons, hplain]
  rfl

/-- In the middle of a field a comment blocks as well: the end of the line is behind it. -/
theorem blocks_of_comment (h : Closed (t :: ts)) (hcomment : t.kind.isComment = true)
    (hend : ∀ k : Token.Kind, k.isEnd = true → st.next k = none) : st.Blocks (t :: ts) := by
  cases h with
  | inputEnd hinput => rw [hinput] at hcomment; cases hcomment
  | @cons _ u us _ hbehind _ =>
    have hisEnd := hbehind hcomment
    refine ⟨u, ?_, hend u.kind hisEnd⟩
    rw [List.find?_cons, hcomment, List.find?_cons, not_isComment_of_isEnd hisEnd]
    rfl

end

theorem Stage.next_isEnd {st : Stage} (h : st = .equals ∨ st = .value) {k : Token.Kind}
    (hk : k.isEnd = true) : st.next k = none := by
  rcases h with rfl | rfl <;> cases k <;> first | rfl | cases hk

/-- In the middle of a field, whatever the stage has no place for blocks it. -/
theorem blocks_in_field {st : Stage} (hst : st = .equals ∨ st = .value) {t : Token}
    {ts : List Token} (h : Closed (t :: ts)) (hnext : st.next t.kind = none) :
    st.Blocks (t :: ts) := by
  by_cases hcomment : t.kind.isComment = true
  · exact blocks_of_comment h hcomment fun _ => Stage.next_isEnd hst
  · exact blocks_of_next (by simpa using hcomment) hnext

/-- The end of a line is no different behind its fields. -/
theorem Stage.next_field_isEnd {k : Token.Kind} (hk : k.isEnd = true) :
    Stage.field.next k = Stage.line.next k ∧ Stage.line.next k ≠ none := by
  cases k with
  | lineEnd => exact ⟨rfl, nofun⟩
  | inputEnd => exact ⟨rfl, nofun⟩
  | _ => cases hk

/-- What leads on from the beginning of a line leads on from behind its fields as well, if the
line ends there. -/
theorem Leads.of_line {st : Stage} {t : Token} {ts rest : List Token}
    (ht : t.kind.isEnd = true) (h : Leads .line (t :: ts) rest st) (hst : st.Blocks rest) :
    Leads .field (t :: ts) rest st := by
  obtain ⟨hsame, hplace⟩ := Stage.next_field_isEnd ht
  have hplain := not_isComment_of_isEnd ht
  obtain ⟨before, hbefore, hrun⟩ := h
  cases before with
  | nil =>
    -- The reader does not stop at the end of a line.
    cases hrun
    obtain rfl : t :: ts = rest := hbefore
    obtain ⟨u, hu, hnext⟩ := hst
    rw [List.find?_cons, hplain] at hu
    cases hu
    exact absurd hnext hplace
  | cons u before =>
    cases hbefore
    refine ⟨t :: before, rfl, ?_⟩
    rw [plain_cons hplain, Stage.run_cons] at hrun ⊢
    rw [hsame, hrun]

theorem blocks_of_misfit {st : Stage} (hst : st = .line ∨ st = .field) {t : Token}
    {ts : List Token} (h : t.kind.isMisfit = true) : st.Blocks (t :: ts) := by
  obtain ⟨kind, s⟩ := t
  cases kind with
  | inputEnd => cases h
  | lineEnd => cases h
  | comment text => cases h
  | name key => cases h
  | _ => exact blocks_of_next rfl (by rcases hst with rfl | rfl <;> rfl)

/-- Fields lead from key to key up to the end of the line, or to a place that blocks. -/
theorem readFields_leads {ts : List Token} (h : Closed ts) :
    ∃ st, Leads .field ts (readFields ts).2 st ∧
      match (readFields ts).1 with
      | .ok _ => st = .field ∧ ∀ t ∈ (readFields ts).2.head?, t.kind.isEnd = true
      | .error _ => st.Blocks (readFields ts).2 := by
  fun_induction readFields ts with
  | case1 => exact absurd rfl h.ne_nil
  | case2 s ts => exact ⟨.field, .refl .field _, rfl, by simp [Token.Kind.isEnd]⟩
  | case3 s ts => exact ⟨.field, .refl .field _, rfl, by simp [Token.Kind.isEnd]⟩
  | case4 text s ts ih =>
    obtain ⟨st, hleads, hst⟩ := ih h.tail
    exact ⟨st, hleads.comment rfl, hst⟩
  | case5 key keySpan s t ts value hvalue fields' rest' hfields ih =>
    obtain ⟨hv, -⟩ := literal?_eq_some_iff.1 hvalue
    obtain ⟨-, -, hend⟩ := word_of_value? hv
    obtain ⟨st, hleads, hst⟩ := ih (h.tail.tail.tail hend)
    have hnext : Stage.value.next t.kind = some .field :=
      Stage.next_value_eq_some_iff.2 ⟨⟨_, hv⟩, rfl⟩
    rw [hfields] at hleads hst
    refine ⟨st, .step rfl (.step rfl (.step hnext hleads)), ?_⟩
    cases fields' with
    | ok fields => exact hst
    | error e => exact hst
  | case6 key keySpan s t ts hnone =>
    rw [literal?_eq_none_iff] at hnone
    have hnext : Stage.value.next t.kind = none := by rw [Stage.next, hnone]; rfl
    refine ⟨.value, .step rfl (.step rfl (.refl .value _)), ?_⟩
    exact blocks_in_field (.inr rfl) h.tail.tail hnext
  | case7 key s s' => cases h.tail.tail
  | case8 key s ts hnot hnot' =>
    obtain ⟨t, us, rfl⟩ := List.exists_cons_of_ne_nil h.tail.ne_nil
    have hnext : Stage.equals.next t.kind = none := by
      obtain ⟨kind, s'⟩ := t
      cases kind with
      | equals =>
        cases us with
        | nil => exact (hnot' s' rfl).elim
        | cons u us => exact (hnot s' u us rfl).elim
      | _ => rfl
    exact ⟨.equals, .step rfl (.refl .equals _), blocks_in_field (.inl rfl) h.tail hnext⟩
  | case9 ts hne hend hline hcomment _ _ hname =>
    obtain ⟨t, us, rfl, ht⟩ := exists_misfit hne hend hline hcomment hname
    exact ⟨.field, .refl .field _, blocks_of_misfit (.inr rfl) ht⟩

/-- The lines lead to where the reader stops, and the tokens there block. -/
theorem readLines_leads {ts : List Token} {e : Expectation} (h : Closed ts)
    (hmissing : (readLines ts).missing = some e) :
    ∃ st, Leads .line ts (readLines ts).rest st ∧ st.Blocks (readLines ts).rest := by
  fun_induction readLines ts with
  | case1 => cases hmissing
  | case2 s ts => cases hmissing
  | case3 text s ts ih =>
    obtain ⟨st, hleads, hst⟩ := ih h.tail hmissing
    exact ⟨st, hleads.comment rfl, hst⟩
  | case4 s ts ih =>
    obtain ⟨st, hleads, hst⟩ := ih h.tail hmissing
    exact ⟨st, .step rfl hleads, hst⟩
  | case5 keyword s ts missing rest hfields =>
    obtain ⟨st, hleads, hst⟩ := readFields_leads h.tail
    rw [hfields] at hleads hst
    exact ⟨st, .step rfl hleads, hst⟩
  | case6 keyword s ts fields rest hfields _ after ih =>
    obtain ⟨st, hleads, hst⟩ := readFields_leads h.tail
    have hclosed := h.tail.readFields
    rw [hfields] at hleads hst hclosed
    obtain ⟨rfl, hend⟩ := hst
    obtain ⟨st, hafter, hst⟩ := ih hclosed hmissing
    obtain ⟨t, us, rfl⟩ := List.exists_cons_of_ne_nil hclosed.ne_nil
    exact ⟨st, .step rfl (hleads.trans (hafter.of_line (hend t rfl) hst)), hst⟩
  | case7 ts hne hend hcomment hline hname =>
    obtain ⟨t, us, rfl, ht⟩ := exists_misfit hne hend hline hcomment hname
    exact ⟨.line, .refl .line _, blocks_of_misfit (.inl rfl) ht⟩

/-- What cannot be read is named at a token: those in front of it are viable, and with the first
one from it on that is no comment they are not. An invalid token speaks for itself. -/
theorem stops_where_hopeless {source : String} {why : Fault} (h : parseLines source = .error why) :
    ∃ before t after, tokens source = before ++ t :: after ∧
      (∃ detail context, why = .malformed detail t.span.line t.span.column context ∧
        ∀ blemish, t.kind = .invalid blemish → detail = blemish.message) ∧
      Viable (plain before) ∧
        ∃ u, (t :: after).find? (!·.kind.isComment) = some u ∧
          ¬Viable (plain before ++ [u.kind]) := by
  obtain ⟨e, hmissing, rfl⟩ := parseLines_eq_error_iff.1 h
  have hclosed := (Cursor.ofString source).tokens_closed
  obtain ⟨st, ⟨before, htokens, hrun⟩, u, hu, hnext⟩ := readLines_leads hclosed hmissing
  obtain ⟨t, after, hrest⟩ := List.exists_cons_of_ne_nil hclosed.readLines.ne_nil
  have hfound : (read source).found = t := by
    rw [Reading.found, read, tokens, hrest]
    rfl
  rw [hrest] at htokens hu
  rw [hfound]
  refine ⟨before, t, after, htokens, ⟨_, _, rfl, ?_⟩, viable_iff.2 ⟨st, hrun⟩, u, hu, ?_⟩
  · intro blemish hblemish
    rw [hblemish]
    rfl
  · rw [viable_iff]
    rintro ⟨st', hst'⟩
    rw [Stage.run_append_of hrun, Stage.run_cons, hnext] at hst'
    cases hst'

/-- A comment stands where a value is looked for: a value could follow the tokens in front of it,
and the end of the line behind it cannot. -/
theorem comment_is_hopeless_for_value :
    let source := "board name=# n\nball"
    let detail := "expected a value for 'name', found comment"
    parseLines source = .error (.malformed detail 1 12 "board name=# n") ∧
      ∃ before t after, tokens source = before ++ t :: after ∧
        t.span.line = 1 ∧ t.span.column = 12 ∧ Viable (plain before) ∧
          ∃ u, (t :: after).find? (!·.kind.isComment) = some u ∧
            ¬Viable (plain before ++ [u.kind]) := by
  intro source detail
  have hfault : parseLines source = .error (.malformed detail 1 12 "board name=# n") := by
    decide +kernel
  obtain ⟨before, t, after, htokens, ⟨_, _, hwhy, -⟩, hviable, hhopeless⟩ :=
    stops_where_hopeless hfault
  obtain ⟨-, hline, hcolumn, -⟩ := Fault.malformed.inj hwhy
  exact ⟨hfault, before, t, after, htokens, hline.symm, hcolumn.symm, hviable, hhopeless⟩

end Playfield.Source
