/-
  Playfield.Proofs.Source.Places — a reader does not look at where tokens stand.

  It looks at what they are and hands their places on. So when the tokens of a text are put in
  other places, the same lines are read, in those places, and the reader stops at the same token
  (`readLines_map`). The places of line feeds are handed on to no line: they may be changed in a
  way of their own (`Relocates`).
-/

import Playfield.Proofs.Source.Grammar

namespace Playfield.Source

/-! ## Tokens that do not fit -/

/-- A token with which neither a line nor a field begins, and which ends none. -/
def Token.Kind.isMisfit : Token.Kind → Bool
  | .inputEnd | .lineEnd | .comment _ | .name _ => false
  | _ => true

theorem exists_misfit {ts : List Token} (hne : ts = [] → False)
    (hend : ∀ s us, ts = ⟨.inputEnd, s⟩ :: us → False)
    (hline : ∀ s us, ts = ⟨.lineEnd, s⟩ :: us → False)
    (hcomment : ∀ text s us, ts = ⟨.comment text, s⟩ :: us → False)
    (hname : ∀ key s us, ts = ⟨.name key, s⟩ :: us → False) :
    ∃ t us, ts = t :: us ∧ t.kind.isMisfit = true := by
  obtain ⟨⟨kind, s⟩, us, rfl⟩ := List.exists_cons_of_ne_nil hne
  refine ⟨_, us, rfl, ?_⟩
  cases kind with
  | inputEnd => exact (hend s us rfl).elim
  | lineEnd => exact (hline s us rfl).elim
  | comment text => exact (hcomment text s us rfl).elim
  | name key => exact (hname key s us rfl).elim
  | _ => rfl

theorem readFields_of_misfit {t : Token} (h : t.kind.isMisfit = true) (ts : List Token) :
    readFields (t :: ts) = (.error .fieldName, t :: ts) := by
  obtain ⟨kind, s⟩ := t
  cases kind with
  | inputEnd => cases h
  | lineEnd => cases h
  | comment text => cases h
  | name key => cases h
  | _ => rfl

theorem readLines_of_misfit {t : Token} (h : t.kind.isMisfit = true) (ts : List Token) :
    readLines (t :: ts) = { lines := [], missing := some .keyword, rest := t :: ts } := by
  obtain ⟨kind, s⟩ := t
  cases kind with
  | inputEnd => cases h
  | lineEnd => cases h
  | comment text => cases h
  | name key => cases h
  | _ => rw [readLines] <;> simp

/-! ## A line by its fields -/

section

variable {ts : List Token}

theorem readLines_of_error {keyword : String} {s : Span} {e : Expectation}
    (h : (readFields ts).1 = .error e) :
    readLines (⟨.name keyword, s⟩ :: ts) =
      { lines := [], missing := some e, rest := (readFields ts).2 } := by
  rw [readLines]
  split
  · next hfields =>
    rw [hfields] at h ⊢
    cases h
    rfl
  · next hfields =>
    rw [hfields] at h
    cases h

theorem readLines_of_ok {keyword : String} {s : Span} {fields : List Field}
    (h : (readFields ts).1 = .ok fields) :
    readLines (⟨.name keyword, s⟩ :: ts) =
      { readLines (readFields ts).2 with
        lines := Line.make keyword s fields :: (readLines (readFields ts).2).lines } := by
  rw [readLines]
  split
  · next hfields =>
    rw [hfields] at h
    cases h
  · next fields' rest hfields =>
    have hrest : (readFields ts).2 = rest := by rw [hfields]
    rw [hfields] at h
    cases h
    rw [hrest]

end

/-! ## Other places -/

section

variable (g : Span → Span)

def Token.mapSpan (t : Token) : Token :=
  { t with span := g t.span }

def Literal.mapSpan (l : Literal) : Literal :=
  { l with span := g l.span }

def Field.mapSpan (f : Field) : Field :=
  { f with keySpan := g f.keySpan, value := f.value.mapSpan g }

def Line.mapSpan (line : Line) : Line :=
  { line with
    keywordSpan := g line.keywordSpan
    fields := line.fields.map (·.mapSpan g)
    span := g line.span }

end

/-- A change of tokens that leaves what they are, and changes the places of all but line feeds by
`g`. What reaches from one place to another still does behind the change. -/
structure Relocates (g : Span → Span) (f : Token → Token) : Prop where
  kind : ∀ t, (f t).kind = t.kind
  span : ∀ t, t.kind ≠ .lineEnd → (f t).span = g t.span
  join : ∀ a b, g (a.join b) = (g a).join (g b)

section

variable {g : Span → Span} {f : Token → Token}

theorem Relocates.eq_mk (h : Relocates g f) (kind : Token.Kind) (s : Span)
    (hkind : kind ≠ .lineEnd := by simp) : f ⟨kind, s⟩ = ⟨kind, g s⟩ := by
  have hsame := h.kind ⟨kind, s⟩
  have hspan := h.span ⟨kind, s⟩ hkind
  generalize f ⟨kind, s⟩ = t at hsame hspan
  obtain ⟨kind', s'⟩ := t
  cases hsame
  cases hspan
  rfl

theorem Relocates.exists_lineEnd (h : Relocates g f) (s : Span) :
    ∃ s', f ⟨.lineEnd, s⟩ = ⟨.lineEnd, s'⟩ := by
  have hsame := h.kind ⟨.lineEnd, s⟩
  generalize f ⟨.lineEnd, s⟩ = t at hsame
  obtain ⟨kind', s'⟩ := t
  cases hsame
  exact ⟨s', rfl⟩

theorem Relocates.literal? (h : Relocates g f) (t : Token) :
    (f t).literal? = t.literal?.map (·.mapSpan g) := by
  obtain ⟨kind, s⟩ := t
  by_cases hkind : kind = .lineEnd
  · rw [hkind]
    obtain ⟨s', hs'⟩ := h.exists_lineEnd s
    rw [hs']
    rfl
  · rw [h.eq_mk kind s hkind]
    cases kind <;> rfl

theorem Relocates.readFields (h : Relocates g f) (ts : List Token) :
    readFields (ts.map f) =
      ((readFields ts).1.map (List.map (·.mapSpan g)), (readFields ts).2.map f) := by
  fun_induction Source.readFields ts with
  | case1 => rfl
  | case2 s ts =>
    rw [List.map_cons, h.eq_mk .inputEnd s]
    rfl
  | case3 s ts =>
    obtain ⟨s', hs'⟩ := h.exists_lineEnd s
    rw [List.map_cons, hs']
    rfl
  | case4 text s ts ih =>
    rw [List.map_cons, h.eq_mk (.comment text) s, Source.readFields]
    exact ih
  | case5 key keySpan s t ts value hvalue fields rest hfields ih =>
    rw [hfields] at ih
    have hvalue' : (f t).literal? = some (value.mapSpan g) := by
      rw [h.literal?, hvalue]
      rfl
    simp only [List.map_cons, h.eq_mk (.name key) keySpan, h.eq_mk .equals s, Source.readFields,
      hvalue', ih]
    cases fields <;> rfl
  | case6 key keySpan s t ts hnone =>
    have hnone' : (f t).literal? = none := by
      rw [h.literal?, hnone]
      rfl
    simp only [List.map_cons, h.eq_mk (.name key) keySpan, h.eq_mk .equals s, Source.readFields,
      hnone']
    rfl
  | case7 key s s' =>
    simp only [List.map_cons, List.map_nil, h.eq_mk (.name key) s, h.eq_mk .equals s',
      Source.readFields]
    rfl
  | case8 key s ts hnot hnot' =>
    rw [List.map_cons, h.eq_mk (.name key) s]
    cases ts with
    | nil => rfl
    | cons t us =>
      have hkind := h.kind t
      obtain ⟨k, s'⟩ := t
      rw [List.map_cons]
      generalize f ⟨k, s'⟩ = t' at hkind
      obtain ⟨k', s''⟩ := t'
      cases hkind
      cases k with
      | equals =>
        cases us with
        | nil => exact (hnot' s' rfl).elim
        | cons t us => exact (hnot s' t us rfl).elim
      | _ => rfl
  | case9 ts hne hend hline hcomment _ _ hname =>
    obtain ⟨t, us, rfl, ht⟩ := exists_misfit hne hend hline hcomment hname
    rw [List.map_cons, readFields_of_misfit (by rw [h.kind]; exact ht)]
    rfl

theorem Relocates.make (h : Relocates g f) (keyword : String) (s : Span) (fields : List Field) :
    Line.make keyword (g s) (fields.map (·.mapSpan g)) =
      (Line.make keyword s fields).mapSpan g := by
  unfold Line.make Line.mapSpan
  rw [List.getLast?_map, h.join]
  cases fields.getLast? <;> rfl

/-- The lines of tokens in other places. -/
theorem Relocates.readLines (h : Relocates g f) (ts : List Token) :
    readLines (ts.map f) =
      { lines := (readLines ts).lines.map (·.mapSpan g)
        missing := (readLines ts).missing
        rest := (readLines ts).rest.map f } := by
  fun_induction Source.readLines ts with
  | case1 => simp [Source.readLines]
  | case2 s ts => simp [Source.readLines, h.eq_mk .inputEnd s]
  | case3 text s ts ih =>
    rw [List.map_cons, h.eq_mk (.comment text) s, Source.readLines]
    exact ih
  | case4 s ts ih =>
    obtain ⟨s', hs'⟩ := h.exists_lineEnd s
    rw [List.map_cons, hs', Source.readLines]
    exact ih
  | case5 keyword s ts missing rest hfields =>
    have hmap := h.readFields ts
    rw [hfields] at hmap
    have herror : (Source.readFields (ts.map f)).1 = .error missing := by
      rw [hmap]
      rfl
    rw [List.map_cons, h.eq_mk (.name keyword) s, readLines_of_error herror, hmap]
    rfl
  | case6 keyword s ts fields rest hfields _ after ih =>
    have hmap := h.readFields ts
    rw [hfields] at hmap
    have hok : (Source.readFields (ts.map f)).1 = .ok (fields.map (·.mapSpan g)) := by
      rw [hmap]
      rfl
    rw [List.map_cons, h.eq_mk (.name keyword) s, readLines_of_ok hok, hmap, ih, h.make]
    rfl
  | case7 ts hne hend hcomment hline hname =>
    obtain ⟨t, us, rfl, ht⟩ := exists_misfit hne hend hline hcomment hname
    rw [List.map_cons, readLines_of_misfit (by rw [h.kind]; exact ht)]
    rfl

end

end Playfield.Source
