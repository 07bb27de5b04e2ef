/-
  Playfield.Proofs.Board.Layout — texts of the same groups of words are boards that say the same.

  Two computations agree when both give values that are related, or both fail with faults that
  are alike: of one kind, and blaming the same field or name. Agreement is carried from step to
  step by `Agree.bind`.

  What two boards say can be the same while their literals stand in different places. Texts with
  the same groups agree on such boards (`parse_agree`): whether a text is a board and what the
  board says depends on the groups only.
-/

import Playfield.Proofs.Board.Grammar

namespace Playfield

open Source

/-! ## Agreement -/

/-- Faults of one kind that blame the same field or the same name. The places they point at may
differ, and so may what is said of a text that is no board. -/
inductive Fault.Alike : Fault → Fault → Prop where
  | malformed (detail detail' : String) (line line' column column' : Nat)
      (context context' : String) :
      Alike (.malformed detail line column context) (.malformed detail' line' column' context')
  | badField (field detail : String) (line line' : Nat) :
      Alike (.badField field detail line) (.badField field detail line')
  | unresolved (name : String) (line line' : Nat) :
      Alike (.unresolved name line) (.unresolved name line')
  | duplicate (name : String) (line line' firstLine firstLine' : Nat) :
      Alike (.duplicate name line firstLine) (.duplicate name line' firstLine')

/-- Both give values, and these are related, or both fail with faults that are alike. -/
inductive Agree {α β : Type} (R : α → β → Prop) : Except Fault α → Except Fault β → Prop where
  | ok {a : α} {b : β} : R a b → Agree R (.ok a) (.ok b)
  | error {why why' : Fault} : why.Alike why' → Agree R (.error why) (.error why')

theorem Agree.bind {α β γ δ : Type} {R : α → β → Prop} {S : γ → δ → Prop} {x : Except Fault α}
    {y : Except Fault β} {f : α → Except Fault γ} {g : β → Except Fault δ} (h : Agree R x y)
    (hfg : ∀ a b, R a b → Agree S (f a) (g b)) : Agree S (x >>= f) (y >>= g) := by
  cases h with
  | ok hab => exact hfg _ _ hab
  | error hwhy => exact .error hwhy

theorem Agree.bind_eq {α γ δ : Type} {S : γ → δ → Prop} {x y : Except Fault α}
    {f : α → Except Fault γ} {g : α → Except Fault δ} (h : Agree Eq x y)
    (hfg : ∀ a, Agree S (f a) (g a)) : Agree S (x >>= f) (y >>= g) := by
  refine h.bind ?_
  rintro a _ rfl
  exact hfg a

/-! ## What literals say -/

/-- The class and the text of a literal, wherever it stands. -/
def Source.Literal.said (l : Literal) : Literal.Kind × String :=
  (l.kind, l.text)

theorem Source.Literal.text_eq_of_said {l l' : Literal} (h : l.said = l'.said) : l.text = l'.text :=
  congrArg Prod.snd h

/-- What a line gives for a key is in its sentence. -/
theorem Source.Line.said_value? (line : Line) (key : String) :
    (line.value? key).map Literal.said =
      (line.sentence.entries.find? (·.key == key)).map fun e => (e.kind, e.text) := by
  rw [Line.value?, Line.field?, Line.sentence, List.find?_map, Option.map_map, Option.map_map]
  rfl

namespace Board

/-- What the literals of some fields say, key by key. -/
def told (fields : List (String × Option Literal)) :
    List (String × Option (Literal.Kind × String)) :=
  fields.map fun e => (e.1, e.2.map Literal.said)

theorem told_cons_iff {key : String} {o o' : Option Literal}
    {fields fields' : List (String × Option Literal)} :
    told ((key, o) :: fields) = told ((key, o') :: fields') ↔
      o.map Literal.said = o'.map Literal.said ∧ told fields = told fields' := by
  simp only [told, List.map_cons, List.cons.injEq, Prod.mk.injEq, true_and]

/-- A field that has to be there. -/
theorem told_some_cons_iff {key : String} {l l' : Literal}
    {fields fields' : List (String × Option Literal)} :
    told ((key, some l) :: fields) = told ((key, some l') :: fields') ↔
      l.said = l'.said ∧ told fields = told fields' := by
  simp only [told_cons_iff, Option.map_some, Option.some.injEq]

/-- The declarations are of one production and say the same. -/
structure Declaration.Alike (d d' : Declaration) : Prop where
  keyword : d.keyword = d'.keyword
  fields : told d.fields = told d'.fields

/-- The boards say the same. -/
structure Alike (b b' : Board) : Prop where
  header : told b.header.fields = told b'.header.fields
  declarations : List.Forall₂ Declaration.Alike b.declarations b'.declarations

/-! ## Lines -/

section

variable {line line' : Line}

/-- Lines that say the same give the same for the same keys. -/
theorem told_eq_of_values (hsaid : line.sentence = line'.sentence)
    {fields fields' : List (String × Option Literal)} (hkeys : fields.map (·.1) = fields'.map (·.1))
    (h : ∀ e ∈ fields, line.value? e.1 = e.2) (h' : ∀ e ∈ fields', line'.value? e.1 = e.2) :
    told fields = told fields' := by
  have htold {line : Line} {fields : List (String × Option Literal)}
      (h : ∀ e ∈ fields, line.value? e.1 = e.2) :
      told fields = (fields.map (·.1)).map fun key => (key, (line.value? key).map Literal.said) := by
    rw [told, List.map_map]
    exact List.map_congr_left fun e he => by rw [← h e he]; rfl
  rw [htold h, htold h', hkeys]
  simp only [Line.said_value?, hsaid]

theorem Declaration.alike_of_ofLine (hsaid : line.sentence = line'.sentence) {d d' : Declaration}
    (hd : ofLine line = .ok d) (hd' : ofLine line' = .ok d') : d.Alike d' := by
  obtain ⟨htext, -, hvalues⟩ := of_ofLine hd
  obtain ⟨htext', -, hvalues'⟩ := of_ofLine hd'
  have hkeyword : d.keyword = d'.keyword := by
    have hline : line.keyword = line'.keyword := congrArg Sentence.keyword hsaid
    have hfound := Keyword.ofText?_eq_some_iff.2 htext
    rw [hline, Keyword.ofText?_eq_some_iff.2 htext'] at hfound
    exact (Option.some.inj hfound).symm
  refine ⟨hkeyword, told_eq_of_values hsaid ?_ hvalues hvalues'⟩
  rw [keys_fields, keys_fields, hkeyword]

theorem Header.told_of_ofLine (hsaid : line.sentence = line'.sentence) {header header' : Header}
    (h : ofLine line = .ok header) (h' : ofLine line' = .ok header') :
    told header.fields = told header'.fields := by
  obtain ⟨-, -, rfl⟩ := Header.ofLine_eq_ok_iff.1 h
  obtain ⟨-, -, rfl⟩ := Header.ofLine_eq_ok_iff.1 h'
  exact told_eq_of_values hsaid rfl (by simp [fields]) (by simp [fields])

end

theorem declarations_alike {lines lines' : List Line} {ds ds' : List Declaration}
    (hsaid : lines.map Line.sentence = lines'.map Line.sentence)
    (hd : List.Forall₂ (fun line d => Declaration.ofLine line = .ok d) lines ds)
    (hd' : List.Forall₂ (fun line d => Declaration.ofLine line = .ok d) lines' ds') :
    List.Forall₂ Declaration.Alike ds ds' := by
  induction hd generalizing lines' ds' with
  | nil =>
    cases hd' with
    | nil => exact .nil
    | cons _ _ => cases hsaid
  | cons hline _ ih =>
    cases hd' with
    | nil => cases hsaid
    | cons hline' hlines' =>
      obtain ⟨hfirst, hrest⟩ := List.cons.inj hsaid
      exact .cons (Declaration.alike_of_ofLine hfirst hline hline') (ih hrest hlines')

/-! ## Texts -/

theorem alike_of_ofLines {source source' : String} {lines lines' : List Line} {b b' : Board}
    (hsaid : lines.map Line.sentence = lines'.map Line.sentence)
    (hb : ofLines source lines = .ok b) (hb' : ofLines source' lines' = .ok b') : b.Alike b' := by
  obtain ⟨first, rest, rfl, hheader, hdeclarations⟩ := ofLines_eq_ok_iff.1 hb
  obtain ⟨first', rest', rfl, hheader', hdeclarations'⟩ := ofLines_eq_ok_iff.1 hb'
  obtain ⟨hfirst, hrest⟩ := List.cons.inj hsaid
  exact ⟨Header.told_of_ofLine hfirst hheader hheader',
    declarations_alike hrest hdeclarations hdeclarations'⟩

theorem parse_error {source : String} {why : Fault} (h : parse source = .error why) :
    ∃ detail line column context, why = .malformed detail line column context := by
  rcases parse_eq_error_iff.1 h with h | ⟨_, m, -, -, rfl⟩
  · obtain ⟨e, -, rfl⟩ := parseLines_eq_error_iff.1 h
    exact ⟨_, _, _, _, rfl⟩
  · exact ⟨_, _, _, _, rfl⟩

section

variable {s t : String}

theorem sentences_eq (h : groups s = groups t) {lines lines' : List Line}
    (hs : parseLines s = .ok lines) (ht : parseLines t = .ok lines') :
    lines.map Line.sentence = lines'.map Line.sentence :=
  List.right_unique_forall₂' (fun _ _ _ h h' => h.unique h') (says_of_parseLines hs)
    (h ▸ says_of_parseLines ht)

/-- Whether a text is a board depends on its groups. -/
theorem exists_parse (h : groups s = groups t) {b : Board} (hs : parse s = .ok b) :
    ∃ b', parse t = .ok b' := by
  obtain ⟨lines, hlines, hb⟩ := parse_eq_ok_iff.1 hs
  obtain ⟨lines', hlines'⟩ := parseLines_ok_iff.2 ⟨_, h ▸ says_of_parseLines hlines⟩
  have hboard := areBoard_of_ofLines hb
  rw [sentences_eq h hlines hlines'] at hboard
  obtain ⟨b', hb'⟩ := exists_ofLines t hboard
  exact ⟨b', parse_eq_ok_iff.2 ⟨lines', hlines', hb'⟩⟩

/-- Texts with the same groups are boards that say the same, or both are none. -/
theorem parse_agree (h : groups s = groups t) : Agree Alike (parse s) (parse t) := by
  cases hs : parse s with
  | ok b =>
    obtain ⟨b', ht⟩ := exists_parse h hs
    obtain ⟨lines, hlines, hb⟩ := parse_eq_ok_iff.1 hs
    obtain ⟨lines', hlines', hb'⟩ := parse_eq_ok_iff.1 ht
    rw [ht]
    exact .ok (alike_of_ofLines (sentences_eq h hlines hlines') hb hb')
  | error why =>
    cases ht : parse t with
    | ok b' =>
      obtain ⟨b, hb⟩ := exists_parse h.symm ht
      rw [hs] at hb
      cases hb
    | error why' =>
      obtain ⟨_, _, _, _, rfl⟩ := parse_error hs
      obtain ⟨_, _, _, _, rfl⟩ := parse_error ht
      exact .error (.malformed ..)

end

end Board

end Playfield
