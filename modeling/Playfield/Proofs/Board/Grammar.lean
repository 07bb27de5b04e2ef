/-
  Playfield.Proofs.Board.Grammar — which texts are boards, and what their declarations carry.

  The grammar of boards is said of groups of words, without reading them: every group is a
  sentence of one of the nine productions, the first is a `board` line and no other is. Parsing
  a text succeeds exactly for the grammatical ones. The header and the declarations that come
  out then carry, for each key of their production, the literal that was written after it
  (`parse_ok_iff_grammatical`).
-/

import Playfield.Board.Basic
import Playfield.Proofs.Board.Production

namespace Playfield.Board

open Source

/-! ## The grammar -/

/-- The nine productions: a keyword and the slots of its line. -/
inductive Production : String → List Slot → Prop where
  | board : Production boardKeyword boardSlots
  | declaration (keyword : Keyword) : Production keyword.text keyword.slots

/-- The sentences of a board. -/
structure AreBoard (xs : List Sentence) : Prop where
  first : xs.head?.map (·.keyword) = some boardKeyword
  once : ∀ x ∈ xs.tail, x.keyword ≠ boardKeyword
  fits : ∀ x ∈ xs, ∃ slots, Production x.keyword slots ∧ Fits x slots

/-- The groups are the sentences of a board. -/
def Grammatical (groups : List (List Token.Kind)) : Prop :=
  ∃ xs, List.Forall₂ Says groups xs ∧ AreBoard xs

/-- The literals of a header by key, in the order of its production. -/
def Header.fields (h : Header) : List (String × Option Literal) :=
  [("name", h.name), ("gravity", h.gravity), ("friction1", h.friction1),
    ("friction2", h.friction2)]

/-- There is a field for each key of the production, and it holds the literal that the sentence
gives for the key, or none when it gives none. -/
structure Carries (x : Sentence) (slots : List Slot) (fields : List (String × Option Literal)) :
    Prop where
  keys : fields.map (·.1) = slots.map (·.key)
  values : ∀ key value, (key, value) ∈ fields → ∀ kind text,
    (∃ span, value = some { kind, text, span }) ↔ { key, kind, text : Entry } ∈ x.entries

/-- The header and the declarations, in order, carry what the groups say. -/
def Reflects (board : Board) (groups : List (List Token.Kind)) : Prop :=
  ∃ first rest, List.Forall₂ Says groups (first :: rest) ∧
    Carries first boardSlots board.header.fields ∧
    List.Forall₂ (fun x d => d.keyword.text = x.keyword ∧ Carries x d.keyword.slots d.fields)
      rest board.declarations

/-! ## Productions -/

theorem Keyword.mem_all (k : Keyword) : k ∈ Keyword.all := by
  cases k with
  | flipper side => cases side <;> decide
  | _ => decide

theorem Keyword.text_ne_board (k : Keyword) : k.text ≠ boardKeyword := by
  cases k with
  | flipper side => cases side <;> decide
  | _ => decide

theorem Keyword.ofText?_eq_some_iff {text : String} {k : Keyword} :
    Keyword.ofText? text = some k ↔ k.text = text := by
  have hnodup : (Keyword.all.map (·.text)).Nodup := by decide
  rw [ofText?, find?_key_eq_some_iff hnodup, and_iff_right k.mem_all]

theorem Production.eq_boardSlots {slots : List Slot} (h : Production boardKeyword slots) :
    slots = boardSlots := by
  generalize htext : boardKeyword = text at h
  cases h with
  | board => rfl
  | declaration keyword => exact absurd htext.symm keyword.text_ne_board

theorem Production.exists_keyword {text : String} {slots : List Slot} (h : Production text slots)
    (hne : text ≠ boardKeyword) : ∃ keyword : Keyword, keyword.text = text ∧ keyword.slots = slots := by
  cases h with
  | board => exact absurd rfl hne
  | declaration keyword => exact ⟨keyword, rfl, rfl⟩

theorem boardSlots_nodup : (boardSlots.map (·.key)).Nodup := by decide

theorem Keyword.slots_nodup (k : Keyword) : (k.slots.map (·.key)).Nodup := by
  cases k with
  | flipper side => cases side <;> decide
  | _ => decide

theorem Declaration.keys_fields (d : Declaration) :
    d.fields.map (·.1) = d.keyword.slots.map (·.key) := by
  cases d with
  | gadget form _ _ _ _ => cases form <;> rfl
  | _ => rfl

/-! ## Lines -/

theorem carries_of_values {line : Line} {slots : List Slot} {fields : List (String × Option Literal)}
    (hfits : Fits line.sentence slots) (hkeys : fields.map (·.1) = slots.map (·.key))
    (hvalues : ∀ e ∈ fields, line.value? e.1 = e.2) : Carries line.sentence slots fields := by
  refine ⟨hkeys, fun key value hmem kind text => ?_⟩
  have hnodup : (line.fields.map (·.key)).Nodup := by
    simpa [Line.sentence, Field.entry, Function.comp_def] using hfits.once
  have hkey : line.value? key = value := hvalues (key, value) hmem
  rw [← hkey]
  simp only [value?_eq_some_iff hnodup, Line.sentence, List.mem_map]
  refine ⟨fun h => ?_, fun h => ?_⟩
  · obtain ⟨span, f, hf, rfl, hvalue⟩ := h
    exact ⟨f, hf, by rw [Field.entry, hvalue]⟩
  · obtain ⟨f, hf, hentry⟩ := h
    cases hentry
    exact ⟨f.value.span, f, hf, rfl, rfl⟩

theorem Header.ofLine_eq_ok_iff {line : Line} {header : Header} :
    Header.ofLine line = .ok header ↔
      line.keyword = boardKeyword ∧ Fits line.sentence boardSlots ∧
        header = ⟨line.value? "name", line.value? "gravity", line.value? "friction1",
          line.value? "friction2", line.span⟩ := by
  unfold Header.ofLine
  by_cases hkeyword : line.keyword = boardKeyword
  · simp only [ne_eq, hkeyword, not_true_eq_false, if_false, bind_eq_ok_iff, pure_eq_ok_iff,
      true_and, checkLine_eq_ok_iff boardSlots_nodup]
    refine ⟨fun h' => ?_, fun h' => ?_⟩
    · obtain ⟨_, hfits, rfl⟩ := h'
      exact ⟨hfits, rfl⟩
    · obtain ⟨hfits, rfl⟩ := h'
      exact ⟨(), hfits, rfl⟩
  · rw [if_pos hkeyword]
    exact ⟨nofun, fun h => absurd h.1 hkeyword⟩

theorem gadgetOfLine_eq_ok_iff {line : Line} {form : Except Misplaced Form} {d : Declaration} :
    gadgetOfLine line form = .ok d ↔ ∃ name x y f, line.value? "name" = some name ∧
      line.value? "x" = some x ∧ line.value? "y" = some y ∧ form = .ok f ∧
        d = .gadget f name x y line.span := by
  simp only [gadgetOfLine, bind_eq_ok_iff, require_eq_ok_iff, pure_eq_ok_iff]
  refine ⟨fun h => ?_, fun h => ?_⟩
  · obtain ⟨name, hname, x, hx, y, hy, f, hf, rfl⟩ := h
    exact ⟨name, x, y, f, hname, hx, hy, hf, rfl⟩
  · obtain ⟨name, x, y, f, hname, hx, hy, hf, rfl⟩ := h
    exact ⟨name, hname, x, hx, y, hy, f, hf, rfl⟩

/-- A declaration is of its line's production and holds what its line gives. -/
theorem Declaration.of_ofLine {line : Line} {d : Declaration} (h : ofLine line = .ok d) :
    d.keyword.text = line.keyword ∧ Fits line.sentence d.keyword.slots ∧
      ∀ e ∈ d.fields, line.value? e.1 = e.2 := by
  unfold ofLine at h
  split at h
  · cases h
  rename_i keyword hkeyword
  rw [Keyword.ofText?_eq_some_iff] at hkeyword
  obtain ⟨_, hcheck, h⟩ := bind_eq_ok_iff.1 h
  rw [checkLine_eq_ok_iff keyword.slots_nodup] at hcheck
  cases keyword with
  | squareBumper =>
    obtain ⟨name, x, y, f, hname, hx, hy, hf, rfl⟩ := gadgetOfLine_eq_ok_iff.1 h
    cases hf
    refine ⟨hkeyword, hcheck, ?_⟩
    simp [fields, hname, hx, hy]
  | circleBumper =>
    obtain ⟨name, x, y, f, hname, hx, hy, hf, rfl⟩ := gadgetOfLine_eq_ok_iff.1 h
    cases hf
    refine ⟨hkeyword, hcheck, ?_⟩
    simp [fields, hname, hx, hy]
  | triangleBumper =>
    obtain ⟨name, x, y, f, hname, hx, hy, hf, rfl⟩ := gadgetOfLine_eq_ok_iff.1 h
    cases hf
    refine ⟨hkeyword, hcheck, ?_⟩
    simp [fields, hname, hx, hy]
  | flipper side =>
    obtain ⟨name, x, y, f, hname, hx, hy, hf, rfl⟩ := gadgetOfLine_eq_ok_iff.1 h
    cases hf
    refine ⟨hkeyword, hcheck, ?_⟩
    simp [fields, hname, hx, hy]
  | absorber =>
    obtain ⟨name, x, y, f, hname, hx, hy, hf, rfl⟩ := gadgetOfLine_eq_ok_iff.1 h
    simp only [bind_eq_ok_iff, require_eq_ok_iff, pure_eq_ok_iff] at hf
    obtain ⟨width, hwidth, height, hheight, rfl⟩ := hf
    refine ⟨hkeyword, hcheck, ?_⟩
    simp [fields, hname, hx, hy, hwidth, hheight]
  | ball =>
    simp only [bind_eq_ok_iff, require_eq_ok_iff, pure_eq_ok_iff] at h
    obtain ⟨name, hname, x, hx, y, hy, u, hu, v, hv, rfl⟩ := h
    refine ⟨hkeyword, hcheck, ?_⟩
    simp [fields, hname, hx, hy, hu, hv]
  | fire =>
    simp only [bind_eq_ok_iff, require_eq_ok_iff, pure_eq_ok_iff] at h
    obtain ⟨trigger, htrigger, action, haction, rfl⟩ := h
    refine ⟨hkeyword, hcheck, ?_⟩
    simp [fields, htrigger, haction]

theorem exists_gadgetOfLine {line : Line} {form : Except Misplaced Form} {f : Form}
    (hgiven : ∀ slot ∈ placeSlots, ∃ l, line.value? slot.key = some l) (hf : form = .ok f) :
    ∃ d, gadgetOfLine line form = .ok d := by
  simp only [placeSlots, List.forall_mem_cons] at hgiven
  obtain ⟨⟨name, hname⟩, ⟨x, hx⟩, ⟨y, hy⟩, -⟩ := hgiven
  exact ⟨_, gadgetOfLine_eq_ok_iff.2 ⟨name, x, y, f, hname, hx, hy, hf, rfl⟩⟩

/-- A line that fits the production of its keyword is a declaration. -/
theorem Declaration.exists_ofLine {line : Line} {keyword : Keyword}
    (hkeyword : keyword.text = line.keyword) (hfits : Fits line.sentence keyword.slots) :
    ∃ d, ofLine line = .ok d := by
  have hgiven : ∀ slot ∈ keyword.slots, slot.required = true →
      ∃ l, line.value? slot.key = some l := by
    intro slot hslot hrequired
    obtain ⟨e, he, hkey⟩ := hfits.required slot hslot hrequired
    obtain ⟨f, hf, rfl⟩ := List.mem_map.1 he
    exact exists_value?_iff.2 ⟨f, hf, hkey⟩
  have hplace (hsub : placeSlots ⊆ keyword.slots) :
      ∀ slot ∈ placeSlots, ∃ l, line.value? slot.key = some l := by
    intro slot hslot
    have hrequired : ∀ slot ∈ placeSlots, slot.required = true := by decide
    exact hgiven slot (hsub hslot) (hrequired slot hslot)
  have hcheck : checkLine keyword.slots line = .ok () :=
    (checkLine_eq_ok_iff keyword.slots_nodup).2 hfits
  rw [ofLine, Keyword.ofText?_eq_some_iff.2 hkeyword]
  simp only [hcheck]
  cases keyword with
  | squareBumper => exact exists_gadgetOfLine (hplace (List.Subset.refl _)) rfl
  | circleBumper => exact exists_gadgetOfLine (hplace (List.Subset.refl _)) rfl
  | triangleBumper => exact exists_gadgetOfLine (hplace (List.subset_append_left _ _)) rfl
  | flipper side => exact exists_gadgetOfLine (hplace (List.subset_append_left _ _)) rfl
  | absorber =>
    obtain ⟨width, hwidth⟩ := hgiven { key := "width", takes := .integer } (by decide) rfl
    obtain ⟨height, hheight⟩ := hgiven { key := "height", takes := .integer } (by decide) rfl
    refine exists_gadgetOfLine (f := .absorber width height)
      (hplace (List.subset_append_left _ _)) ?_
    simp only [bind_eq_ok_iff, require_eq_ok_iff, pure_eq_ok_iff]
    exact ⟨width, hwidth, height, hheight, rfl⟩
  | ball =>
    obtain ⟨name, hname⟩ := hgiven { key := "name", takes := .name } (by decide) rfl
    obtain ⟨x, hx⟩ := hgiven { key := "x", takes := .number } (by decide) rfl
    obtain ⟨y, hy⟩ := hgiven { key := "y", takes := .number } (by decide) rfl
    obtain ⟨u, hu⟩ := hgiven { key := "xVelocity", takes := .number } (by decide) rfl
    obtain ⟨v, hv⟩ := hgiven { key := "yVelocity", takes := .number } (by decide) rfl
    refine ⟨.ball name x y u v line.span, ?_⟩
    simp only [bind_eq_ok_iff, require_eq_ok_iff, pure_eq_ok_iff]
    exact ⟨(), trivial, name, hname, x, hx, y, hy, u, hu, v, hv, rfl⟩
  | fire =>
    obtain ⟨trigger, htrigger⟩ := hgiven { key := "trigger", takes := .name } (by decide) rfl
    obtain ⟨action, haction⟩ := hgiven { key := "action", takes := .name } (by decide) rfl
    refine ⟨.fire trigger action line.span, ?_⟩
    simp only [bind_eq_ok_iff, require_eq_ok_iff, pure_eq_ok_iff]
    exact ⟨(), trivial, trigger, htrigger, action, haction, rfl⟩

/-! ## Boards -/

theorem ofLines_eq_ok_iff {source : String} {lines : List Line} {board : Board} :
    ofLines source lines = .ok board ↔ ∃ first rest, lines = first :: rest ∧
      Header.ofLine first = .ok board.header ∧
        List.Forall₂ (fun line d => Declaration.ofLine line = .ok d) rest board.declarations := by
  cases lines with
  | nil => exact ⟨nofun, fun ⟨_, _, h, _⟩ => nomatch h⟩
  | cons first rest =>
    rw [ofLines]
    by_cases hkeyword : first.keyword = boardKeyword
    · simp only [ne_eq, hkeyword, not_true_eq_false, if_false, bind_eq_ok_iff, pure_eq_ok_iff,
        mapM_eq_ok_iff]
      refine ⟨fun h' => ?_, fun h' => ?_⟩
      · obtain ⟨header, hheader, declarations, hdeclarations, rfl⟩ := h'
        exact ⟨first, rest, rfl, hheader, hdeclarations⟩
      · obtain ⟨_, _, ⟨⟩, hheader, hdeclarations⟩ := h'
        exact ⟨_, hheader, _, hdeclarations, rfl⟩
    · rw [if_pos hkeyword]
      refine ⟨nofun, ?_⟩
      intro h'
      obtain ⟨_, _, ⟨⟩, hheader, -⟩ := h'
      exact absurd (Header.ofLine_eq_ok_iff.1 hheader).1 hkeyword

theorem parse_eq_ok_iff {source : String} {board : Board} :
    parse source = .ok board ↔
      ∃ lines, parseLines source = .ok lines ∧ ofLines source lines = .ok board := by
  rw [parse, bind_eq_ok_iff]
  refine exists_congr fun lines => and_congr_right fun _ => ?_
  cases ofLines source lines with
  | ok _ => exact pure_eq_ok_iff.trans (by simp)
  | error _ => exact ⟨nofun, nofun⟩

/-- A text is refused for what cannot be read, or else for a line that is not what its place asks
for. -/
theorem parse_eq_error_iff {source : String} {why : Fault} :
    parse source = .error why ↔ parseLines source = .error why ∨
      ∃ lines m, parseLines source = .ok lines ∧ ofLines source lines = .error m ∧
        why = m.fault source := by
  rw [parse, bind_eq_error_iff]
  refine or_congr_right (exists_congr fun lines => ?_)
  cases ofLines source lines with
  | ok _ => exact ⟨fun ⟨_, h⟩ => (nomatch h), fun ⟨_, _, h, _⟩ => (nomatch h)⟩
  | error m =>
    constructor
    · rintro ⟨hlines, hwhy⟩
      cases hwhy
      exact ⟨m, hlines, rfl, rfl⟩
    · rintro ⟨m', hlines, hm, rfl⟩
      cases hm
      exact ⟨hlines, rfl⟩

/-- A board that is named has a name that is not empty. -/
theorem name_ne_empty_of_parse {source : String} {board : Board} {l : Literal}
    (h : parse source = .ok board) (hname : board.header.name = some l) : l.text ≠ "" := by
  obtain ⟨lines, hlines, h⟩ := parse_eq_ok_iff.1 h
  obtain ⟨first, rest, rfl, hheader, -⟩ := ofLines_eq_ok_iff.1 h
  obtain ⟨-, -, hfields⟩ := Header.ofLine_eq_ok_iff.1 hheader
  rw [hfields, Line.value?, Line.field?, Option.map_eq_some_iff] at hname
  obtain ⟨f, hf, rfl⟩ := hname
  exact text_ne_empty_of_parseLines hlines List.mem_cons_self (List.mem_of_find?_eq_some hf)

theorem areBoard_of_ofLines {source : String} {lines : List Line} {board : Board}
    (h : ofLines source lines = .ok board) : AreBoard (lines.map Line.sentence) := by
  obtain ⟨first, rest, rfl, hheader, hdeclarations⟩ := ofLines_eq_ok_iff.1 h
  obtain ⟨hkeyword, hfits, -⟩ := Header.ofLine_eq_ok_iff.1 hheader
  have hrest : ∀ line ∈ rest, ∃ keyword : Keyword, keyword.text = line.keyword ∧
      Fits line.sentence keyword.slots := by
    intro line hline
    obtain ⟨d, -, hd⟩ := exists_of_mem_forall₂ (R := fun d line => Declaration.ofLine line = .ok d)
      hdeclarations.flip hline
    obtain ⟨hkeyword, hfits, -⟩ := Declaration.of_ofLine hd
    exact ⟨d.keyword, hkeyword, hfits⟩
  refine ⟨congrArg some hkeyword, ?_, ?_⟩
  · intro x hx
    obtain ⟨line, hline, rfl⟩ := List.mem_map.1 hx
    obtain ⟨keyword, hkeyword, -⟩ := hrest line hline
    rw [Line.sentence, ← hkeyword]
    exact keyword.text_ne_board
  · rw [List.map_cons, List.forall_mem_cons]
    refine ⟨⟨boardSlots, ?_, hfits⟩, ?_⟩
    · rw [Line.sentence, hkeyword]
      exact .board
    · intro x hx
      obtain ⟨line, hline, rfl⟩ := List.mem_map.1 hx
      obtain ⟨keyword, hkeyword, hfits⟩ := hrest line hline
      refine ⟨keyword.slots, ?_, hfits⟩
      rw [Line.sentence, ← hkeyword]
      exact .declaration keyword

theorem exists_ofLines (source : String) {lines : List Line}
    (h : AreBoard (lines.map Line.sentence)) : ∃ board, ofLines source lines = .ok board := by
  cases lines with
  | nil => cases h.first
  | cons first rest =>
    have hkeyword : first.keyword = boardKeyword := Option.some.inj h.first
    obtain ⟨⟨slots, hproduction, hfits⟩, hrest⟩ := List.forall_mem_cons.1 h.fits
    have hslots : slots = boardSlots := by
      rw [Line.sentence, hkeyword] at hproduction
      exact hproduction.eq_boardSlots
    obtain ⟨declarations, hdeclarations⟩ :=
      exists_forall₂ (R := fun line d => Declaration.ofLine line = .ok d) (l := rest) <| by
        intro line hline
        have hmem : line.sentence ∈ rest.map Line.sentence := List.mem_map_of_mem hline
        obtain ⟨slots, hproduction, hfits⟩ := hrest _ hmem
        obtain ⟨keyword, hkeyword, rfl⟩ := hproduction.exists_keyword (h.once _ hmem)
        exact Declaration.exists_ofLine hkeyword hfits
    have hheader := Header.ofLine_eq_ok_iff.2 ⟨hkeyword, hslots ▸ hfits, rfl⟩
    exact ⟨⟨_, declarations⟩,
      ofLines_eq_ok_iff.2 ⟨first, rest, rfl, hheader, hdeclarations⟩⟩

theorem reflects_of_ofLines {source : String} {lines : List Line} {board : Board}
    {groups : List (List Token.Kind)} (hsaid : List.Forall₂ Says groups (lines.map Line.sentence))
    (h : ofLines source lines = .ok board) : Reflects board groups := by
  obtain ⟨first, rest, rfl, hheader, hdeclarations⟩ := ofLines_eq_ok_iff.1 h
  obtain ⟨-, hfits, hfields⟩ := Header.ofLine_eq_ok_iff.1 hheader
  refine ⟨first.sentence, rest.map Line.sentence, hsaid, ?_, ?_⟩
  · refine carries_of_values hfits rfl ?_
    rw [hfields]
    simp [Header.fields]
  · refine List.forall₂_map_left_iff.2 (hdeclarations.imp fun line d hd => ?_)
    obtain ⟨hkeyword, hfits, hvalues⟩ := Declaration.of_ofLine hd
    exact ⟨hkeyword, carries_of_values hfits d.keys_fields hvalues⟩

/-- A text is a board exactly when its groups are grammatical, and then the board carries what
they say. -/
theorem parse_ok_iff_grammatical (source : String) :
    ((∃ board, parse source = .ok board) ↔ Grammatical (groups source)) ∧
      ∀ board, parse source = .ok board → Reflects board (groups source) := by
  refine ⟨⟨?_, ?_⟩, ?_⟩
  · intro hparse
    obtain ⟨board, h⟩ := hparse
    obtain ⟨lines, hlines, h⟩ := parse_eq_ok_iff.1 h
    exact ⟨_, says_of_parseLines hlines, areBoard_of_ofLines h⟩
  · intro hgrammatical
    obtain ⟨xs, hsaid, hboard⟩ := hgrammatical
    obtain ⟨lines, hlines⟩ := parseLines_ok_iff.2 ⟨xs, hsaid⟩
    have hxs : xs = lines.map Line.sentence :=
      List.right_unique_forall₂' (fun _ _ _ h h' => h.unique h') hsaid (says_of_parseLines hlines)
    obtain ⟨board, h⟩ := exists_ofLines source (hxs ▸ hboard)
    exact ⟨board, parse_eq_ok_iff.2 ⟨lines, hlines, h⟩⟩
  · intro board h
    obtain ⟨lines, hlines, h⟩ := parse_eq_ok_iff.1 h
    exact reflects_of_ofLines (says_of_parseLines hlines) h

end Playfield.Board
