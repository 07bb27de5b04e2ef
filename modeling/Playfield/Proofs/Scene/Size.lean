/-
  Playfield.Proofs.Scene.Size — a scene is no larger than the text that it was built from.

  The tokens of a text are stretches of it, one behind the other. So a board has no more
  declarations than its text has bytes, and no literal in it is longer than the text
  (`atMost_of_parse`). A declaration puts at most one gadget or ball into a draft, named by one
  of its literals (`Applies.holds`), and the wiring speaks of the gadgets only. A scene that is
  built from a text whose bytes can be counted in 32 bits is therefore short, and can be packed
  (`short_of_ofText`).
-/

import Playfield.Proofs.Board.Location
import Playfield.Proofs.Packed.Scene
import Playfield.Proofs.Scene.Depiction

namespace Playfield

open Board (Declaration Header)
open Source (Literal Line Spells Token)
open String (utf8Len)

/-! ## Literals and declarations of a text -/

namespace Source

theorem toList_of_literal? {t : Token} {l : Literal} {text : List Char}
    (h : Spells t.kind text) (hl : t.literal? = some l) : l.text.toList = text := by
  obtain ⟨kind, s⟩ := t
  cases h with
  | name text => cases hl; exact String.toList_ofList
  | integer text => cases hl; exact String.toList_ofList
  | decimal text => cases hl; exact String.toList_ofList
  | _ => cases hl

/-- Every line takes at least its keyword from the tokens. -/
theorem readLines_length_le (ts : List Token) : (readLines ts).lines.length ≤ ts.length := by
  fun_induction readLines ts with
  | case1 => exact Nat.le_refl 0
  | case2 => exact Nat.zero_le _
  | case3 text s ts ih => exact Nat.le_succ_of_le ih
  | case4 s ts ih => exact Nat.le_succ_of_le ih
  | case5 => exact Nat.zero_le _
  | case6 keyword s ts fields rest _ hrest _ ih =>
    exact Nat.succ_le_succ (Nat.le_trans ih hrest)
  | case7 => exact Nat.zero_le _

theorem length_le_utf8Len (cs : List Char) : cs.length ≤ utf8Len cs := by
  induction cs with
  | nil => exact Nat.le_refl 0
  | cons c cs ih =>
    have hpos := c.utf8Size_pos
    rw [List.length_cons, String.utf8Len_cons]
    omega

/-- A text has at most one line more than bytes. -/
theorem read_length_le (source : String) :
    (read source).lines.length ≤ source.utf8ByteSize + 1 := by
  have hlines := readLines_length_le (tokens source)
  have htokens := (tiles_tokens source).length_le
  have hchars := length_le_utf8Len source.toList
  rw [String.utf8Len_toList] at hchars
  show (readLines (tokens source)).lines.length ≤ _
  omega

/-- A value is not longer than the text that it is read from. -/
theorem size_of_value?_le {source : String} {line : Line} {key : String} {l : Literal}
    (hline : line ∈ (read source).lines) (hl : line.value? key = some l) :
    l.text.utf8ByteSize ≤ source.utf8ByteSize := by
  obtain ⟨f, hf, rfl⟩ := Option.map_eq_some_iff.1 hl
  obtain ⟨t, ht, hvalue⟩ := mem_of_readLines hline (List.mem_of_find?_eq_some hf)
  obtain ⟨front, text, after, hsource, hstands⟩ := (tiles_tokens source).exists_stands ht
  have htext := toList_of_literal? hstands.spells hvalue
  rw [← String.utf8Len_toList, ← String.utf8Len_toList, htext, hsource]
  simp only [String.utf8Len_append]
  omega

end Source

namespace Board

/-- The board has at most `n` declarations, and none of its literals has more bytes. -/
structure AtMost (board : Board) (n : Nat) : Prop where
  count : board.declarations.length ≤ n
  headerFields : ∀ key l, (key, some l) ∈ board.header.fields → l.text.utf8ByteSize ≤ n
  fields : ∀ x ∈ board.declarations, ∀ key l, (key, some l) ∈ x.fields → l.text.utf8ByteSize ≤ n

theorem atMost_of_parse {source : String} {board : Board} (h : parse source = .ok board) :
    board.AtMost source.utf8ByteSize := by
  obtain ⟨first, rest, hread, hheader, hdeclarations⟩ := exists_lines_of_parse h
  refine ⟨?_, fun key l hl => ?_, fun x hx key l hl => ?_⟩
  · have hlength := Source.read_length_le source
    rw [hread, List.length_cons] at hlength
    rw [← hdeclarations.length_eq]
    omega
  · have hfirst : first ∈ (Source.read source).lines := hread ▸ List.mem_cons_self
    exact Source.size_of_value?_le hfirst (Header.of_ofLine hheader _ hl)
  · obtain ⟨line, hline, hx⟩ :=
      exists_of_mem_forall₂ (R := fun line d => Declaration.ofLine line = .ok d) hdeclarations hx
    have hmem : line ∈ (Source.read source).lines := hread ▸ List.mem_cons_of_mem first hline
    obtain ⟨-, -, hvalues⟩ := Declaration.of_ofLine hx
    exact Source.size_of_value?_le hmem (hvalues _ hl)

/-- The literals of the declaration have bytes that can be counted in 32 bits. -/
def Declaration.Short (x : Declaration) : Prop :=
  ∀ key l, (key, some l) ∈ x.fields → Text.Short l.text

end Board

/-! ## Drafts -/

namespace Draft

/-- The draft holds at most `n` gadgets and as many balls, all with short names. -/
structure Holds (d : Draft) (n : Nat) : Prop where
  gadgetCount : d.registry.size ≤ n
  gadgets : ∀ name g, d.registry.get? name = some g → Text.Short g.name
  ballCount : d.balls.length ≤ n
  balls : ∀ b ∈ d.balls, Text.Short b.name

theorem holds_empty : ({} : Draft).Holds 0 where
  gadgetCount := Nat.le_refl 0
  gadgets _ _ h := nomatch h
  ballCount := Nat.le_refl 0
  balls _ h := nomatch h

variable {d d' : Draft} {n : Nat} {x : Declaration}

theorem Holds.mono (hd : d.Holds n) : d.Holds (n + 1) :=
  { hd with
    gadgetCount := Nat.le_succ_of_le hd.gadgetCount
    ballCount := Nat.le_succ_of_le hd.ballCount }

/-- One more declaration is at most one gadget or ball more. -/
theorem Applies.holds (hx : x.Short) (hd : d.Holds n) (h : Applies d x d') :
    d'.Holds (n + 1) := by
  cases h with
  | @gadget _ g hg _ =>
    have hname : Text.Short g.name := by
      cases hg
      exact hx "name" _ (by simp [Declaration.fields])
    refine ⟨?_, fun name g' hg' => ?_, hd.mono.ballCount, hd.balls⟩
    · exact Nat.le_trans (NameMap.size_insert_le _ _ _) (Nat.succ_le_succ hd.gadgetCount)
    · rw [Registry.get?_insert] at hg'
      split at hg'
      · cases hg'
        exact hname
      · exact hd.gadgets name g' hg'
  | @ball _ b hb =>
    have hname : Text.Short b.name := by
      cases hb
      exact hx "name" _ (by simp [Declaration.fields])
    refine ⟨hd.mono.gadgetCount, hd.gadgets, ?_, fun b' hb' => ?_⟩
    · rw [List.length_append]
      exact Nat.succ_le_succ hd.ballCount
    · rcases List.mem_append.1 hb' with hb' | hb'
      · exact hd.balls b' hb'
      · cases List.mem_singleton.1 hb'
        exact hname
  | fire span _ _ => exact { hd.mono with }

/-- A walk puts in at most as many gadgets and balls as there are declarations. -/
theorem performEach_holds {declarations : List Declaration} (h : ∀ x ∈ declarations, x.Short)
    (hd : d.Holds n) : (d.performEach declarations).Holds (n + declarations.length) := by
  induction declarations generalizing d n with
  | nil => exact hd
  | cons x declarations ih =>
    obtain ⟨hx, hrest⟩ := List.forall_mem_cons.1 h
    have hafter : (d.after (perform x)).Holds (n + 1) := by
      rcases d.after_perform x with hsame | happlies
      · rw [hsame]
        exact hd.mono
      · exact happlies.holds hx hd
    have hall := ih hrest hafter
    rwa [Nat.add_assoc, Nat.add_comm 1, ← List.length_cons] at hall

/-! ## Scenes -/

/-- A sound draft that holds few things with short names makes a short scene. -/
theorem Sound.short_of_holds (hd : d.Sound) (hn : d.Holds n) (hlt : n < 2 ^ 32)
    {settings : Settings} {header : Header} {s : Scene}
    (hheader : ∀ l, header.name = some l → Text.Short l.text)
    (h : d.finish settings header = .ok s) : s.Short := by
  obtain ⟨hheads, hregistry, hwiring, hballs⟩ := finish_eq_ok_iff.1 h
  obtain ⟨l, hl, hname⟩ := hheads.name
  have hcount : d.registry.size < 2 ^ 32 := Nat.lt_of_le_of_lt hn.gadgetCount hlt
  have hregistered {name : String} (hname : d.registry.contains name = true) : Text.Short name := by
    obtain ⟨g, hg⟩ := Option.isSome_iff_exists.1 hname
    exact hd.named name g hg ▸ hn.gadgets name g hg
  constructor
  case name => exact hname ▸ hheader l hl
  case gadgetCount => exact hregistry ▸ hcount
  case gadgets =>
    rw [hregistry]
    intro name g hg
    exact ⟨hregistered (NameMap.contains_of_get? hg), hn.gadgets name g hg⟩
  case nodeCount =>
    have hsize : d.wiring.targets.size = d.registry.gadgets.size :=
      NameMap.size_eq_of_contains_iff hd.entries
    rw [hwiring, Wiring.nodeCount, hsize]
    exact hcount
  case nodes =>
    rw [hwiring]
    intro name targets htargets
    have hin : ∀ target ∈ targets.names, d.registry.contains target = true := by
      intro target htarget
      have hedge := Wiring.hasEdge_iff.2 ⟨targets, htargets, NameMap.mem_names.1 htarget⟩
      exact hd.targets name target hedge
    refine ⟨hregistered ((hd.entries name).1 (NameMap.contains_of_get? htargets)), ?_,
      fun target htarget => hregistered (hin target htarget)⟩
    exact Nat.lt_of_le_of_lt (NameMap.size_le_of_contains hin) hcount
  case ballCount => exact hballs ▸ Nat.lt_of_le_of_lt hn.ballCount hlt
  case balls => exact hballs ▸ hn.balls

end Draft

namespace Scene

/-- A scene that is built from a text of less than four gigabytes can be packed. -/
theorem short_of_ofText {settings : Settings} {text : String} {s : Scene}
    (hsize : text.utf8ByteSize < 2 ^ 32) (h : ofText settings text = .ok s) : s.Short := by
  obtain ⟨board, hboard, h⟩ := bind_eq_ok_iff.1 h
  obtain ⟨d, hd, h⟩ := bind_eq_ok_iff.1 h
  obtain ⟨hcount, hheader, hfields⟩ := Board.atMost_of_parse hboard
  have hshort : ∀ x ∈ board.declarations, x.Short := fun x hx key l hl =>
    Nat.lt_of_le_of_lt (hfields x hx key l hl) hsize
  have hholds := Draft.performEach_holds hshort Draft.holds_empty
  have hsound := Draft.performEach_sound Draft.sound_empty board.declarations
  rw [Draft.performEach_of_applyAll hd] at hholds hsound
  refine hsound.short_of_holds hholds (by omega) (fun l hl => ?_) h
  exact Nat.lt_of_le_of_lt (hheader "name" l (by simp [Header.fields, hl])) hsize

end Scene

end Playfield
