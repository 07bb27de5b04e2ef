/-
  Playfield.Proofs.Source.Layout — changes of layout that leave the words of a text alone.

  The words of a text depend on its characters only, not on where a cursor stands. A character
  that can be part of no name and no number ends the token in front of it, so the words of a
  text cut there are those of the two parts (`wordsOf_append`); this is the one place where the
  look ahead of the scanner matters. Behind a `#` only a line feed cuts.

  A `Change` of layout is one more white space where words are apart already or at an equals
  sign, a comment at the end of a line, or a line feed at the end of a line. No change, in either
  direction and any number of times, touches the groups of words (`groups_eq_of_relaid`).
-/

import Mathlib.Data.List.Induction
import Mathlib.Logic.Relation
import Playfield.Proofs.Source.Grammar

namespace Playfield.Source

/-! ## Words by characters -/

/-- The words of some characters. -/
def wordsOf (cs : List Char) : List Token.Kind :=
  words (Cursor.tokens { position := {}, rest := cs })

namespace Cursor

theorem rest_skipGap (cur : Cursor) : cur.skipGap.rest = cur.rest.dropWhile isGap := rfl

theorem words_of_end {cur : Cursor} (h : cur.rest.dropWhile isGap = []) :
    words cur.tokens = [] := by
  rw [tokens, dif_pos (cur.rest_skipGap.trans h)]
  rcases cur.next_cases with ⟨-, hkind⟩ | ⟨c, cs, hskip, -⟩
  · rw [words, List.map_singleton, hkind]
    rfl
  · rw [rest_skipGap, h] at hskip
    cases hskip

theorem words_of_cons {cur : Cursor} {c : Char} {cs : List Char}
    (h : cur.rest.dropWhile isGap = c :: cs) :
    words cur.tokens = [(lexeme c cs).kind].filter (·.isWord) ++ words cur.next.2.tokens ∧
      cur.next.2.rest = (lexeme c cs).rest := by
  rcases cur.next_cases with ⟨hend, -⟩ | ⟨c', cs', hskip, hkind, hrest⟩
  · rw [rest_skipGap, h] at hend
    cases hend
  · cases (cur.rest_skipGap.trans h).symm.trans hskip
    refine ⟨?_, hrest⟩
    rw [tokens, dif_neg (by rw [hskip]; exact List.cons_ne_nil c cs), ← hkind]
    simp only [words, List.map_cons, List.filter_cons, List.filter_nil]
    split <;> rfl

theorem words_congr {cur cur' : Cursor} (h : cur.rest = cur'.rest) :
    words cur.tokens = words cur'.tokens := by
  induction hn : cur.rest.length using Nat.strong_induction_on generalizing cur cur' with
  | _ n ih =>
    cases hrest : cur.rest.dropWhile isGap with
    | nil => rw [words_of_end hrest, words_of_end (h ▸ hrest)]
    | cons c cs =>
      obtain ⟨hwords, hnext⟩ := words_of_cons hrest
      obtain ⟨hwords', hnext'⟩ := words_of_cons (h ▸ hrest : cur'.rest.dropWhile isGap = c :: cs)
      have hlt : cur.next.2.rest.length < n := by
        rw [← hn]
        exact cur.next_rest_length_lt (by rw [rest_skipGap, hrest]; exact List.cons_ne_nil c cs)
      rw [hwords, hwords', ih _ hlt (hnext.trans hnext'.symm) rfl]

/-- The words from a cursor on are those of the characters from there on. -/
theorem words_tokens (cur : Cursor) : words cur.tokens = wordsOf cur.rest :=
  words_congr rfl

end Cursor

theorem groups_eq (source : String) : groups source = pieces (wordsOf source.toList) := rfl

theorem wordsOf_of_end {cs : List Char} (h : cs.dropWhile isGap = []) : wordsOf cs = [] :=
  Cursor.words_of_end h

theorem wordsOf_of_cons {cs rest : List Char} {c : Char} (h : cs.dropWhile isGap = c :: rest) :
    wordsOf cs = [(lexeme c rest).kind].filter (·.isWord) ++ wordsOf (lexeme c rest).rest := by
  have h' : (Cursor.mk {} cs).rest.dropWhile isGap = c :: rest := h
  obtain ⟨hwords, hnext⟩ := Cursor.words_of_cons h'
  rw [wordsOf, hwords, Cursor.words_tokens, hnext]

theorem wordsOf_nil : wordsOf [] = [] :=
  wordsOf_of_end rfl

theorem wordsOf_gap {c : Char} (hc : isGap c = true) (cs : List Char) :
    wordsOf (c :: cs) = wordsOf cs := by
  have hdrop : (c :: cs).dropWhile isGap = cs.dropWhile isGap := List.dropWhile_cons_of_pos hc
  cases h : cs.dropWhile isGap with
  | nil => rw [wordsOf_of_end h, wordsOf_of_end (hdrop.trans h)]
  | cons c' rest => rw [wordsOf_of_cons h, wordsOf_of_cons (hdrop.trans h)]

theorem wordsOf_cons {c : Char} (hc : isGap c = false) (cs : List Char) :
    wordsOf (c :: cs) = [(lexeme c cs).kind].filter (·.isWord) ++ wordsOf (lexeme c cs).rest :=
  wordsOf_of_cons (List.dropWhile_cons_of_neg (by simp [hc]))

/-! ## Where a text can be cut -/

/-- The character can be no part of a name or a number, but for its first. -/
def Separates (c : Char) : Bool :=
  !isNameChar c && c != '.'

theorem takeWhile_append_cons {α : Type} {p : α → Bool} {w : α} (hw : p w = false)
    (cs b : List α) : (cs ++ w :: b).takeWhile p = cs.takeWhile p := by
  induction cs with
  | nil => exact List.takeWhile_cons_of_neg (by simp [hw])
  | cons c cs ih => cases hc : p c <;> simp [hc, ih]

theorem dropWhile_append_cons {α : Type} {p : α → Bool} {w : α} (hw : p w = false)
    (cs b : List α) : (cs ++ w :: b).dropWhile p = cs.dropWhile p ++ w :: b := by
  induction cs with
  | nil => exact List.dropWhile_cons_of_neg (by simp [hw])
  | cons c cs ih => cases hc : p c <;> simp [hc, ih]

section

variable {w : Char} {b : List Char}

theorem not_isNameChar_of_separates (hw : Separates w = true) : isNameChar w = false := by
  simp only [Separates, Bool.and_eq_true, Bool.not_eq_true'] at hw
  exact hw.1

theorem not_isDigit_of_separates (hw : Separates w = true) : w.isDigit = false := by
  have hname := not_isNameChar_of_separates hw
  simp only [isNameChar, Bool.or_eq_false_iff] at hname
  exact hname.2

theorem ne_point_of_separates (hw : Separates w = true) : w ≠ '.' := by
  simp only [Separates, Bool.and_eq_true, bne_iff_ne] at hw
  exact hw.2

theorem startsNumber_cons {c : Char} (hc : c ≠ '.') (cs : List Char) :
    startsNumber (c :: cs) = c.isDigit := by
  unfold startsNumber
  split
  · next heq => exact absurd (List.cons.inj heq).1 hc
  · next heq => rw [(List.cons.inj heq).1]
  · next heq => cases heq

theorem startsNumber_append (hw : Separates w = true) (cs : List Char) :
    startsNumber (cs ++ w :: b) = startsNumber cs := by
  have hdigit := not_isDigit_of_separates hw
  have hpoint := ne_point_of_separates hw
  cases cs with
  | nil => rw [List.nil_append, startsNumber_cons hpoint, hdigit, startsNumber]
  | cons c cs =>
    by_cases hc : c = '.'
    · cases cs with
      | nil => rw [hc, List.singleton_append, startsNumber, hdigit]; rfl
      | cons c' cs => rw [hc]; rfl
    · rw [List.cons_append, startsNumber_cons hc, startsNumber_cons hc]

theorem unsigned_append (hw : Separates w = true) (cs : List Char) :
    unsigned (cs ++ w :: b) = unsigned cs ∧
      afterUnsigned (cs ++ w :: b) = afterUnsigned cs ++ w :: b := by
  have hdigit := not_isDigit_of_separates hw
  have hpoint := ne_point_of_separates hw
  unfold unsigned afterUnsigned
  rw [takeWhile_append_cons hdigit, dropWhile_append_cons hdigit]
  rcases cs.dropWhile Char.isDigit with _ | ⟨c, rest⟩
  · simp [hpoint]
  · by_cases hc : c = '.'
    · simp [hc, takeWhile_append_cons hdigit, dropWhile_append_cons hdigit]
    · simp [hc]

theorem numeral_append (hw : Separates w = true) (sign cs : List Char) :
    numeral sign (cs ++ w :: b) =
      { numeral sign cs with rest := (numeral sign cs).rest ++ w :: b } := by
  obtain ⟨htext, hrest⟩ := unsigned_append (b := b) hw cs
  simp only [numeral, htext, hrest]

/-- A token ends in front of the character, and what it is does not hang on what follows there. A
comment ends in front of a line feed only. -/
theorem lexeme_append (hw : Separates w = true) {c : Char} (hc : c = '#' → w = '\n')
    (cs : List Char) :
    lexeme c (cs ++ w :: b) = { lexeme c cs with rest := (lexeme c cs).rest ++ w :: b } := by
  have hname := not_isNameChar_of_separates hw
  have hstart : startsNumber (c :: (cs ++ w :: b)) = startsNumber (c :: cs) :=
    startsNumber_append hw (c :: cs)
  have hnumeral : numeral [] (c :: (cs ++ w :: b)) =
      { numeral [] (c :: cs) with rest := (numeral [] (c :: cs)).rest ++ w :: b } :=
    numeral_append hw [] (c :: cs)
  unfold lexeme
  split
  · rfl
  split
  · rfl
  split
  · next hcomment =>
    have hfeed := hc hcomment
    rw [takeWhile_append_cons (p := (· ≠ '\n')) (by simp [hfeed]),
      dropWhile_append_cons (p := (· ≠ '\n')) (by simp [hfeed])]
  split
  · rw [startsNumber_append hw]
    split
    · exact numeral_append hw [c] cs
    · rfl
  rw [hstart]
  split
  · exact hnumeral
  split
  · rfl
  split
  · rw [takeWhile_append_cons hname, dropWhile_append_cons hname]
  · rfl

/-- The words of a text that is cut in front of the character. -/
theorem wordsOf_append (hw : Separates w = true) {a : List Char} (ha : '#' ∈ a → w = '\n') :
    wordsOf (a ++ w :: b) = wordsOf a ++ wordsOf (w :: b) := by
  induction hn : a.length using Nat.strong_induction_on generalizing a with
  | _ n ih =>
    cases a with
    | nil => rw [wordsOf_nil, List.nil_append, List.nil_append]
    | cons c cs =>
      cases hc : isGap c with
      | true =>
        rw [List.cons_append, wordsOf_gap hc, wordsOf_gap hc]
        exact ih cs.length (by rw [← hn]; exact Nat.lt_succ_self _)
          (fun hmem => ha (List.mem_cons_of_mem c hmem)) rfl
      | false =>
        have hlt := lexeme_rest_length_lt c cs
        have hsub : (lexeme c cs).rest ⊆ c :: cs := by
          rw [← lexeme_text_append_rest c cs]
          exact List.subset_append_right _ _
        rw [List.cons_append, wordsOf_cons hc, wordsOf_cons hc,
          lexeme_append hw fun h => ha (h ▸ List.mem_cons_self), List.append_assoc,
          ih _ (hn ▸ hlt) (fun hmem => ha (hsub hmem)) rfl]

end

/-! ## Lines and comments -/

theorem wordsOf_feed (a b : List Char) :
    wordsOf (a ++ '\n' :: b) = wordsOf a ++ .lineEnd :: wordsOf b := by
  rw [wordsOf_append (by decide) fun _ => rfl, wordsOf_cons (by decide)]
  rfl

theorem wordsOf_comment (cs : List Char) :
    wordsOf ('#' :: cs) = wordsOf (cs.dropWhile (· ≠ '\n')) :=
  wordsOf_cons (by decide) cs

theorem wordsOf_equals (cs : List Char) : wordsOf ('=' :: cs) = .equals :: wordsOf cs :=
  wordsOf_cons (by decide) cs

/-- Within a comment nothing is a word up to the next line feed. -/
theorem wordsOf_open {l : List Char} (hhash : '#' ∈ l) (hfeed : '\n' ∉ l) (b : List Char) :
    wordsOf (l ++ b) = wordsOf l ++ wordsOf (b.dropWhile (· ≠ '\n')) := by
  obtain ⟨p, q, rfl, hp⟩ := List.eq_append_cons_of_mem hhash
  have hq : ∀ c ∈ q, decide (c ≠ '\n') = true := by
    intro c hc
    rw [decide_eq_true_eq]
    rintro rfl
    exact hfeed (by simp [hc])
  have hp' : '#' ∈ p → '#' = '\n' := fun hmem => absurd hmem hp
  rw [List.append_assoc, List.cons_append, wordsOf_append (by decide) hp',
    wordsOf_append (by decide) hp', wordsOf_comment, wordsOf_comment,
    List.dropWhile_append_of_pos hq, List.dropWhile_eq_nil_iff.2 hq, wordsOf_nil,
    List.append_nil]

/-- A line begins behind the text. -/
def StartsLine (a : List Char) : Prop :=
  a = [] ∨ ∃ a', a = a' ++ ['\n']

/-- The text begins with the end of a line. -/
def EndsLine (b : List Char) : Prop :=
  b = [] ∨ ∃ b', b = '\n' :: b'

theorem wordsOf_lines {a : List Char} (ha : StartsLine a) (b : List Char) :
    wordsOf (a ++ b) = wordsOf a ++ wordsOf b := by
  rcases ha with rfl | ⟨a, rfl⟩
  · rw [wordsOf_nil, List.nil_append, List.nil_append]
  · rw [List.append_assoc, List.singleton_append, wordsOf_feed, wordsOf_feed, wordsOf_nil,
      List.append_assoc, List.singleton_append]

theorem exists_lines_append (a : List Char) : ∃ u l, a = u ++ l ∧ StartsLine u ∧ '\n' ∉ l := by
  induction a using List.reverseRecOn with
  | nil => exact ⟨[], [], rfl, .inl rfl, List.not_mem_nil⟩
  | append_singleton a c ih =>
    by_cases hc : c = '\n'
    · exact ⟨a ++ [c], [], by simp, .inr ⟨a, by rw [hc]⟩, List.not_mem_nil⟩
    · obtain ⟨u, l, rfl, hu, hl⟩ := ih
      exact ⟨u, l ++ [c], by simp, hu, by simp [hl, Ne.symm hc]⟩

/-! ## Changes of layout -/

/-- White space may stand between the two stretches of text: it stands there already, or one of
them is empty, or they meet at an equals sign or in front of a comment. -/
inductive Apart : List Char → List Char → Prop where
  | first (b : List Char) : Apart [] b
  | last (a : List Char) : Apart a []
  | behind (a b : List Char) {w : Char} : Text.isBlank w = true ∨ w = '=' → Apart (a ++ [w]) b
  | before (a b : List Char) {w : Char} :
      Text.isBlank w = true ∨ w = '=' ∨ w = '#' → Apart a (w :: b)

/-- One more white space, one more comment at the end of a line, or one more end of a line where
a line begins or ends. -/
inductive Change : List Char → List Char → Prop where
  | space {a b : List Char} {g : Char} : Apart a b → isGap g = true → Change (a ++ b) (a ++ g :: b)
  | comment {a b text : List Char} : '\n' ∉ text → EndsLine b →
      Change (a ++ b) (a ++ '#' :: (text ++ b))
  | line {a b : List Char} : StartsLine a ∨ EndsLine b → Change (a ++ b) (a ++ '\n' :: b)

/-- One text comes from the other by changes of layout, made or taken back. -/
def Relaid (s t : String) : Prop :=
  Relation.EqvGen Change s.toList t.toList

theorem separates_of_isBlank {w : Char} (hw : Text.isBlank w = true) : Separates w = true := by
  have hpoint : w ≠ '.' := by
    rintro rfl
    cases hw
  have hunderscore : w ≠ '_' := by
    rintro rfl
    cases hw
  have hnat : w.val.toNat = w.toNat := rfl
  simp only [Text.isBlank, Bool.or_eq_true, Bool.and_eq_true, decide_eq_true_eq, beq_iff_eq] at hw
  have hupper : w.isUpper = decide (w.val ≥ 65 ∧ w.val ≤ 90) := rfl
  have hlower : w.isLower = (decide (w.val ≥ 97) && decide (w.val ≤ 122)) := rfl
  have halpha : w.isAlpha = (w.isUpper || w.isLower) := rfl
  simp only [Separates, isNameChar, isNameStart, halpha, hupper, hlower, Char.isDigit,
    Bool.and_eq_true, Bool.not_eq_true', Bool.or_eq_false_iff, Bool.and_eq_false_iff,
    decide_eq_false_iff_not, bne_iff_ne, beq_eq_false_iff_ne, ge_iff_le, UInt32.le_iff_toNat_le,
    hnat, Char.reduceVal, UInt32.reduceToNat]
  exact ⟨⟨⟨⟨by omega, by omega⟩, hunderscore⟩, by omega⟩, hpoint⟩

/-- A character in front of which white space may stand. -/
theorem separates_of_apart {w : Char} (hw : Text.isBlank w = true ∨ w = '=' ∨ w = '#') :
    Separates w = true := by
  rcases hw with hw | rfl | rfl
  · exact separates_of_isBlank hw
  · decide
  · decide

theorem wordsOf_apart {a b : List Char} (h : Apart a b) (ha : '#' ∉ a) :
    wordsOf (a ++ b) = wordsOf a ++ wordsOf b := by
  cases h with
  | first b => rw [wordsOf_nil, List.nil_append, List.nil_append]
  | last a => rw [wordsOf_nil, List.append_nil, List.append_nil]
  | before a b hw => exact wordsOf_append (separates_of_apart hw) fun hmem => absurd hmem ha
  | @behind a b w hw =>
    have hsep : Separates w = true := separates_of_apart (hw.imp_right .inl)
    have ha' : '#' ∈ a → w = '\n' := fun hmem => absurd (List.mem_append_left _ hmem) ha
    have hone : wordsOf (w :: b) = wordsOf [w] ++ wordsOf b := by
      rcases hw with hw | rfl
      · by_cases hfeed : w = '\n'
        · rw [hfeed]
          exact wordsOf_lines (.inr ⟨[], rfl⟩) b
        · have hgap : isGap w = true := by simp [isGap, hw, hfeed]
          rw [wordsOf_gap hgap, wordsOf_gap hgap, wordsOf_nil, List.nil_append]
      · rw [wordsOf_equals, wordsOf_equals, wordsOf_nil, List.singleton_append]
    rw [List.append_assoc, List.singleton_append, wordsOf_append hsep ha', hone,
      wordsOf_append hsep ha', List.append_assoc]

theorem Apart.of_append {u l b : List Char} (h : Apart (u ++ l) b) : Apart l b := by
  rcases List.eq_nil_or_concat' l with rfl | ⟨l, c, rfl⟩
  · exact .first b
  · generalize ha : u ++ (l ++ [c]) = a at h
    cases h with
    | first b => simp at ha
    | last a => exact .last _
    | before a b hw => exact .before _ _ hw
    | behind a b hw =>
      rw [← List.append_assoc] at ha
      obtain ⟨-, hc⟩ := List.append_inj' ha rfl
      cases hc
      exact .behind l b hw

/-- What says nothing can be put where white space may stand. -/
theorem wordsOf_insert {a b x : List Char} {w : Char} (h : Apart a b) (hw : Separates w = true)
    (hwords : wordsOf (w :: x) = wordsOf b)
    (hdrop : (w :: x).dropWhile (· ≠ '\n') = b.dropWhile (· ≠ '\n')) :
    wordsOf (a ++ w :: x) = wordsOf (a ++ b) := by
  obtain ⟨u, l, rfl, hu, hl⟩ := exists_lines_append a
  rw [List.append_assoc, List.append_assoc, wordsOf_lines hu, wordsOf_lines hu]
  by_cases hhash : '#' ∈ l
  · rw [wordsOf_open hhash hl, wordsOf_open hhash hl, hdrop]
  · rw [wordsOf_append hw fun hmem => absurd hmem hhash, wordsOf_apart h.of_append hhash, hwords]

theorem EndsLine.apart {b : List Char} (hb : EndsLine b) (a : List Char) : Apart a b := by
  rcases hb with rfl | ⟨b, rfl⟩
  · exact .last a
  · exact .before a b (.inl (by decide))

theorem EndsLine.dropWhile_eq {b : List Char} (hb : EndsLine b) :
    b.dropWhile (· ≠ '\n') = b := by
  rcases hb with rfl | ⟨b, rfl⟩
  · rfl
  · exact List.dropWhile_cons_of_neg (by simp)

theorem pieces_append (ks ks' : List Token.Kind) :
    pieces (ks ++ .lineEnd :: ks') = pieces ks ++ pieces ks' := by
  induction hn : ks.length using Nat.strong_induction_on generalizing ks with
  | _ n ih =>
    cases ks with
    | nil => exact pieces_lineEnd ks'
    | cons k ks =>
      by_cases hk : k = .lineEnd
      · rw [hk, List.cons_append, pieces_lineEnd, pieces_lineEnd]
        exact ih ks.length (by rw [← hn]; exact Nat.lt_succ_self _) ks rfl
      · have hlt : (laterWords ks).length < n := by
          rw [← hn]
          exact Nat.lt_succ_of_le (List.dropWhile_suffix _).length_le
        rw [List.cons_append, pieces_cons hk, pieces_cons hk, firstWords, laterWords,
          takeWhile_append_cons (p := (· ≠ Token.Kind.lineEnd)) (by simp),
          dropWhile_append_cons (p := (· ≠ Token.Kind.lineEnd)) (by simp), List.cons_append]
        exact congrArg _ (ih _ hlt _ rfl)

/-- A line feed where a line begins or ends adds no group. -/
theorem pieces_insert_feed {a b : List Char} (h : StartsLine a ∨ EndsLine b) :
    pieces (wordsOf (a ++ '\n' :: b)) = pieces (wordsOf (a ++ b)) := by
  rw [wordsOf_feed, pieces_append]
  rcases h with (rfl | ⟨a, rfl⟩) | (rfl | ⟨b, rfl⟩)
  · rw [wordsOf_nil, List.nil_append]
    rfl
  · rw [List.append_assoc, List.singleton_append, wordsOf_feed, wordsOf_feed, pieces_append,
      pieces_append, wordsOf_nil]
    simp [pieces]
  · rw [wordsOf_nil, List.append_nil]
    exact List.append_nil _
  · rw [wordsOf_feed, pieces_append, ← List.nil_append ('\n' :: b), wordsOf_feed, wordsOf_nil,
      List.nil_append, pieces_lineEnd]

theorem pieces_of_change {cs cs' : List Char} (h : Change cs cs') :
    pieces (wordsOf cs) = pieces (wordsOf cs') := by
  cases h with
  | @space a b g hapart hg =>
    have hfeed : g ≠ '\n' := by
      rintro rfl
      cases hg
    have hblank : Text.isBlank g = true := by
      rw [isGap, Bool.and_eq_true] at hg
      exact hg.1
    rw [wordsOf_insert hapart (separates_of_isBlank hblank) (wordsOf_gap hg b)]
    exact List.dropWhile_cons_of_pos (by simpa using hfeed)
  | @comment a b text htext hb =>
    have hskip : (text ++ b).dropWhile (· ≠ '\n') = b := by
      rw [List.dropWhile_append_of_pos, hb.dropWhile_eq]
      intro c hc
      rw [decide_eq_true_eq]
      rintro rfl
      exact htext hc
    rw [wordsOf_insert (hb.apart a) (by decide)]
    · rw [wordsOf_comment, hskip]
    · rw [List.dropWhile_cons_of_pos (by decide), hskip, hb.dropWhile_eq]
  | line h => exact (pieces_insert_feed h).symm

/-- Changes of layout keep the groups of words. -/
theorem groups_eq_of_relaid {s t : String} (h : Relaid s t) : groups s = groups t := by
  have hpieces {cs cs' : List Char} (h : Relation.EqvGen Change cs cs') :
      pieces (wordsOf cs) = pieces (wordsOf cs') := by
    induction h with
    | rel _ _ h => exact pieces_of_change h
    | refl _ => rfl
    | symm _ _ _ ih => exact ih.symm
    | trans _ _ _ _ _ ih ih' => exact ih.trans ih'
  rw [groups_eq, groups_eq]
  exact hpieces h

end Playfield.Source
