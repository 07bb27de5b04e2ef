/-
  Playfield.Proofs.Source.Scan — how the tokens of a text follow each other.

  What one token can be is said once (`lexeme_proper`). From it, whatever the text: the end of
  input is its last token and no other, and behind a comment comes the end of a line or of the
  input (`tokens_closed`); and a token that can be a value has a text that is not empty.
-/

import Playfield.Source.Line

namespace Playfield.Source

/-! ## One token -/

/-- A value keeps its characters, a comment goes on to the end of its line, and the end of input
is no part of the text. -/
def Lexeme.Proper (lx : Lexeme) : Prop :=
  match lx.kind with
  | .name text | .integer text | .decimal text => text = String.ofList lx.text
  | .comment _ => lx.rest = [] ∨ ∃ rest, lx.rest = '\n' :: rest
  | .inputEnd => False
  | _ => True

theorem numeral_proper (sign cs : List Char) : (numeral sign cs).Proper := by
  cases h : (sign ++ unsigned cs).contains '.' with
  | true => simp only [Lexeme.Proper, numeral, h, if_true]
  | false => simp only [Lexeme.Proper, numeral, h, Bool.false_eq_true, if_false]

theorem dropWhile_ne_lineFeed (cs : List Char) :
    cs.dropWhile (· ≠ '\n') = [] ∨ ∃ rest, cs.dropWhile (· ≠ '\n') = '\n' :: rest := by
  induction cs with
  | nil => exact .inl rfl
  | cons c cs ih =>
    by_cases hc : c = '\n'
    · exact .inr ⟨cs, by simp [hc]⟩
    · rwa [List.dropWhile_cons, if_pos (by simpa using hc)]

theorem lexeme_proper (c : Char) (cs : List Char) : (lexeme c cs).Proper := by
  unfold lexeme
  split
  · trivial
  split
  · trivial
  split
  · exact dropWhile_ne_lineFeed cs
  split
  · split
    · exact numeral_proper _ _
    · trivial
  split
  · exact numeral_proper _ _
  split
  · trivial
  split
  · exact rfl
  · trivial

/-! ## All tokens -/

/-- Whether a token ends a line. -/
def Token.Kind.isEnd : Token.Kind → Bool
  | .lineEnd | .inputEnd => true
  | _ => false

/-- The end of input comes last, and comments come last in their lines. -/
inductive Closed : List Token → Prop where
  | inputEnd {t : Token} : t.kind = .inputEnd → Closed [t]
  | cons {t u : Token} {ts : List Token} : t.kind ≠ .inputEnd →
      (t.kind.isComment = true → u.kind.isEnd = true) → Closed (u :: ts) → Closed (t :: u :: ts)

theorem Closed.ne_nil {ts : List Token} (h : Closed ts) : ts ≠ [] := by
  cases h <;> exact List.cons_ne_nil _ _

theorem Closed.tail {t : Token} {ts : List Token} (h : Closed (t :: ts))
    (ht : t.kind ≠ .inputEnd := by simp) : Closed ts := by
  cases h with
  | inputEnd hend => exact absurd hend ht
  | cons _ _ hts => exact hts

theorem Closed.tail_eq_nil {t : Token} {ts : List Token} (h : Closed (t :: ts))
    (ht : t.kind = .inputEnd) : ts = [] := by
  cases h with
  | inputEnd _ => rfl
  | cons hne _ _ => exact absurd ht hne

namespace Cursor

/-- What comes next at a cursor: the end of input, or the token at the front of the text behind
the gap. -/
theorem next_cases (cur : Cursor) :
    (cur.skipGap.rest = [] ∧ cur.next.1.kind = .inputEnd) ∨
      ∃ c cs, cur.skipGap.rest = c :: cs ∧ cur.next.1.kind = (lexeme c cs).kind ∧
        cur.next.2.rest = (lexeme c cs).rest := by
  cases h : cur.skipGap.rest with
  | nil => exact .inl ⟨rfl, by simp only [next, h]⟩
  | cons c cs => exact .inr ⟨c, cs, rfl, by simp only [next, h], by simp only [next, h]⟩

theorem tokens_eq_cons (cur : Cursor) : ∃ ts, cur.tokens = cur.next.1 :: ts := by
  unfold tokens
  split
  · exact ⟨_, rfl⟩
  · exact ⟨_, rfl⟩

/-- At the end of a line or of the text the next token says so. -/
theorem next_isEnd {cur : Cursor} (h : cur.rest = [] ∨ ∃ rest, cur.rest = '\n' :: rest) :
    cur.next.1.kind.isEnd = true := by
  have hfeed : isGap '\n' = false := by decide
  rcases cur.next_cases with ⟨-, hkind⟩ | ⟨c, cs, hskip, hkind, -⟩
  · rw [hkind]
    rfl
  · unfold skipGap at hskip
    rcases h with h | ⟨rest, h⟩
    · rw [h] at hskip
      cases hskip
    · rw [h, List.dropWhile_cons, hfeed] at hskip
      cases hskip
      rw [hkind]
      rfl

theorem tokens_closed (cur : Cursor) : Closed cur.tokens := by
  fun_induction tokens cur with
  | case1 cur h =>
    rcases cur.next_cases with ⟨-, hkind⟩ | ⟨c, cs, hskip, -, -⟩
    · exact .inputEnd hkind
    · rw [h] at hskip
      cases hskip
  | case2 cur h _ ih =>
    obtain ⟨ts, hts⟩ := cur.next.2.tokens_eq_cons
    rcases cur.next_cases with ⟨hskip, -⟩ | ⟨c, cs, -, hkind, hrest⟩
    · exact absurd hskip h
    have hproper := lexeme_proper c cs
    rw [hts] at ih ⊢
    refine .cons ?_ ?_ ih
    · intro hend
      rw [Lexeme.Proper, ← hkind, hend] at hproper
      exact hproper
    · intro hcomment
      cases hk : cur.next.1.kind with
      | comment text =>
        rw [Lexeme.Proper, ← hkind, hk] at hproper
        exact next_isEnd (hrest ▸ hproper)
      | _ => rw [hk] at hcomment; cases hcomment

/-- No value has an empty text. -/
theorem text_ne_empty_of_mem_tokens {cur : Cursor} {t : Token} {l : Literal}
    (ht : t ∈ cur.tokens) (hl : t.literal? = some l) : l.text ≠ "" := by
  fun_induction tokens cur with
  | case1 cur h =>
    cases List.mem_singleton.1 ht
    rcases cur.next_cases with ⟨-, hkind⟩ | ⟨c, cs, hskip, -, -⟩
    · rw [Token.literal?, hkind] at hl
      cases hl
    · rw [h] at hskip
      cases hskip
  | case2 cur h _ ih =>
    rcases List.mem_cons.1 ht with rfl | ht
    · rcases cur.next_cases with ⟨hskip, -⟩ | ⟨c, cs, -, hkind, -⟩
      · exact absurd hskip h
      have hproper := lexeme_proper c cs
      have htext : l.text = String.ofList (lexeme c cs).text := by
        rw [Token.literal?, hkind] at hl
        unfold Lexeme.Proper at hproper
        split at hl
        · cases hl; simp_all
        · cases hl; simp_all
        · cases hl; simp_all
        · cases hl
      rw [htext]
      intro hempty
      have hnil := congrArg String.toList hempty
      rw [String.toList_ofList] at hnil
      exact lexeme_text_ne_nil c cs hnil
    · exact ih ht

end Cursor

end Playfield.Source
