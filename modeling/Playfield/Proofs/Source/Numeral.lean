/-
  Playfield.Proofs.Source.Numeral — what the numbers of a text are worth.

  The digits of a number count ones, tens, hundreds from the last one back, and tenths,
  hundredths from the point on; a minus sign in front turns the sum around (`integerValue`,
  `decimalValue`). A reader sums up differently: it takes the digits from the front, multiplies
  by ten at each, and divides by a power of ten at the end. Both come to the same for every word
  of the number classes (`exists_digits_of_mem_integerClass`, `exists_numeral_of_mem_numberClass`).
  The numbers that stand in texts are these words, all of them (`Literal.Scanned.mem`,
  `exists_scanned`).
-/

import Mathlib.Algebra.Order.Field.Rat
import Mathlib.Data.Nat.Digits.Defs
import Mathlib.Tactic.FieldSimp
import Mathlib.Tactic.Ring
import Playfield.Proofs.Source.Munch
import Playfield.Text.Numeral

namespace Playfield

/-! ## Digits -/

namespace Text

/-- What the digits of a whole number are worth. The last one counts ones, the one in front of it
tens. -/
def wholeValue (ds : List Char) : Nat :=
  Nat.ofDigits 10 (ds.reverse.map digitValue)

/-- What the digits behind a point are worth. The first one counts tenths, the next one
hundredths. -/
def fractionValue (ds : List Char) : ℚ :=
  Nat.ofDigits (1 / 10 : ℚ) (0 :: ds.map digitValue)

/-- What a number without a sign is worth. -/
def unsignedValue (w : List Char) : ℚ :=
  wholeValue (w.takeWhile (· != '.')) + fractionValue (w.dropWhile (· != '.')).tail

/-- What a whole number is worth, behind a minus sign or not. -/
def integerValue : List Char → Int
  | '-' :: ds => -wholeValue ds
  | ds => wholeValue ds

/-- What a number is worth, behind a minus sign or not. -/
def decimalValue : List Char → ℚ
  | '-' :: w => -unsignedValue w
  | w => unsignedValue w

theorem wholeValue_append (ds es : List Char) :
    wholeValue (ds ++ es) = wholeValue ds * 10 ^ es.length + wholeValue es := by
  rw [wholeValue, List.reverse_append, List.map_append, Nat.ofDigits_append, List.length_map,
    List.length_reverse, wholeValue, wholeValue]
  ring

theorem wholeValue_singleton (c : Char) : wholeValue [c] = digitValue c := by
  simp [wholeValue]

/-- Taking the digits from the front gives what they are worth. -/
theorem digitsValue_eq (ds : List Char) : digitsValue ds = wholeValue ds := by
  induction ds using List.reverseRecOn with
  | nil => rfl
  | append_singleton ds c ih =>
    rw [wholeValue_append, wholeValue_singleton, ← ih, digitsValue, List.foldl_concat,
      List.length_singleton, pow_one, Nat.mul_comm]
    rfl

theorem fractionValue_eq (es : List Char) : fractionValue es = wholeValue es / 10 ^ es.length := by
  induction es with
  | nil =>
    simp only [fractionValue, wholeValue, List.map_nil, List.reverse_nil, Nat.ofDigits]
    norm_num
  | cons e es ih =>
    have hstep : fractionValue (e :: es) = (digitValue e + fractionValue es) / 10 := by
      simp only [fractionValue, List.map_cons, Nat.ofDigits]
      push_cast
      ring
    have hwhole : wholeValue (e :: es) = digitValue e * 10 ^ es.length + wholeValue es := by
      rw [← wholeValue_singleton, ← wholeValue_append]
      rfl
    have hpos : (10 : ℚ) ^ es.length ≠ 0 := by positivity
    rw [hstep, ih, hwhole, List.length_cons, pow_succ]
    push_cast
    field_simp

section

variable {ds es : List Char}

theorem ne_point_of_digits (hds : ∀ c ∈ ds, c.isDigit = true) : ∀ c ∈ ds, (c != '.') = true := by
  intro c hc
  rw [bne_iff_ne]
  intro hpoint
  rw [hpoint] at hc
  exact absurd (hds '.' hc) (by decide)

theorem unsignedValue_of_digits (hds : ∀ c ∈ ds, c.isDigit = true) :
    unsignedValue ds = wholeValue ds := by
  have htake := List.takeWhile_eq_self_iff.2 (ne_point_of_digits hds)
  have hdrop := List.dropWhile_eq_nil_iff.2 (ne_point_of_digits hds)
  rw [unsignedValue, htake, hdrop, List.tail_nil, fractionValue_eq]
  simp [wholeValue]

theorem unsignedValue_of_point (hds : ∀ c ∈ ds, c.isDigit = true) :
    unsignedValue (ds ++ '.' :: es) = wholeValue (ds ++ es) / 10 ^ es.length := by
  have htake : (ds ++ '.' :: es).takeWhile (· != '.') = ds := by
    rw [List.takeWhile_append_of_pos (ne_point_of_digits hds)]
    simp
  have hdrop : (ds ++ '.' :: es).dropWhile (· != '.') = '.' :: es := by
    rw [List.dropWhile_append_of_pos (ne_point_of_digits hds)]
    simp
  rw [unsignedValue, htake, hdrop, List.tail_cons, fractionValue_eq, wholeValue_append]
  push_cast
  field_simp

end

/-! ## Numerals -/

/-- What a numeral is worth. -/
def Numeral.value (n : Numeral) : ℚ :=
  if n.negative then -(n.digits / 10 ^ n.places) else n.digits / 10 ^ n.places

section

variable {w : List Char}

theorem splitSign_of_ne (h : w.head? ≠ some '-') : splitSign w = (false, w) := by
  unfold splitSign
  split
  · exact absurd rfl h
  · rfl

theorem integerValue_of_ne (h : w.head? ≠ some '-') : integerValue w = wholeValue w := by
  unfold integerValue
  split
  · exact absurd rfl h
  · rfl

theorem decimalValue_of_ne (h : w.head? ≠ some '-') : decimalValue w = unsignedValue w := by
  unfold decimalValue
  split
  · exact absurd rfl h
  · rfl

end

end Text

/-! ## Words of the number classes -/

namespace Source

open Text

variable {w u : List Char}

theorem head?_ne_minus_of_digits (hw : ∀ c ∈ w, c.isDigit = true) : w.head? ≠ some '-' := by
  intro h
  exact absurd (hw '-' (List.mem_of_mem_head? h)) (by decide)

theorem head?_ne_minus_of_mem (hu : u ∈ unsignedClass) : u.head? ≠ some '-' := by
  intro h
  obtain ⟨cs, rfl⟩ : ∃ cs, u = '-' :: cs := ⟨_, List.eq_cons_of_mem_head? h⟩
  exact not_prefix_minus hu List.prefix_rfl

/-- An integer is digits behind a minus sign or not, and worth what they are on its side of
zero. -/
theorem exists_digits_of_mem_integerClass (hw : w ∈ integerClass) :
    ∃ negative ds, splitSign w = (negative, ds) ∧ ds ≠ [] ∧ (∀ c ∈ ds, c.isDigit = true) ∧
      integerValue w = if negative then -(digitsValue ds : Int) else digitsValue ds := by
  obtain ⟨s, hs, ds, hds, rfl⟩ := Language.mem_mul.1 hw
  obtain ⟨hne, hdigits⟩ := mem_digits.1 hds
  rcases hs with rfl | rfl
  · have hhead := head?_ne_minus_of_digits hdigits
    refine ⟨false, ds, splitSign_of_ne hhead, hne, hdigits, ?_⟩
    rw [digitsValue_eq]
    exact integerValue_of_ne hhead
  · refine ⟨true, ds, rfl, hne, hdigits, ?_⟩
    rw [digitsValue_eq]
    rfl

/-- A number without its sign is read as what it is worth. -/
theorem exists_numeral_of_mem_unsignedClass {negative : Bool}
    (hw : splitSign w = (negative, u)) (hu : u ∈ unsignedClass) :
    ∃ n, readNumeral? w = some n ∧ n.negative = negative ∧
      (n.digits / 10 ^ n.places : ℚ) = unsignedValue u := by
  have hpoint : Char.isDigit '.' = false := rfl
  rcases mem_unsignedClass.1 hu with ⟨hne, hdigits⟩ | ⟨ds, es, rfl, hne, hds, hes⟩
  · have htake : u.takeWhile Char.isDigit = u := List.takeWhile_eq_self_iff.2 hdigits
    have hdrop : u.dropWhile Char.isDigit = [] := List.dropWhile_eq_nil_iff.2 hdigits
    refine ⟨⟨negative, digitsValue u, 0⟩, ?_, rfl, ?_⟩
    · simp [readNumeral?, hw, htake, hdrop, hne]
    · rw [unsignedValue_of_digits hdigits, digitsValue_eq, pow_zero, div_one]
  · have htake : (ds ++ '.' :: es).takeWhile Char.isDigit = ds := by
      rw [List.takeWhile_append_of_pos hds]
      simp [hpoint]
    have hdrop : (ds ++ '.' :: es).dropWhile Char.isDigit = '.' :: es := by
      rw [List.dropWhile_append_of_pos hds]
      simp [hpoint]
    have hsome : (ds.isEmpty && es.isEmpty) = false := by
      simpa [← not_and_or] using hne
    refine ⟨⟨negative, digitsValue (ds ++ es), es.length⟩, ?_, rfl, ?_⟩
    · simp [readNumeral?, hw, htake, hdrop, hsome, List.all_eq_true.2 hes]
    · rw [unsignedValue_of_point hds, digitsValue_eq]

/-- A number is read as what it is worth, with the sign that it is written with. -/
theorem exists_numeral_of_mem_numberClass (hw : w ∈ numberClass) :
    ∃ n, readNumeral? w = some n ∧ n.value = decimalValue w ∧
      (n.negative = true ↔ w.head? = some '-') := by
  rcases mem_numberClass.1 hw with hu | ⟨u, hu, rfl⟩
  · have hhead := head?_ne_minus_of_mem hu
    obtain ⟨n, hn, hnegative, hvalue⟩ :=
      exists_numeral_of_mem_unsignedClass (splitSign_of_ne hhead) hu
    refine ⟨n, hn, ?_, by simp [hnegative, hhead]⟩
    rw [Numeral.value, hnegative, decimalValue_of_ne hhead, ← hvalue]
    rfl
  · have hsplit : splitSign ('-' :: u) = (true, u) := rfl
    obtain ⟨n, hn, hnegative, hvalue⟩ := exists_numeral_of_mem_unsignedClass hsplit hu
    refine ⟨n, hn, ?_, by simp [hnegative]⟩
    rw [Numeral.value, hnegative, decimalValue, ← hvalue]
    rfl

example : decimalValue "-20.25".toList = -81 / 4 := by decide +kernel

/-! ## Numbers of a text -/

/-- The literal stands in some text. -/
def Literal.Scanned (l : Literal) : Prop :=
  ∃ source, ∃ t ∈ tokens source, t.literal? = some l

theorem kind_of_mem_tokens {cur : Cursor} {t : Token} (ht : t ∈ cur.tokens) :
    t.kind = .inputEnd ∨ ∃ c cs, t.kind = (lexeme c cs).kind := by
  fun_induction Cursor.tokens cur with
  | case1 cur hend =>
    rw [List.mem_singleton.1 ht, Cursor.next_of_end hend]
    exact .inl rfl
  | case2 cur hend _ ih =>
    rcases List.mem_cons.1 ht with rfl | ht
    · obtain ⟨c, cs, hrest⟩ := List.exists_cons_of_ne_nil hend
      rw [Cursor.next_of_cons hrest]
      exact .inr ⟨c, cs, rfl⟩
    · exact ih ht

/-- A number begins where a number is read: each of the other tokens is something else. -/
theorem Munches.begins_number {cs text rest : List Char} {kind : Token.Kind}
    (h : Munches cs text rest kind)
    (hkind : (∃ s, kind = .integer s) ∨ ∃ s, kind = .decimal s) : Begins numberClass cs := by
  by_contra hnumber
  have hinvalid : ∃ blemish, kind = .invalid blemish := by
    refine h.invalid.2 ⟨fun hother => ?_, hnumber, fun hother => ?_, fun hother => ?_,
      fun hother => ?_⟩
    · have hname := (h.name hother).1
      simp [hname] at hkind
    · have hequals := (h.equals hother).1
      simp [hequals] at hkind
    · have hfeed := (h.lineEnd hother).1
      simp [hfeed] at hkind
    · have hcomment := (h.comment hother).1
      simp [hcomment] at hkind
  obtain ⟨blemish, rfl⟩ := hinvalid
  simp at hkind

/-- A number of a text is a word of its class. -/
theorem Literal.Scanned.mem {l : Literal} (h : l.Scanned) (hname : l.kind ≠ .name) :
    l.text.toList ∈ numberClass ∧ (l.kind = .integer → l.text.toList ∈ integerClass) := by
  obtain ⟨source, ⟨kind, span⟩, ht, hl⟩ := h
  have hnumber : (∃ s, kind = .integer s) ∨ ∃ s, kind = .decimal s := by
    cases kind with
    | name s =>
      cases hl
      exact absurd rfl hname
    | integer s => exact .inl ⟨s, rfl⟩
    | decimal s => exact .inr ⟨s, rfl⟩
    | _ => cases hl
  rcases kind_of_mem_tokens ht with rfl | ⟨c, cs, hkind⟩
  · cases hl
  change kind = (lexeme c cs).kind at hkind
  have hmunches := munches_lexeme c cs
  rw [← hkind] at hmunches
  obtain ⟨hreads, hlongest⟩ := hmunches.number (hmunches.begins_number hnumber)
  generalize (lexeme c cs).text = text at hreads hlongest
  cases hreads with
  | decimal _ =>
    cases hl
    rw [String.toList_ofList]
    exact ⟨hlongest.mem, nofun⟩
  | integer _ hinteger =>
    cases hl
    rw [String.toList_ofList]
    exact ⟨hlongest.mem, fun _ => hinteger⟩

theorem not_point_of_mem_integerClass (hw : w ∈ integerClass) : '.' ∉ w := by
  obtain ⟨s, hs, ds, hds, rfl⟩ := Language.mem_mul.1 hw
  have hpoint : '.' ∉ ds := fun h => absurd ((mem_digits.1 hds).2 '.' h) (by decide)
  rcases hs with rfl | rfl
  · exact hpoint
  · simpa using hpoint

theorem not_isGap_of_begins {c : Char} {cs : List Char} (h : Begins numberClass (c :: cs)) :
    isGap c = false := by
  by_contra hgap
  rw [Bool.not_eq_false, isGap, Bool.and_eq_true] at hgap
  have hseparates := separates_of_isBlank hgap.1
  rw [begins_number_iff] at h
  by_cases hminus : c = '-'
  · rw [hminus] at hgap
    exact absurd hgap.1 (by decide)
  rw [if_neg hminus, startsNumber_iff] at h
  rcases h with ⟨d, rest, heq, hdigit⟩ | ⟨d, rest, heq, -⟩
  · rw [← (List.cons.inj heq).1, not_isDigit_of_separates hseparates] at hdigit
    cases hdigit
  · exact ne_point_of_separates hseparates (List.cons.inj heq).1

/-- Every word of the class stands in some text, as a number of its own. -/
theorem exists_scanned (hw : w ∈ numberClass) :
    ∃ l : Literal, l.Scanned ∧ l.kind ≠ .name ∧ l.text.toList = w ∧
      (w ∈ integerClass → l.kind = .integer) := by
  obtain ⟨c, cs, rfl⟩ : ∃ c cs, w = c :: cs := by
    apply List.exists_cons_of_ne_nil
    intro hnil
    rw [hnil] at hw
    rcases mem_numberClass.1 hw with hu | ⟨u, -, h⟩
    · exact ne_nil_of_mem_unsignedClass hu rfl
    · cases h
  have hbegins : Begins numberClass (c :: cs) :=
    ⟨_, hw, List.cons_ne_nil c cs, List.prefix_rfl⟩
  obtain ⟨hreads, hlongest⟩ := lexeme_number hbegins
  have htext : (lexeme c cs).text = c :: cs :=
    hlongest.front.eq_of_length_le (hlongest.longest _ hw List.prefix_rfl)
  rw [htext] at hreads
  have hrest : (Cursor.ofString (.ofList (c :: cs))).skipGap.rest = c :: cs := by
    show (String.ofList (c :: cs)).toList.dropWhile isGap = c :: cs
    rw [String.toList_ofList, List.dropWhile_cons_of_neg (by simp [not_isGap_of_begins hbegins])]
  obtain ⟨t, ht, hkind⟩ : ∃ t ∈ tokens (.ofList (c :: cs)), t.kind = (lexeme c cs).kind := by
    obtain ⟨ts, hts⟩ := (Cursor.ofString (.ofList (c :: cs))).tokens_eq_cons
    refine ⟨_, hts ▸ List.mem_cons_self, ?_⟩
    rw [Cursor.next_of_cons hrest]
  rw [← hkind] at hreads
  obtain ⟨kind, span⟩ := t
  cases hreads with
  | decimal hpoint =>
    refine ⟨⟨.decimal, .ofList (c :: cs), span⟩, ⟨_, _, ht, rfl⟩, nofun, ?_, ?_⟩
    · exact String.toList_ofList
    · intro hinteger
      exact absurd hpoint (not_point_of_mem_integerClass hinteger)
  | integer _ _ =>
    refine ⟨⟨.integer, .ofList (c :: cs), span⟩, ⟨_, _, ht, rfl⟩, nofun, ?_, fun _ => rfl⟩
    exact String.toList_ofList

end Source

end Playfield
