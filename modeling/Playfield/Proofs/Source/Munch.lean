/-
  Playfield.Proofs.Source.Munch — a token takes as much of the text as its class allows.

  The classes of the language are written as they are documented, as regular languages over
  characters:

    NAME    [A-Za-z_][A-Za-z_0-9]*
    INT     -?[0-9]+
    FLOAT   -?([0-9]+(\.[0-9]*)?|\.[0-9]+)

  A word of NAME is a letter and then letters and digits (`mem_nameClass`); a word of FLOAT
  without its sign is digits, or digits around a point and not the point alone
  (`mem_unsignedClass`). The scanner looks one or two characters ahead to see whether a number
  begins, and then goes on without looking at the class again. That look is right, and where it
  stops no longer word fits: `unsigned_longest`, `numeral_longest`. With the other tokens, which
  are known by their first character, that says of every place in a text which token stands there
  and how far it goes (`maximal_munch`).
-/

import Mathlib.Computability.Language
import Playfield.Proofs.Source.Layout
import Playfield.Proofs.Source.Lossless

namespace Playfield.Source

open scoped Computability

/-! ## Classes -/

/-- One character of a range. -/
def charRange (a b : Char) : Language Char :=
  {w | ∃ c, a ≤ c ∧ c ≤ b ∧ w = [c]}

/-- `[A-Za-z_]` -/
def letterClass : Language Char :=
  charRange 'A' 'Z' + charRange 'a' 'z' + {['_']}

/-- `[0-9]` -/
def digitClass : Language Char :=
  charRange '0' '9'

/-- `-?` -/
def signClass : Language Char :=
  1 + {['-']}

/-- NAME -/
def nameClass : Language Char :=
  letterClass * (letterClass + digitClass)∗

/-- INT -/
def integerClass : Language Char :=
  signClass * (digitClass * digitClass∗)

/-- FLOAT without its sign. -/
def unsignedClass : Language Char :=
  digitClass * digitClass∗ * (1 + {['.']} * digitClass∗) + {['.']} * (digitClass * digitClass∗)

/-- FLOAT -/
def numberClass : Language Char :=
  signClass * unsignedClass

/-- A word of the class stands at the front of the text. -/
def Begins (l : Language Char) (cs : List Char) : Prop :=
  ∃ w ∈ l, w ≠ [] ∧ w <+: cs

/-- The word is of the class and stands at the front of the text, and no other such word is
longer. -/
structure Longest (l : Language Char) (cs text : List Char) : Prop where
  mem : text ∈ l
  front : text <+: cs
  longest : ∀ w ∈ l, w <+: cs → w.length ≤ text.length

/-! ## Words of the classes -/

section

variable {p q : Char → Bool} {l m : Language Char} {w : List Char}

/-- The words of the language are the single characters with a property. -/
def Singles (l : Language Char) (p : Char → Bool) : Prop :=
  ∀ w, w ∈ l ↔ ∃ c, p c = true ∧ w = [c]

theorem Singles.add (hl : Singles l p) (hm : Singles m q) : Singles (l + m) fun c => p c || q c := by
  intro w
  rw [Language.mem_add, hl w, hm w]
  constructor
  · rintro (⟨c, hc, rfl⟩ | ⟨c, hc, rfl⟩)
    · exact ⟨c, by simp [hc], rfl⟩
    · exact ⟨c, by simp [hc], rfl⟩
  · rintro ⟨c, hc, rfl⟩
    rcases Bool.or_eq_true_iff.1 hc with hc | hc
    · exact .inl ⟨c, hc, rfl⟩
    · exact .inr ⟨c, hc, rfl⟩

/-- Any number of such characters. -/
theorem Singles.mem_kstar (hl : Singles l p) : w ∈ l∗ ↔ ∀ c ∈ w, p c = true := by
  rw [Language.mem_kstar]
  constructor
  · rintro ⟨ws, rfl, hws⟩ c hc
    obtain ⟨v, hv, hc⟩ := List.mem_flatten.1 hc
    obtain ⟨d, hd, rfl⟩ := (hl v).1 (hws v hv)
    rw [List.mem_singleton.1 hc]
    exact hd
  · intro h
    refine ⟨w.map ([·]), by simp [← List.flatMap_def], ?_⟩
    intro v hv
    obtain ⟨c, hc, rfl⟩ := List.mem_map.1 hv
    exact (hl _).2 ⟨c, h c hc, rfl⟩

/-- One such character and then any number of others. -/
theorem Singles.mem_mul_kstar (hl : Singles l p) (hm : Singles m q) :
    w ∈ l * m∗ ↔ ∃ c cs, w = c :: cs ∧ p c = true ∧ ∀ d ∈ cs, q d = true := by
  rw [Language.mem_mul]
  constructor
  · rintro ⟨v, hv, cs, hcs, rfl⟩
    obtain ⟨c, hc, rfl⟩ := (hl v).1 hv
    exact ⟨c, cs, rfl, hc, hm.mem_kstar.1 hcs⟩
  · rintro ⟨c, cs, rfl, hc, hcs⟩
    exact ⟨[c], (hl _).2 ⟨c, hc, rfl⟩, cs, hm.mem_kstar.2 hcs, rfl⟩

end

theorem singles_range (a b : Char) :
    Singles (charRange a b) fun c => decide (a ≤ c) && decide (c ≤ b) := by
  intro w
  show (∃ c, a ≤ c ∧ c ≤ b ∧ w = [c]) ↔ _
  simp only [Bool.and_eq_true, decide_eq_true_eq, and_assoc]

theorem singles_char (a : Char) : Singles {[a]} (· == a) := by
  intro w
  show w = [a] ↔ _
  simp

theorem singles_letter : Singles letterClass isNameStart := by
  have hletter (c : Char) : isNameStart c =
      ((decide ('A' ≤ c) && decide (c ≤ 'Z') || decide ('a' ≤ c) && decide (c ≤ 'z')) ||
        c == '_') := by
    have hupper : c.isUpper = decide ('A' ≤ c ∧ c ≤ 'Z') := rfl
    have hlower : c.isLower = (decide ('a' ≤ c) && decide (c ≤ 'z')) := rfl
    have halpha : c.isAlpha = (c.isUpper || c.isLower) := rfl
    rw [isNameStart, halpha, hupper, hlower, Bool.decide_and]
  rw [funext hletter]
  exact ((singles_range 'A' 'Z').add (singles_range 'a' 'z')).add (singles_char '_')

theorem singles_digit : Singles digitClass Char.isDigit := by
  have hdigit (c : Char) : c.isDigit = (decide ('0' ≤ c) && decide (c ≤ '9')) := rfl
  rw [funext hdigit]
  exact singles_range '0' '9'

theorem singles_nameChar : Singles (letterClass + digitClass) isNameChar :=
  singles_letter.add singles_digit

/-- A name is a letter and then letters and digits. -/
theorem mem_nameClass {w : List Char} :
    w ∈ nameClass ↔ ∃ c cs, w = c :: cs ∧ isNameStart c = true ∧ ∀ d ∈ cs, isNameChar d = true :=
  singles_letter.mem_mul_kstar singles_nameChar

/-- At least one digit. -/
theorem mem_digits {w : List Char} :
    w ∈ digitClass * digitClass∗ ↔ w ≠ [] ∧ ∀ c ∈ w, c.isDigit = true := by
  rw [singles_digit.mem_mul_kstar singles_digit]
  cases w with
  | nil => simp
  | cons c cs => simp

/-- A number without its sign is digits, or digits around a point, on one side of it at least. -/
theorem mem_unsignedClass {w : List Char} :
    w ∈ unsignedClass ↔ (w ≠ [] ∧ ∀ c ∈ w, c.isDigit = true) ∨
      ∃ ds es, w = ds ++ '.' :: es ∧ (ds ≠ [] ∨ es ≠ []) ∧ (∀ c ∈ ds, c.isDigit = true) ∧
        ∀ c ∈ es, c.isDigit = true := by
  simp only [unsignedClass, Language.mem_add, Language.mem_mul (l := digitClass * digitClass∗),
    Language.mem_mul (l := {['.']}), mem_digits, singles_digit.mem_kstar, Language.mem_one]
  constructor
  · rintro (⟨ds, hds, b, rfl | ⟨_, rfl, es, hes, rfl⟩, rfl⟩ | ⟨_, rfl, es, hes, rfl⟩)
    · exact .inl (by simpa using hds)
    · exact .inr ⟨ds, es, by simp, .inl hds.1, hds.2, hes⟩
    · exact .inr ⟨[], es, rfl, .inr hes.1, by simp, hes.2⟩
  · rintro (hds | ⟨ds, es, rfl, hne, hds, hes⟩)
    · exact .inl ⟨w, hds, [], .inl rfl, List.append_nil w⟩
    · by_cases hnil : ds = []
      · subst hnil
        exact .inr ⟨['.'], rfl, es, ⟨hne.resolve_left (by simp), hes⟩, rfl⟩
      · exact .inl ⟨ds, ⟨hnil, hds⟩, '.' :: es, .inr ⟨['.'], rfl, es, hes, rfl⟩, rfl⟩

/-- A number may have a sign in front. -/
theorem mem_numberClass {w : List Char} :
    w ∈ numberClass ↔ w ∈ unsignedClass ∨ ∃ u ∈ unsignedClass, w = '-' :: u := by
  rw [numberClass, Language.mem_mul]
  constructor
  · rintro ⟨_, rfl | rfl, u, hu, rfl⟩
    · exact .inl hu
    · exact .inr ⟨u, hu, rfl⟩
  · rintro (hu | ⟨u, hu, rfl⟩)
    · exact ⟨[], .inl rfl, w, hu, rfl⟩
    · exact ⟨['-'], .inr rfl, u, hu, rfl⟩

/-! ## Names -/

/-- No stretch of such characters at the front of the text is longer. -/
theorem length_le_takeWhile {p : Char → Bool} {w cs : List Char} (hw : ∀ c ∈ w, p c = true)
    (h : w <+: cs) : w.length ≤ (cs.takeWhile p).length := by
  obtain ⟨rest, rfl⟩ := h
  rw [List.takeWhile_append_of_pos hw, List.length_append]
  omega

section

variable {c : Char} {cs : List Char}

theorem begins_name_iff : Begins nameClass (c :: cs) ↔ isNameStart c = true := by
  constructor
  · rintro ⟨w, hw, -, hfront⟩
    obtain ⟨d, ds, rfl, hd, -⟩ := mem_nameClass.1 hw
    rwa [(List.cons_prefix_cons.1 hfront).1] at hd
  · intro hc
    exact ⟨[c], mem_nameClass.2 ⟨c, [], rfl, hc, by simp⟩, by simp, by simp⟩

theorem name_longest (hc : isNameStart c = true) :
    Longest nameClass (c :: cs) (c :: cs.takeWhile isNameChar) where
  mem := mem_nameClass.2 ⟨c, _, rfl, hc, fun _ hd => List.mem_takeWhile_imp hd⟩
  front := List.cons_prefix_cons.2 ⟨rfl, List.takeWhile_prefix _⟩
  longest w hw hfront := by
    obtain ⟨d, ds, rfl, -, hds⟩ := mem_nameClass.1 hw
    have hle := length_le_takeWhile hds (List.cons_prefix_cons.1 hfront).2
    simp only [List.length_cons]
    omega

end

/-! ## Numbers -/

theorem startsNumber_iff {cs : List Char} :
    startsNumber cs = true ↔
      (∃ c rest, cs = c :: rest ∧ c.isDigit = true) ∨
        ∃ c rest, cs = '.' :: c :: rest ∧ c.isDigit = true := by
  have hpoint : Char.isDigit '.' = false := rfl
  cases cs with
  | nil => simp [startsNumber]
  | cons c cs =>
    by_cases hc : c = '.'
    · subst hc
      cases cs with
      | nil => simp [startsNumber, hpoint]
      | cons d cs => simp [startsNumber, hpoint]
    · simp [startsNumber_cons hc, hc]

theorem unsigned_of_point {ds rest : List Char} (hds : ∀ c ∈ ds, c.isDigit = true) :
    unsigned (ds ++ '.' :: rest) = ds ++ '.' :: rest.takeWhile Char.isDigit := by
  have hpoint : Char.isDigit '.' = false := rfl
  have htake : (ds ++ '.' :: rest).takeWhile Char.isDigit = ds := by
    rw [List.takeWhile_append_of_pos hds]
    simp [hpoint]
  have hdrop : (ds ++ '.' :: rest).dropWhile Char.isDigit = '.' :: rest := by
    rw [List.dropWhile_append_of_pos hds]
    simp [hpoint]
  simp only [unsigned, htake, hdrop]

theorem digits_prefix_unsigned (cs : List Char) : cs.takeWhile Char.isDigit <+: unsigned cs := by
  unfold unsigned
  split
  · exact List.prefix_append _ _
  · exact List.prefix_rfl

/-- Where a number begins, the scanner takes the longest one. -/
theorem unsigned_longest {cs : List Char} (h : startsNumber cs = true) :
    Longest unsignedClass cs (unsigned cs) where
  mem := by
    have hdigits (l : List Char) : ∀ c ∈ l.takeWhile Char.isDigit, c.isDigit = true :=
      fun _ => List.mem_takeWhile_imp
    rw [mem_unsignedClass]
    unfold unsigned
    split
    · next rest hdrop =>
      refine .inr ⟨_, _, rfl, ?_, hdigits cs, hdigits rest⟩
      rcases startsNumber_iff.1 h with ⟨c, tail, rfl, hc⟩ | ⟨c, tail, rfl, hc⟩
      · exact .inl (by simp [hc])
      · rw [List.dropWhile_cons_of_neg (by decide)] at hdrop
        cases hdrop
        exact .inr (by simp [hc])
    · next hdrop =>
      refine .inl ⟨?_, hdigits cs⟩
      rcases startsNumber_iff.1 h with ⟨c, tail, rfl, hc⟩ | ⟨c, tail, rfl, hc⟩
      · simp [hc]
      · exact absurd (List.dropWhile_cons_of_neg (by decide)) (hdrop _)
  front := ⟨afterUnsigned cs, unsigned_append_after cs⟩
  longest w hw hfront := by
    rcases mem_unsignedClass.1 hw with ⟨-, hdigits⟩ | ⟨ds, es, rfl, -, hds, hes⟩
    · have hle := length_le_takeWhile hdigits hfront
      have hle' := (digits_prefix_unsigned cs).length_le
      omega
    · obtain ⟨rest, rfl⟩ := hfront
      rw [List.append_assoc, List.cons_append, unsigned_of_point hds,
        List.takeWhile_append_of_pos hes]
      simp only [List.length_append, List.length_cons]
      omega

theorem ne_nil_of_mem_unsignedClass {u : List Char} (hu : u ∈ unsignedClass) : u ≠ [] := by
  rcases mem_unsignedClass.1 hu with ⟨hne, -⟩ | ⟨ds, es, rfl, -⟩
  · exact hne
  · simp

/-- The scanner sees whether a number begins. -/
theorem begins_unsigned_iff {cs : List Char} :
    Begins unsignedClass cs ↔ startsNumber cs = true := by
  constructor
  · rintro ⟨w, hw, -, rest, rfl⟩
    rw [startsNumber_iff]
    rcases mem_unsignedClass.1 hw with ⟨hne, hdigits⟩ | ⟨ds, es, rfl, hne, hds, hes⟩
    · obtain ⟨c, w, rfl⟩ := List.exists_cons_of_ne_nil hne
      exact .inl ⟨c, w ++ rest, rfl, hdigits c List.mem_cons_self⟩
    · cases ds with
      | cons d ds => exact .inl ⟨d, _, rfl, hds d List.mem_cons_self⟩
      | nil =>
        obtain ⟨e, es, rfl⟩ := List.exists_cons_of_ne_nil (hne.resolve_left (by simp))
        exact .inr ⟨e, es ++ rest, rfl, hes e List.mem_cons_self⟩
  · intro h
    have hlongest := unsigned_longest h
    exact ⟨_, hlongest.mem, unsigned_ne_nil h, hlongest.front⟩

section

variable {c : Char} {cs : List Char}

/-- No number without a sign begins with a minus. -/
theorem not_prefix_minus {u : List Char} (hu : u ∈ unsignedClass) : ¬u <+: '-' :: cs := by
  intro hfront
  have hstarts := begins_unsigned_iff.1 ⟨u, hu, ne_nil_of_mem_unsignedClass hu, hfront⟩
  cases hstarts

theorem number_longest_minus (h : startsNumber cs = true) :
    Longest numberClass ('-' :: cs) ('-' :: unsigned cs) := by
  obtain ⟨hmem, hfront, hlongest⟩ := unsigned_longest h
  refine ⟨mem_numberClass.2 (.inr ⟨_, hmem, rfl⟩), List.cons_prefix_cons.2 ⟨rfl, hfront⟩, ?_⟩
  intro w hw hwfront
  rcases mem_numberClass.1 hw with hu | ⟨u, hu, rfl⟩
  · exact absurd hwfront (not_prefix_minus hu)
  · have hle := hlongest u hu (List.cons_prefix_cons.1 hwfront).2
    simp only [List.length_cons]
    omega

theorem number_longest (hc : c ≠ '-') (h : startsNumber (c :: cs) = true) :
    Longest numberClass (c :: cs) (unsigned (c :: cs)) := by
  obtain ⟨hmem, hfront, hlongest⟩ := unsigned_longest h
  refine ⟨mem_numberClass.2 (.inl hmem), hfront, ?_⟩
  intro w hw hwfront
  rcases mem_numberClass.1 hw with hu | ⟨u, -, rfl⟩
  · exact hlongest w hu hwfront
  · exact absurd (List.cons_prefix_cons.1 hwfront).1.symm hc

theorem begins_number_iff :
    Begins numberClass (c :: cs) ↔
      if c = '-' then startsNumber cs = true else startsNumber (c :: cs) = true := by
  split
  · next hc =>
    subst hc
    constructor
    · rintro ⟨w, hw, -, hfront⟩
      rcases mem_numberClass.1 hw with hu | ⟨u, hu, rfl⟩
      · exact absurd hfront (not_prefix_minus hu)
      · exact begins_unsigned_iff.1
          ⟨u, hu, ne_nil_of_mem_unsignedClass hu, (List.cons_prefix_cons.1 hfront).2⟩
    · intro h
      have hlongest := number_longest_minus h
      exact ⟨_, hlongest.mem, by simp, hlongest.front⟩
  · next hc =>
    constructor
    · rintro ⟨w, hw, hne, hfront⟩
      rcases mem_numberClass.1 hw with hu | ⟨u, -, rfl⟩
      · exact begins_unsigned_iff.1 ⟨w, hu, hne, hfront⟩
      · exact absurd (List.cons_prefix_cons.1 hfront).1.symm hc
    · intro h
      have hlongest := number_longest hc h
      exact ⟨_, hlongest.mem, unsigned_ne_nil h, hlongest.front⟩

/-- A number without a point is an integer. -/
theorem mem_integerClass {w : List Char} (hw : w ∈ numberClass) (hpoint : '.' ∉ w) :
    w ∈ integerClass := by
  have hdigits {u : List Char} (hu : u ∈ unsignedClass) (hu' : '.' ∉ u) :
      u ∈ digitClass * digitClass∗ := by
    rcases mem_unsignedClass.1 hu with h | ⟨ds, es, rfl, -⟩
    · exact mem_digits.2 h
    · simp at hu'
  rw [integerClass, Language.mem_mul]
  rcases mem_numberClass.1 hw with hu | ⟨u, hu, rfl⟩
  · exact ⟨[], .inl rfl, w, hdigits hu hpoint, rfl⟩
  · exact ⟨['-'], .inr rfl, u, hdigits hu (by simpa using hpoint), rfl⟩

end

/-! ## Tokens -/

/-- What a number is read as: with a point it is a decimal, without one an integer. -/
inductive ReadsNumber (text : List Char) : Token.Kind → Prop where
  | decimal : '.' ∈ text → ReadsNumber text (.decimal (.ofList text))
  | integer : '.' ∉ text → text ∈ integerClass → ReadsNumber text (.integer (.ofList text))

/-- Which token stands at the front of a text, how it is written and what follows. -/
structure Munches (cs text rest : List Char) (kind : Token.Kind) : Prop where
  whole : cs = text ++ rest
  name : Begins nameClass cs → kind = .name (.ofList text) ∧ Longest nameClass cs text
  number : Begins numberClass cs → ReadsNumber text kind ∧ Longest numberClass cs text
  equals : ['='] <+: cs → kind = .equals ∧ text = ['=']
  lineEnd : ['\n'] <+: cs → kind = .lineEnd ∧ text = ['\n']
  /-- A comment goes on up to the end of its line. -/
  comment : ['#'] <+: cs →
    kind = .comment (.ofList (Text.trimEnd text)) ∧ '\n' ∉ text ∧ (rest = [] ∨ ['\n'] <+: rest)
  /-- One character that none of these begins with is invalid, and nothing else is. -/
  invalid : (∃ blemish, kind = .invalid blemish) ↔
    ¬Begins nameClass cs ∧ ¬Begins numberClass cs ∧ ¬['='] <+: cs ∧ ¬['\n'] <+: cs ∧ ¬['#'] <+: cs
  single : ∀ blemish, kind = .invalid blemish → ∃ c, text = [c]

theorem readsNumber_numeral {sign cs : List Char} (h : (numeral sign cs).text ∈ numberClass) :
    ReadsNumber (numeral sign cs).text (numeral sign cs).kind := by
  by_cases hpoint : '.' ∈ sign ++ unsigned cs
  · have hkind : (numeral sign cs).kind = .decimal (.ofList (sign ++ unsigned cs)) := by
      simp [numeral, hpoint]
    rw [hkind]
    exact .decimal hpoint
  · have hkind : (numeral sign cs).kind = .integer (.ofList (sign ++ unsigned cs)) := by
      simp [numeral, hpoint]
    rw [hkind]
    exact .integer hpoint (mem_integerClass h hpoint)

section

variable {c : Char} {cs : List Char}

theorem not_starts_of_isNameStart (hc : isNameStart c = true) :
    c ≠ '\n' ∧ c ≠ '=' ∧ c ≠ '#' ∧ c ≠ '-' ∧ c ≠ '.' ∧ c.isDigit = false := by
  have hdigit : c.isDigit = false := by
    by_cases hunderscore : c = '_'
    · rw [hunderscore]
      rfl
    have hupper : c.isUpper = decide (c.val ≥ 65 ∧ c.val ≤ 90) := rfl
    have hlower : c.isLower = (decide (c.val ≥ 97) && decide (c.val ≤ 122)) := rfl
    have halpha : c.isAlpha = (c.isUpper || c.isLower) := rfl
    simp only [isNameStart, halpha, hupper, hlower, Char.isDigit, Bool.or_eq_true,
      Bool.and_eq_true, Bool.and_eq_false_iff, decide_eq_true_eq, decide_eq_false_iff_not,
      beq_iff_eq, hunderscore, or_false, ge_iff_le, UInt32.le_iff_toNat_le, Char.reduceVal,
      UInt32.reduceToNat] at hc ⊢
    omega
  refine ⟨?_, ?_, ?_, ?_, ?_, hdigit⟩
  all_goals
    rintro rfl
    cases hc

theorem lexeme_of_name (hc : isNameStart c = true) :
    lexeme c cs =
      { kind := .name (.ofList (c :: cs.takeWhile isNameChar)), text := c :: cs.takeWhile isNameChar
        rest := cs.dropWhile isNameChar } := by
  obtain ⟨hfeed, hequals, hhash, hminus, hpoint, hdigit⟩ := not_starts_of_isNameStart hc
  have hstarts : startsNumber (c :: cs) = false := by rw [startsNumber_cons hpoint, hdigit]
  simp only [lexeme, hfeed, hequals, hhash, hminus, hpoint, hstarts, hc, if_false, if_true,
    Bool.false_eq_true]

theorem lexeme_of_minus (h : startsNumber cs = true) : lexeme '-' cs = numeral ['-'] cs := by
  simp [lexeme, h]

theorem lexeme_of_number (hc : c ≠ '-') (h : startsNumber (c :: cs) = true) :
    lexeme c cs = numeral [] (c :: cs) := by
  have hother : c ≠ '\n' ∧ c ≠ '=' ∧ c ≠ '#' := by
    refine ⟨?_, ?_, ?_⟩
    all_goals
      rintro rfl
      cases h
  obtain ⟨hfeed, hequals, hhash⟩ := hother
  simp only [lexeme, hfeed, hequals, hhash, hc, h, if_false, if_true]

/-- A character with which no other token begins is invalid. -/
theorem lexeme_invalid (hname : isNameStart c = false) (hequals : c ≠ '=') (hfeed : c ≠ '\n')
    (hhash : c ≠ '#')
    (hnumber : ¬if c = '-' then startsNumber cs = true else startsNumber (c :: cs) = true) :
    ∃ blemish, (lexeme c cs).kind = .invalid blemish := by
  by_cases hminus : c = '-'
  · rw [if_pos hminus] at hnumber
    exact ⟨.bareMinus, by simp [lexeme, hminus, hnumber]⟩
  rw [if_neg hminus] at hnumber
  by_cases hpoint : c = '.'
  · rw [hpoint] at hnumber
    exact ⟨.barePoint, by simp [lexeme, hpoint, hnumber]⟩
  · exact ⟨.stray c, by simp [lexeme, hfeed, hequals, hhash, hminus, hnumber, hpoint, hname]⟩

theorem lexeme_name (h : Begins nameClass (c :: cs)) :
    (lexeme c cs).kind = .name (.ofList (lexeme c cs).text) ∧
      Longest nameClass (c :: cs) (lexeme c cs).text := by
  have hc := begins_name_iff.1 h
  rw [lexeme_of_name hc]
  exact ⟨rfl, name_longest hc⟩

theorem lexeme_number (h : Begins numberClass (c :: cs)) :
    ReadsNumber (lexeme c cs).text (lexeme c cs).kind ∧
      Longest numberClass (c :: cs) (lexeme c cs).text := by
  rw [begins_number_iff] at h
  by_cases hc : c = '-'
  · subst hc
    rw [if_pos rfl] at h
    have hlongest := number_longest_minus h
    rw [lexeme_of_minus h]
    exact ⟨readsNumber_numeral hlongest.mem, hlongest⟩
  · rw [if_neg hc] at h
    have hlongest := number_longest hc h
    rw [lexeme_of_number hc h]
    exact ⟨readsNumber_numeral hlongest.mem, hlongest⟩

theorem singleton_prefix_cons {a : Char} : [a] <+: c :: cs ↔ a = c := by
  rw [List.cons_prefix_cons]
  exact and_iff_left List.nil_prefix

/-- The token at the front of a text. -/
theorem munches_lexeme (c : Char) (cs : List Char) :
    Munches (c :: cs) (lexeme c cs).text (lexeme c cs).rest (lexeme c cs).kind where
  whole := (lexeme_text_append_rest c cs).symm
  name := lexeme_name
  number := lexeme_number
  equals h := by
    rw [← singleton_prefix_cons.1 h]
    exact ⟨rfl, rfl⟩
  lineEnd h := by
    rw [← singleton_prefix_cons.1 h]
    exact ⟨rfl, rfl⟩
  comment h := by
    rw [← singleton_prefix_cons.1 h]
    refine ⟨rfl, ?_, ?_⟩
    · have hnot := not_mem_takeWhile (p := (· ≠ '\n')) (c := '\n') (by decide) cs
      show '\n' ∉ '#' :: cs.takeWhile (· ≠ '\n')
      simpa using hnot
    · show cs.dropWhile (· ≠ '\n') = [] ∨ ['\n'] <+: cs.dropWhile (· ≠ '\n')
      rcases dropWhile_ne_lineFeed cs with hrest | ⟨rest, hrest⟩
      · exact .inl hrest
      · rw [hrest]
        exact .inr (singleton_prefix_cons.2 rfl)
  invalid := by
    simp only [singleton_prefix_cons]
    constructor
    · rintro ⟨blemish, hkind⟩
      refine ⟨?_, ?_, ?_, ?_, ?_⟩
      · intro h
        rw [(lexeme_name h).1] at hkind
        cases hkind
      · intro h
        have hreads := (lexeme_number h).1
        rw [hkind] at hreads
        cases hreads
      all_goals
        rintro rfl
        cases hkind
    · rintro ⟨hname, hnumber, hequals, hfeed, hhash⟩
      rw [begins_name_iff, Bool.not_eq_true] at hname
      rw [begins_number_iff] at hnumber
      exact lexeme_invalid hname (Ne.symm hequals) (Ne.symm hfeed) (Ne.symm hhash) hnumber
  single blemish hkind := by
    have hspells := (lexeme_written c cs).spells
    rw [hkind] at hspells
    generalize (lexeme c cs).text = text at hspells
    cases hspells <;> exact ⟨_, rfl⟩

end

/-- At every place of a text, behind the white space there, stands the end of input if nothing is
left, and else a token that takes as much of the text as its class allows. -/
theorem maximal_munch (cur : Cursor) :
    let cs := cur.rest.dropWhile isGap
    let start := cur.position.advance (cur.rest.takeWhile isGap)
    (cs = [] ∧ cur.next.1.kind = .inputEnd) ∨
      ∃ text, text ≠ [] ∧ Munches cs text cur.next.2.rest cur.next.1.kind ∧
        cur.next.1.span = start.upto (start.advance text) := by
  intro cs start
  cases h : cur.skipGap.rest with
  | nil => exact .inl ⟨h, by rw [Cursor.next_of_end h]⟩
  | cons c tail =>
    have hcs : cs = c :: tail := h
    rw [Cursor.next_of_cons h, hcs]
    exact .inr ⟨_, lexeme_text_ne_nil c tail, munches_lexeme c tail, rfl⟩

example : (tokens "7. -.5-3 1.2.3 -. x1").map (·.kind) =
    [.decimal "7.", .decimal "-.5", .integer "-3", .decimal "1.2", .decimal ".3",
      .invalid .bareMinus, .invalid .barePoint, .name "x1", .inputEnd] := by
  decide +kernel

end Playfield.Source
