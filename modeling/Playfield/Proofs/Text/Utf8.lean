/-
  Playfield.Proofs.Text.Utf8 — the bytes of texts are exactly the well-formed UTF-8.

  A sequence of one to four bytes spells a number: the first byte says how many there are and
  holds the highest bits, and each later byte holds six more (`Spells`). A sequence is well formed
  if no shorter one spells the same number, and if that is neither a surrogate nor greater than
  U+10FFFF (`Sequence`). Bytes are well formed if they are such sequences one behind the other,
  with no byte left over (`WellFormed`).

  The bytes of a character are the one well-formed sequence of its number (`sequence_iff`), so the
  bytes of texts are the well-formed bytes (`wellFormed_iff`), and all others are refused
  (`ofUtf8?_eq_none_iff`): overlong forms, surrogates and numbers that are too great wherever they
  stand (`malformed_of_spells`), and sequences that are cut (`malformed_of_cut`).
-/

import Playfield.Proofs.Text.Order

namespace Playfield.Text

open String (utf8EncodeChar)

/-! ## Well-formed bytes -/

/-- A byte behind the first one of its sequence. -/
def Later (b : UInt8) : Prop :=
  0x80 ≤ b.toNat ∧ b.toNat < 0xc0

/-- The bytes are a sequence for the number, though perhaps a longer one than it takes. -/
inductive Spells : List UInt8 → Nat → Prop where
  | one {a : UInt8} : a.toNat < 0x80 → Spells [a] a.toNat
  | two {a b : UInt8} : 0xc0 ≤ a.toNat → a.toNat < 0xe0 → Later b →
      Spells [a, b] (64 * (a.toNat - 0xc0) + (b.toNat - 0x80))
  | three {a b c : UInt8} : 0xe0 ≤ a.toNat → a.toNat < 0xf0 → Later b → Later c →
      Spells [a, b, c] (4096 * (a.toNat - 0xe0) + 64 * (b.toNat - 0x80) + (c.toNat - 0x80))
  | four {a b c d : UInt8} : 0xf0 ≤ a.toNat → a.toNat < 0xf8 → Later b → Later c → Later d →
      Spells [a, b, c, d] (262144 * (a.toNat - 0xf0) + 4096 * (b.toNat - 0x80) +
        64 * (c.toNat - 0x80) + (d.toNat - 0x80))

/-- The bytes are the well-formed sequence of the number. -/
structure Sequence (bytes : List UInt8) (n : Nat) : Prop where
  spells : Spells bytes n
  /-- It is not overlong. -/
  shortest : ∀ other, Spells other n → bytes.length ≤ other.length
  noSurrogate : ¬(0xd800 ≤ n ∧ n ≤ 0xdfff)
  inRange : n ≤ 0x10ffff

/-- The bytes are well-formed sequences, one behind the other. -/
def WellFormed (bytes : List UInt8) : Prop :=
  ∃ sequences : List (List UInt8),
    sequences.flatten = bytes ∧ ∀ bs ∈ sequences, ∃ n, Sequence bs n

/-! ## Sequences of characters -/

theorem toNat_laterByte (n : Nat) : (laterByte n).toNat = n % 64 + 128 := by
  rw [laterByte, UInt8.toNat_ofNat']
  omega

theorem later_laterByte (n : Nat) : Later (laterByte n) := by
  rw [Later, toNat_laterByte]
  omega

/-- A character's bytes spell its number. -/
theorem spells_utf8EncodeChar (c : Char) : Spells (utf8EncodeChar c) c.val.toNat := by
  have hlt := toNat_lt c
  rw [utf8EncodeChar_eq]
  generalize c.val.toNat = n at hlt ⊢
  have hlead : (UInt8.ofNat (leadByte n)).toNat = leadByte n := by
    rw [UInt8.toNat_ofNat', Nat.mod_eq_of_lt (leadByte_lt hlt)]
  generalize UInt8.ofNat (leadByte n) = a at hlead ⊢
  unfold leadByte at hlead
  unfold laterBytes
  by_cases h1 : n ≤ 127
  · rw [if_pos h1] at hlead ⊢
    rw [← hlead]
    exact .one (by omega)
  rw [if_neg h1] at hlead ⊢
  by_cases h2 : n ≤ 2047
  · rw [if_pos h2] at hlead ⊢
    have hspells := Spells.two (a := a) (by omega) (by omega) (later_laterByte n)
    rwa [hlead, toNat_laterByte, show 64 * (n / 64 + 192 - 0xc0) + (n % 64 + 128 - 0x80) = n by
      omega] at hspells
  rw [if_neg h2] at hlead ⊢
  by_cases h3 : n ≤ 65535
  · rw [if_pos h3] at hlead ⊢
    have hspells := Spells.three (a := a) (by omega) (by omega) (later_laterByte (n / 64))
      (later_laterByte n)
    rwa [hlead, toNat_laterByte, toNat_laterByte, show 4096 * (n / 4096 + 224 - 0xe0) +
      64 * (n / 64 % 64 + 128 - 0x80) + (n % 64 + 128 - 0x80) = n by omega] at hspells
  · rw [if_neg h3] at hlead ⊢
    have hspells := Spells.four (a := a) (by omega) (by omega) (later_laterByte (n / 4096))
      (later_laterByte (n / 64)) (later_laterByte n)
    rwa [hlead, toNat_laterByte, toNat_laterByte, toNat_laterByte,
      show 262144 * (n / 262144 + 240 - 0xf0) + 4096 * (n / 4096 % 64 + 128 - 0x80) +
        64 * (n / 64 % 64 + 128 - 0x80) + (n % 64 + 128 - 0x80) = n by omega] at hspells

section

variable {bs bs' : List UInt8} {n : Nat}

/-- A sequence has room for so many bits. -/
theorem Spells.bounds (h : Spells bs n) :
    bs.length = 1 ∧ n ≤ 127 ∨ bs.length = 2 ∧ n ≤ 2047 ∨ bs.length = 3 ∧ n ≤ 65535 ∨
      bs.length = 4 := by
  cases h with
  | one ha => exact .inl ⟨rfl, by omega⟩
  | two _ ha hb =>
    obtain ⟨-, hb⟩ := hb
    exact .inr (.inl ⟨rfl, by omega⟩)
  | three _ ha hb hc =>
    obtain ⟨-, hb⟩ := hb
    obtain ⟨-, hc⟩ := hc
    exact .inr (.inr (.inl ⟨rfl, by omega⟩))
  | four => exact .inr (.inr (.inr rfl))

theorem length_laterBytes (n : Nat) :
    (laterBytes n).length = if n ≤ 127 then 0 else if n ≤ 2047 then 1 else if n ≤ 65535 then 2
      else 3 := by
  unfold laterBytes
  repeat' split
  all_goals rfl

/-- No sequence for a character's number is shorter than its bytes. -/
theorem Spells.length_le {c : Char} (h : Spells bs c.val.toNat) :
    (utf8EncodeChar c).length ≤ bs.length := by
  rw [utf8EncodeChar_eq, List.length_cons, length_laterBytes]
  have hbounds := h.bounds
  repeat' split
  all_goals omega

/-- Of each length there is one sequence for a number. -/
theorem Spells.unique {n' : Nat} (h : Spells bs n) (h' : Spells bs' n') (hn : n = n')
    (hlength : bs.length = bs'.length) : bs = bs' := by
  cases h with
  | one _ =>
    cases h' with
    | one _ => rw [UInt8.toNat_inj.1 hn]
    | _ => cases hlength
  | @two a b ha ha2 hb =>
    cases h' with
    | @two a' b' ha' ha2' hb' =>
      unfold Later at hb hb'
      have ha : a = a' := UInt8.toNat_inj.1 (by omega)
      have hb : b = b' := UInt8.toNat_inj.1 (by omega)
      rw [ha, hb]
    | _ => cases hlength
  | @three a b c ha ha2 hb hc =>
    cases h' with
    | @three a' b' c' ha' ha2' hb' hc' =>
      unfold Later at hb hc hb' hc'
      have ha : a = a' := UInt8.toNat_inj.1 (by omega)
      have hb : b = b' := UInt8.toNat_inj.1 (by omega)
      have hc : c = c' := UInt8.toNat_inj.1 (by omega)
      rw [ha, hb, hc]
    | _ => cases hlength
  | @four a b c d ha ha2 hb hc hd =>
    cases h' with
    | @four a' b' c' d' ha' ha2' hb' hc' hd' =>
      unfold Later at hb hc hd hb' hc' hd'
      have ha : a = a' := UInt8.toNat_inj.1 (by omega)
      have hb : b = b' := UInt8.toNat_inj.1 (by omega)
      have hc : c = c' := UInt8.toNat_inj.1 (by omega)
      have hd : d = d' := UInt8.toNat_inj.1 (by omega)
      rw [ha, hb, hc, hd]
    | _ => cases hlength

end

/-- The well-formed sequence of a number is what its character is written as. -/
theorem sequence_iff {bs : List UInt8} {n : Nat} :
    Sequence bs n ↔ ∃ c : Char, c.val.toNat = n ∧ utf8EncodeChar c = bs := by
  constructor
  · intro h
    obtain ⟨hspells, hshortest, hsurrogate, hrange⟩ := h
    have hvalid : n.isValidChar := by
      unfold Nat.isValidChar
      omega
    have hn : (Char.ofNatAux n hvalid).val.toNat = n := rfl
    generalize Char.ofNatAux n hvalid = c at hn
    refine ⟨c, hn, ?_⟩
    have hc := spells_utf8EncodeChar c
    have hlong := (hn ▸ hspells : Spells bs c.val.toNat).length_le
    have hshort := hshortest _ (hn ▸ hc)
    exact hc.unique hspells hn (Nat.le_antisymm hlong hshort)
  · intro h
    obtain ⟨c, rfl, rfl⟩ := h
    have hvalid : c.val.toNat < 0xd800 ∨ 0xdfff < c.val.toNat ∧ c.val.toNat < 0x110000 := c.valid
    exact ⟨spells_utf8EncodeChar c, fun _ h => h.length_le, by omega, by omega⟩

/-! ## Texts -/

theorem exists_chars {sequences : List (List UInt8)}
    (h : ∀ bs ∈ sequences, ∃ n, Sequence bs n) :
    ∃ cs : List Char, sequences = cs.map utf8EncodeChar := by
  induction sequences with
  | nil => exact ⟨[], rfl⟩
  | cons bs rest ih =>
    obtain ⟨⟨n, hn⟩, hrest⟩ := List.forall_mem_cons.1 h
    obtain ⟨c, -, hc⟩ := sequence_iff.1 hn
    obtain ⟨cs, hcs⟩ := ih hrest
    exact ⟨c :: cs, by rw [hcs, ← hc, List.map_cons]⟩

/-- Bytes are well formed when they are the bytes of a text. -/
theorem wellFormed_iff {bytes : List UInt8} : WellFormed bytes ↔ ∃ s, utf8 s = bytes := by
  constructor
  · intro h
    obtain ⟨sequences, rfl, hsequences⟩ := h
    obtain ⟨cs, rfl⟩ := exists_chars hsequences
    refine ⟨.ofList cs, ?_⟩
    rw [utf8_eq_flatMap, String.toList_ofList, List.flatMap_def]
  · intro h
    obtain ⟨s, rfl⟩ := h
    refine ⟨s.toList.map utf8EncodeChar, ?_, fun bs hbs => ?_⟩
    · rw [utf8_eq_flatMap, List.flatMap_def]
    · obtain ⟨c, -, rfl⟩ := List.mem_map.1 hbs
      exact ⟨_, sequence_iff.2 ⟨c, rfl, rfl⟩⟩

theorem ofUtf8?_utf8 (s : String) : ofUtf8? (utf8 s) = some s := by
  have hb : (⟨(utf8 s).toArray⟩ : ByteArray) = s.toByteArray := rfl
  rw [ofUtf8?, hb, String.fromUTF8?, dif_pos s.isValidUTF8]
  rfl

theorem utf8_of_ofUtf8? {bytes : List UInt8} {s : String} (h : ofUtf8? bytes = some s) :
    utf8 s = bytes := by
  rw [ofUtf8?, String.fromUTF8?] at h
  split at h
  · cases h
    rfl
  · cases h

theorem utf8_inj {s t : String} : utf8 s = utf8 t ↔ s = t := by
  refine ⟨fun h => ?_, fun h => h ▸ rfl⟩
  have hs := ofUtf8?_utf8 s
  rw [h, ofUtf8?_utf8] at hs
  exact (Option.some.inj hs).symm

/-- Bytes are refused when they are not well formed. -/
theorem ofUtf8?_eq_none_iff {bytes : List UInt8} : ofUtf8? bytes = none ↔ ¬WellFormed bytes := by
  rw [wellFormed_iff]
  constructor
  · intro h hwell
    obtain ⟨s, rfl⟩ := hwell
    rw [ofUtf8?_utf8] at h
    cases h
  · intro h
    cases htext : ofUtf8? bytes with
    | none => rfl
    | some s => exact absurd ⟨s, utf8_of_ofUtf8? htext⟩ h

/-! ## What is malformed -/

/-- How many bytes a sequence has, by its first one. -/
def sequenceLength (a : UInt8) : Nat :=
  if a.toNat < 0xc0 then 1 else if a.toNat < 0xe0 then 2 else if a.toNat < 0xf0 then 3 else 4

section

variable {bs bs' front rest rest' : List UInt8} {n n' : Nat}

theorem Spells.eq_cons (h : Spells bs n) :
    ∃ a later, bs = a :: later ∧ bs.length = sequenceLength a ∧ ∀ b ∈ later, Later b := by
  cases h with
  | @one a ha =>
    refine ⟨a, [], rfl, ?_, by simp⟩
    rw [sequenceLength, if_pos (by omega)]
    rfl
  | @two a b ha ha2 hb =>
    refine ⟨a, [b], rfl, ?_, by simpa using hb⟩
    rw [sequenceLength, if_neg (by omega), if_pos ha2]
    rfl
  | @three a b c ha ha2 hb hc =>
    refine ⟨a, [b, c], rfl, ?_, by simpa using ⟨hb, hc⟩⟩
    rw [sequenceLength, if_neg (by omega), if_neg (by omega), if_pos ha2]
    rfl
  | @four a b c d ha ha2 hb hc hd =>
    refine ⟨a, [b, c, d], rfl, ?_, by simpa using ⟨hb, hc, hd⟩⟩
    rw [sequenceLength, if_neg (by omega), if_neg (by omega), if_neg (by omega)]
    rfl

theorem Spells.number_unique (h : Spells bs n) (h' : Spells bs n') : n = n' := by
  cases h <;> cases h' <;> rfl

/-- Where a sequence ends is told by its first byte. -/
theorem Spells.append_inj (h : Spells bs n) (h' : Spells bs' n')
    (heq : bs ++ rest = bs' ++ rest') : bs = bs' ∧ rest = rest' := by
  obtain ⟨a, later, ha, hlength, -⟩ := h.eq_cons
  obtain ⟨a', later', ha', hlength', -⟩ := h'.eq_cons
  have hhead : a = a' := by
    rw [ha, ha', List.cons_append, List.cons_append] at heq
    exact (List.cons.inj heq).1
  exact List.append_inj heq (by rw [hlength, hlength', hhead])

/-- Behind well-formed bytes there have to be well-formed ones. -/
theorem WellFormed.of_append (hfront : WellFormed front) (h : WellFormed (front ++ rest)) :
    WellFormed rest := by
  obtain ⟨fronts, rfl, hfronts⟩ := hfront
  obtain ⟨all, hall, hsequences⟩ := h
  induction fronts generalizing all with
  | nil => exact ⟨all, hall, hsequences⟩
  | cons bs fronts ih =>
    obtain ⟨⟨n, hn⟩, hfronts⟩ := List.forall_mem_cons.1 hfronts
    rw [List.flatten_cons, List.append_assoc] at hall
    cases all with
    | nil =>
      obtain ⟨a, later, rfl, -⟩ := hn.spells.eq_cons
      cases hall
    | cons bs' all =>
      obtain ⟨⟨n', hn'⟩, hsequences⟩ := List.forall_mem_cons.1 hsequences
      exact ih hfronts all (hn'.spells.append_inj hn.spells hall).2 hsequences

/-- Well-formed bytes begin with a well-formed sequence. -/
theorem WellFormed.first (h : WellFormed bs) (hne : bs ≠ []) :
    ∃ first n rest, Sequence first n ∧ bs = first ++ rest := by
  obtain ⟨sequences, rfl, hsequences⟩ := h
  cases sequences with
  | nil => exact absurd rfl hne
  | cons first sequences =>
    obtain ⟨⟨n, hn⟩, -⟩ := List.forall_mem_cons.1 hsequences
    exact ⟨first, n, sequences.flatten, hn, List.flatten_cons⟩

/-- An overlong form, a surrogate or a number that is too great is malformed, wherever it
stands. -/
theorem malformed_of_spells (hfront : WellFormed front) (hbs : Spells bs n)
    (hbad : (∃ other, Spells other n ∧ other.length < bs.length) ∨
      0xd800 ≤ n ∧ n ≤ 0xdfff ∨ 0x10ffff < n) : ¬WellFormed (front ++ (bs ++ rest)) := by
  intro h
  obtain ⟨a, later, ha, -⟩ := hbs.eq_cons
  obtain ⟨first, n', rest', hfirst, heq⟩ := (hfront.of_append h).first (by simp [ha])
  obtain ⟨rfl, -⟩ := hbs.append_inj hfirst.spells heq
  obtain rfl := hbs.number_unique hfirst.spells
  rcases hbad with ⟨other, hother, hshorter⟩ | hsurrogate | hgreat
  · exact absurd (hfirst.shortest other hother) (Nat.not_le.2 hshorter)
  · exact hfirst.noSurrogate hsurrogate
  · exact absurd hfirst.inRange (Nat.not_le.2 hgreat)

/-- A sequence that is cut short, at the end or in front of a byte that is not one of its own,
is malformed. -/
theorem malformed_of_cut (hfront : WellFormed front) (hbs : Spells (bs ++ bs') n) (hbs' : bs' ≠ [])
    (hne : bs ≠ []) (hrest : ∀ b ∈ rest.head?, ¬Later b) :
    ¬WellFormed (front ++ (bs ++ rest)) := by
  intro h
  obtain ⟨first, n', rest', hfirst, heq⟩ := (hfront.of_append h).first (by simp [hne])
  obtain ⟨a, cut, rfl⟩ := List.exists_cons_of_ne_nil hne
  obtain ⟨_, _, ha, hlength, -⟩ := hbs.eq_cons
  obtain ⟨a', later, rfl, hlength', hlater⟩ := hfirst.spells.eq_cons
  cases ha
  rw [List.cons_append, List.cons_append] at heq
  obtain ⟨rfl, htail⟩ := List.cons.inj heq
  have hshort : cut.length < later.length := by
    have hpos := List.length_pos_iff.2 hbs'
    simp only [List.length_cons, List.length_append] at hlength hlength'
    omega
  -- so the byte behind the cut is one of the sequence
  rcases List.append_eq_append_iff.1 htail with ⟨missing, rfl, rfl⟩ | ⟨beyond, rfl, -⟩
  · cases missing with
    | nil => simp at hshort
    | cons b missing => exact hrest b rfl (hlater b (by simp))
  · simp only [List.length_append] at hshort
    omega

end

/-! ## Byte order marks -/

/-- Only the byte order mark itself is spelled with its bytes in front. -/
theorem Spells.eq_mark {bs rest : List UInt8} {n : Nat} (h : Spells bs n)
    (hmark : [0xef, 0xbb, 0xbf] <+: bs ++ rest) : n = 0xfeff := by
  -- the first byte is that of a sequence of three
  have hlead : (0xef : UInt8).toNat = 0xef := rfl
  cases h with
  | one ha =>
    rw [← (List.cons_prefix_cons.1 hmark).1] at ha
    omega
  | two _ ha _ =>
    rw [← (List.cons_prefix_cons.1 hmark).1] at ha
    omega
  | three _ _ _ _ =>
    obtain ⟨ha, hmark⟩ := List.cons_prefix_cons.1 hmark
    obtain ⟨hb, hmark⟩ := List.cons_prefix_cons.1 hmark
    obtain ⟨hc, -⟩ := List.cons_prefix_cons.1 hmark
    rw [← ha, ← hb, ← hc]
    rfl
  | four ha _ _ _ _ =>
    rw [← (List.cons_prefix_cons.1 hmark).1] at ha
    omega

/-- A text has these bytes in front only if the byte order mark is its first character. -/
theorem head?_of_mark {s : String} (h : [0xef, 0xbb, 0xbf] <+: utf8 s) :
    s.toList.head? = some '\uFEFF' := by
  rw [utf8_eq_flatMap] at h
  cases hs : s.toList with
  | nil =>
    rw [hs] at h
    cases List.prefix_nil.1 h
  | cons c cs =>
    rw [hs, List.flatMap_cons] at h
    have hmark : c.val.toNat = 0xfeff := (spells_utf8EncodeChar c).eq_mark h
    have hc : c = '\uFEFF' := Char.ext (UInt32.toNat_inj.1 hmark)
    rw [hc, List.head?_cons]

end Playfield.Text
