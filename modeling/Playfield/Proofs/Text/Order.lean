/-
  Playfield.Proofs.Text.Order — the order of texts is the order of their bytes.

  Texts are compared character by character. Of two characters the lesser one has the lesser
  first byte, or the same one and then lesser bytes behind it; what follows a character does not
  matter (`utf8EncodeChar_lt`). So texts are in order exactly when their bytes are
  (`utf8_lt_iff`).
-/

import Mathlib.Data.String.Basic
import Playfield.Text.Utf8

namespace Playfield.Text

open String (utf8EncodeChar)

/-! ## The bytes of a character -/

/-- The first byte of the character with a number. It tells how many bytes there are. -/
def leadByte (n : Nat) : Nat :=
  if n ≤ 127 then n
  else if n ≤ 2047 then n / 64 + 192
  else if n ≤ 65535 then n / 4096 + 224
  else n / 262144 + 240

/-- A byte behind the first; it holds six bits of the number. -/
def laterByte (n : Nat) : UInt8 :=
  .ofNat (n % 64 + 128)

/-- The bytes behind the first. -/
def laterBytes (n : Nat) : List UInt8 :=
  if n ≤ 127 then []
  else if n ≤ 2047 then [laterByte n]
  else if n ≤ 65535 then [laterByte (n / 64), laterByte n]
  else [laterByte (n / 4096), laterByte (n / 64), laterByte n]

theorem toNat_lt (c : Char) : c.val.toNat < 1114112 := by
  rcases c.valid with h | ⟨-, h⟩
  · exact Nat.lt_trans h (by decide)
  · exact h

theorem utf8EncodeChar_eq (c : Char) :
    utf8EncodeChar c = .ofNat (leadByte c.val.toNat) :: laterBytes c.val.toNat := by
  have hlt := toNat_lt c
  unfold utf8EncodeChar leadByte laterBytes laterByte
  generalize c.val.toNat = n at hlt
  by_cases h1 : n ≤ 127
  · simp only [h1, if_true]
  by_cases h2 : n ≤ 2047
  · simp only [h1, h2, if_false, if_true, Nat.mod_eq_of_lt (show n / 64 < 32 by omega)]
  by_cases h3 : n ≤ 65535
  · simp only [h1, h2, h3, if_false, if_true, Nat.mod_eq_of_lt (show n / 4096 < 16 by omega)]
  · simp only [h1, h2, h3, if_false, Nat.mod_eq_of_lt (show n / 262144 < 8 by omega)]

theorem leadByte_le {m n : Nat} (h : m < n) : leadByte m ≤ leadByte n := by
  unfold leadByte
  repeat' split
  all_goals omega

theorem leadByte_lt {n : Nat} (h : n < 1114112) : leadByte n < 256 := by
  unfold leadByte
  repeat' split
  all_goals omega

/-! ## Order -/

section

variable {m n : Nat} {bs bs' : List UInt8}

/-- The first byte that differs decides. -/
theorem cons_lt_cons_of (hm : m < 256) (hn : n < 256) (h : m < n ∨ m = n ∧ bs < bs') :
    UInt8.ofNat m :: bs < UInt8.ofNat n :: bs' := by
  rw [List.cons_lt_cons_iff]
  rcases h with h | ⟨rfl, h⟩
  · refine .inl ?_
    rw [UInt8.lt_iff_toNat_lt, UInt8.toNat_ofNat', UInt8.toNat_ofNat', Nat.mod_eq_of_lt hm,
      Nat.mod_eq_of_lt hn]
    exact h
  · exact .inr ⟨rfl, h⟩

/-- A byte behind the first decides when its six bits differ. -/
theorem laterByte_lt (h : m % 64 < n % 64 ∨ m % 64 = n % 64 ∧ bs < bs') :
    laterByte m :: bs < laterByte n :: bs' := by
  apply cons_lt_cons_of (by omega) (by omega)
  rcases h with h | ⟨h, hbs⟩
  · exact .inl (by omega)
  · exact .inr ⟨by omega, hbs⟩

/-- With the same first byte there are as many bytes behind it, and these decide. -/
theorem laterBytes_lt (h : m < n) (hlead : leadByte m = leadByte n) (hn : n < 1114112) :
    laterBytes m ++ bs < laterBytes n ++ bs' := by
  have hlast (h64 : m / 64 = n / 64) : laterByte m :: bs < laterByte n :: bs' :=
    laterByte_lt (.inl (by omega))
  have hlastTwo (h4096 : m / 4096 = n / 4096) :
      laterByte (m / 64) :: laterByte m :: bs < laterByte (n / 64) :: laterByte n :: bs' := by
    by_cases h64 : m / 64 = n / 64
    · exact laterByte_lt (.inr ⟨by rw [h64], hlast h64⟩)
    · exact laterByte_lt (.inl (by omega))
  have hsame : (m ≤ 127 ↔ n ≤ 127) ∧ (m ≤ 2047 ↔ n ≤ 2047) ∧ (m ≤ 65535 ↔ n ≤ 65535) := by
    unfold leadByte at hlead
    repeat' split at hlead
    all_goals omega
  obtain ⟨h127, h2047, h65535⟩ := hsame
  simp only [leadByte, h127, h2047, h65535] at hlead
  simp only [laterBytes, h127, h2047, h65535]
  by_cases h1 : n ≤ 127
  · simp only [h1, if_true] at hlead
    omega
  by_cases h2 : n ≤ 2047
  · simp only [h1, h2, if_false, if_true] at hlead ⊢
    exact hlast (by omega)
  by_cases h3 : n ≤ 65535
  · simp only [h1, h2, h3, if_false, if_true] at hlead ⊢
    exact hlastTwo (by omega)
  · simp only [h1, h2, h3, if_false] at hlead ⊢
    by_cases h4096 : m / 4096 = n / 4096
    · exact laterByte_lt (.inr ⟨by rw [h4096], hlastTwo h4096⟩)
    · exact laterByte_lt (.inl (by omega))

/-- The bytes of the lesser character come first, whatever follows the two. -/
theorem utf8EncodeChar_lt {c d : Char} (h : c < d) :
    utf8EncodeChar c ++ bs < utf8EncodeChar d ++ bs' := by
  have hlt : c.val.toNat < d.val.toNat := UInt32.lt_iff_toNat_lt.1 h
  rw [utf8EncodeChar_eq, utf8EncodeChar_eq, List.cons_append, List.cons_append]
  apply cons_lt_cons_of (leadByte_lt (toNat_lt c)) (leadByte_lt (toNat_lt d))
  by_cases hlead : leadByte c.val.toNat = leadByte d.val.toNat
  · exact .inr ⟨hlead, laterBytes_lt hlt hlead (toNat_lt d)⟩
  · exact .inl (Nat.lt_of_le_of_ne (leadByte_le hlt) hlead)

end

theorem flatMap_utf8_lt {cs ds : List Char} (h : cs < ds) :
    cs.flatMap utf8EncodeChar < ds.flatMap utf8EncodeChar := by
  induction h with
  | @nil d ds =>
    rw [List.flatMap_nil, List.flatMap_cons, utf8EncodeChar_eq, List.cons_append]
    exact .nil
  | rel hlt =>
    rw [List.flatMap_cons, List.flatMap_cons]
    exact utf8EncodeChar_lt hlt
  | cons _ ih =>
    rw [List.flatMap_cons, List.flatMap_cons]
    exact List.append_left_lt ih

theorem utf8_eq_flatMap (s : String) : utf8 s = s.toList.flatMap utf8EncodeChar := by
  have hbytes : s.toByteArray = (s.toList.flatMap utf8EncodeChar).toByteArray := by
    rw [← String.ofList_toList (s := s), String.toByteArray_ofList, String.toList_ofList]
    rfl
  rw [utf8, hbytes]
  simp

/-- The bytes of the first text come first. -/
def Precedes (s t : String) : Prop :=
  utf8 s < utf8 t

/-- Texts are in order exactly when their bytes are. -/
theorem utf8_lt_iff {s t : String} : utf8 s < utf8 t ↔ s < t := by
  have hbytes {s t : String} (h : s < t) : utf8 s < utf8 t := by
    rw [utf8_eq_flatMap, utf8_eq_flatMap]
    exact flatMap_utf8_lt (String.lt_iff_toList_lt.1 h)
  refine ⟨fun h => ?_, hbytes⟩
  rcases lt_trichotomy s t with hlt | rfl | hgt
  · exact hlt
  · exact absurd h (List.lt_irrefl _)
  · exact absurd h (List.lt_asymm (hbytes hgt))

theorem precedes_eq_lt : Precedes = fun s t => s < t := by
  funext s t
  exact propext utf8_lt_iff

end Playfield.Text
