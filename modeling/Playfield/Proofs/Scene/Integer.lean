/-
  Playfield.Proofs.Scene.Integer — integers read digit by digit in 32 bits.

  A reader of integers never holds more than 32 bits. It multiplies by ten, adds or takes away a
  digit, and gives up at the first of these steps that leaves the range. The digits read so far
  are worth `k`, and the integer held is `k` on its side of zero:
  - One more digit takes the reader from `k` to `10 * k + d`, and the multiplication leaves the
    range only if the whole step does (`appendDigit?_eq`).
  - More digits never bring a number back that has left the range, so the reader gives up exactly
    when the number that all digits spell does not fit (`foldlM_takeDigit`).

  So digits are read as what they spell, or refused on the side of zero where that lies
  (`integer?_of_digits`).
-/

import Playfield.Scene.Decode

namespace Playfield.Decode

open Text (digitValue digitsValue readInteger? splitSign)

variable {text : String} {negative : Bool} {ds : List Char} {k : Nat} {n i : Int32}

/-! ## One digit -/

/-- The whole number of a size, on one side of zero. -/
def signed (negative : Bool) (k : Nat) : Int :=
  if negative then -k else k

@[simp] theorem signed_true (k : Nat) : signed true k = -k := rfl

@[simp] theorem signed_false (k : Nat) : signed false k = k := rfl

theorem fitting?_eq_some_iff {m : Int} : fitting? m = some i ↔ i.toInt = m := by
  have hlo := i.le_toInt
  have hhi := i.toInt_lt
  unfold fitting?
  split
  · rw [Option.some.injEq]
    constructor
    · intro hi
      rw [← hi]
      exact Int32.toInt_ofInt_of_le (by omega) (by omega)
    · intro hi
      rw [← hi]
      exact Int32.ofInt_toInt i
  · simp only [reduceCtorEq, false_iff]
    omega

theorem fitting?_eq_none_iff {m : Int} :
    fitting? m = none ↔ m < -0x80000000 ∨ 0x80000000 ≤ m := by
  unfold fitting?
  split
  · simp only [reduceCtorEq, false_iff]
    omega
  · simp only [true_iff]
    omega

/-- A digit more is worth `10 * k + d`; the step is taken if that fits. -/
theorem appendDigit?_eq (hn : n.toInt = signed negative k) (d : Nat) :
    appendDigit? negative n d = fitting? (signed negative (10 * k + d)) := by
  unfold appendDigit?
  cases hshifted : fitting? (10 * n.toInt) with
  | none =>
    rw [fitting?_eq_none_iff, hn] at hshifted
    refine (fitting?_eq_none_iff.2 ?_).symm
    cases negative <;> simp only [signed_true, signed_false] at hshifted ⊢ <;> omega
  | some shifted =>
    rw [fitting?_eq_some_iff, hn] at hshifted
    refine congrArg fitting? ?_
    cases negative
    · simp only [hshifted, signed_false, Bool.false_eq_true, if_false]
      omega
    · simp only [hshifted, signed_true, if_true]
      omega

/-! ## All digits -/

/-- Digits behind others make the number no smaller. -/
theorem le_foldl_digits (ds : List Char) (k : Nat) :
    k ≤ ds.foldl (fun k c => 10 * k + digitValue c) k := by
  induction ds generalizing k with
  | nil => exact Nat.le_refl k
  | cons c ds ih => exact Nat.le_trans (by omega) (ih (10 * k + digitValue c))

/-- A number that has left the range stays outside when it grows. -/
theorem fitting?_signed_none {l : Nat} (h : fitting? (signed negative k) = none) (hle : k ≤ l) :
    fitting? (signed negative l) = none := by
  rw [fitting?_eq_none_iff] at h ⊢
  cases negative <;> simp only [signed_true, signed_false] at h ⊢ <;> omega

/-- Reading on from `k` gives what all digits spell, if that fits. -/
theorem foldlM_takeDigit (hn : n.toInt = signed negative k) (hds : ∀ c ∈ ds, c.isDigit = true) :
    ds.foldlM (takeDigit text negative) n =
      match fitting? (signed negative (ds.foldl (fun k c => 10 * k + digitValue c) k)) with
      | some i => .ok i
      | none => .error (if negative then .tooSmall text else .tooLarge text) := by
  induction ds generalizing n k with
  | nil => rw [List.foldl_nil, fitting?_eq_some_iff.2 hn]; rfl
  | cons c ds ih =>
    obtain ⟨hc, hds⟩ := List.forall_mem_cons.1 hds
    rw [List.foldlM_cons, List.foldl_cons, takeDigit, if_pos hc, appendDigit?_eq hn]
    cases hstep : fitting? (signed negative (10 * k + digitValue c)) with
    | none => rw [fitting?_signed_none hstep (le_foldl_digits ds _)]; rfl
    | some m => exact ih (fitting?_eq_some_iff.1 hstep) hds

theorem isDigit_of_foldlM (h : ds.foldlM (takeDigit text negative) n = .ok i) :
    ∀ c ∈ ds, c.isDigit = true := by
  induction ds generalizing n with
  | nil => simp
  | cons c ds ih =>
    rw [List.foldlM_cons, takeDigit] at h
    split at h
    · next hc =>
      split at h
      · exact List.forall_mem_cons.2 ⟨hc, ih h⟩
      · cases h
    · cases h

/-! ## Texts -/

/-- Digits are read as what they spell. If that does not fit, they are refused on their side of
zero. -/
theorem integer?_of_digits (htext : splitSign text.toList = (negative, ds)) (hne : ds ≠ [])
    (hds : ∀ c ∈ ds, c.isDigit = true) :
    integer? text =
      match fitting? (signed negative (digitsValue ds)) with
      | some i => .ok i
      | none => .error (if negative then .tooSmall text else .tooLarge text) := by
  have hempty : ds.isEmpty = false := by simpa using hne
  have hzero : (0 : Int32).toInt = signed negative 0 := by cases negative <;> rfl
  simp only [integer?, htext, hempty, Bool.false_eq_true, if_false]
  exact foldlM_takeDigit hzero hds

theorem readInteger?_of_digits {cs : List Char} (hcs : splitSign cs = (negative, ds))
    (hne : ds ≠ []) (hds : ∀ c ∈ ds, c.isDigit = true) :
    readInteger? cs = some (signed negative (digitsValue ds)) := by
  have hdigits : (ds.isEmpty || !ds.all Char.isDigit) = false := by simpa [hne] using hds
  simp only [readInteger?, hcs, hdigits, Bool.false_eq_true, if_false]
  rfl

theorem integer?_eq_ok_iff :
    integer? text = .ok i ↔ readInteger? text.toList = some i.toInt := by
  obtain ⟨negative, ds, htext⟩ : ∃ negative ds, splitSign text.toList = (negative, ds) :=
    ⟨_, _, rfl⟩
  by_cases hdigits : ds ≠ [] ∧ ∀ c ∈ ds, c.isDigit = true
  · obtain ⟨hne, hds⟩ := hdigits
    rw [integer?_of_digits htext hne hds, readInteger?_of_digits htext hne hds, Option.some.injEq,
      eq_comm (b := i.toInt), ← fitting?_eq_some_iff]
    cases fitting? (signed negative (digitsValue ds)) <;> simp
  · -- neither reader takes what is not all digits
    constructor
    · intro h
      simp only [integer?, htext] at h
      split at h
      · cases h
      · next hempty => exact absurd ⟨by simpa using hempty, isDigit_of_foldlM h⟩ hdigits
    · intro h
      cases hrefused : ds.isEmpty || !ds.all Char.isDigit with
      | false => exact absurd (by simpa using hrefused) hdigits
      | true =>
        simp only [readInteger?, htext, hrefused, if_true] at h
        cases h

end Playfield.Decode
