/-
  Playfield.Proofs.Source.Resume — a reader that goes on after a fault.

  A reading leaves the token that it stopped at as the first of the unread ones, and the next
  reading begins there, be it in the middle of a line: what was a key or a value may now be a
  keyword. All that a reading hands on is its unread tokens (`leave`), so the readings of a text
  are the iterates of one step on tokens.
  - A step leaves a suffix of what it was given, and the tokens of a text begin at different
    offsets (`Tiles.starts`). So the step has left all tokens alone as soon as it stops twice at
    the same one (`leave_eq_of_found`), and then it always will.
  - A reading that comes to the end leaves the end of input alone, and this reads as no line
    (`leave_of_none`).
  - Until one of the two happens each reading leaves fewer tokens (`length_leave_lt`), so it
    happens within one reading more than there are tokens (`exists_settled`).

  Together: `readings_resume`.
-/

import Playfield.Proofs.Source.Composition
import Playfield.Proofs.Source.Numbering

namespace Playfield.Source

open String (utf8Len utf8Len_append)

/-! ## One reading -/

/-- What a reading leaves unread, and the next one begins with. -/
def leave (ts : List Token) : List Token :=
  (readLines ts).rest

theorem leave_suffix (ts : List Token) : leave ts <:+ ts :=
  rest_of_readLines ts

/-- The tokens begin one behind the other, and the end of input comes last. -/
structure InOrder (ts : List Token) : Prop where
  closed : Closed ts
  starts : ts.Pairwise fun t u => t.span.start < u.span.start

theorem Tiles.starts {before rest : List Char} {ts : List Token} (h : Tiles before rest ts) :
    ts.Pairwise fun t u => t.span.start < u.span.start := by
  induction h with
  | inputEnd _ _ _ => exact List.pairwise_singleton _ _
  | @cons before gap text rest t ts _ htext hstands htiles ih =>
    refine List.pairwise_cons.2 ⟨fun u hu => ?_, ih⟩
    have hle := htiles.le_start hu
    obtain ⟨c, cs, rfl⟩ := List.exists_cons_of_ne_nil htext
    have hlt := utf8Len_lt_append_cons (before ++ gap) cs c
    rw [hstands.start]
    omega

theorem inOrder_tokens (source : String) : InOrder (tokens source) where
  closed := (Cursor.ofString source).tokens_closed
  starts := (tiles_tokens source).starts

section

variable {ts : List Token}

theorem InOrder.leave (h : InOrder ts) : InOrder (leave ts) where
  closed := h.closed.readLines
  starts := h.starts.sublist (leave_suffix ts).sublist

/-- The reading stops at the first token that it leaves. -/
theorem InOrder.leave_eq_cons (h : InOrder ts) :
    ∃ us, Source.leave ts = (readLines ts).found :: us := by
  obtain ⟨t, us, hleave⟩ := List.exists_cons_of_ne_nil h.leave.closed.ne_nil
  have hrest : (readLines ts).rest = t :: us := hleave
  refine ⟨us, ?_⟩
  rw [hleave, Reading.found, hrest]
  rfl

/-- A suffix that begins with the same token is the whole. -/
theorem InOrder.eq_of_suffix {t : Token} {us us' : List Token} (h : InOrder (t :: us))
    (hsuffix : t :: us' <:+ t :: us) : t :: us' = t :: us := by
  rcases List.suffix_cons_iff.1 hsuffix with heq | hin
  · exact heq
  · have hmem : t ∈ us := hin.subset List.mem_cons_self
    have hlt := List.rel_of_pairwise_cons h.starts hmem
    omega

/-- A reading that stops where the one before it did leaves everything as it was. -/
theorem leave_eq_of_found (h : InOrder ts)
    (hfound : (readLines (leave ts)).found = (readLines ts).found) :
    leave (leave ts) = leave ts := by
  obtain ⟨us, hus⟩ := h.leave_eq_cons
  obtain ⟨us', hus'⟩ := h.leave.leave_eq_cons
  have hsuffix := leave_suffix (leave ts)
  have horder := h.leave
  rw [hus', hfound] at hsuffix ⊢
  rw [hus] at hsuffix horder ⊢
  exact horder.eq_of_suffix hsuffix

/-- A reading that does not stop where the one before it did leaves fewer tokens. -/
theorem length_leave_lt
    (hfound : (readLines (leave ts)).found ≠ (readLines ts).found) :
    (leave (leave ts)).length < (leave ts).length := by
  have hsuffix := leave_suffix (leave ts)
  by_contra hge
  have hsame : leave (leave ts) = leave ts := hsuffix.eq_of_length_le (by omega)
  apply hfound
  show (leave (leave ts)).headD _ = (leave ts).headD _
  rw [hsame]

theorem readLines_of_inputEnd {t : Token} (ht : t.kind = .inputEnd) :
    readLines [t] = { lines := [], missing := none, rest := [t] } := by
  obtain ⟨kind, s⟩ := t
  cases ht
  rw [readLines]

/-- Where nothing is missing only the end of input is left. -/
theorem leave_of_none (hclosed : Closed ts) (h : (readLines ts).missing = none) :
    ∃ t, leave ts = [t] ∧ t.kind = .inputEnd := by
  unfold leave
  fun_induction readLines ts with
  | case1 => exact absurd rfl hclosed.ne_nil
  | case2 s ts =>
    cases hclosed.tail_eq_nil rfl
    exact ⟨_, rfl, rfl⟩
  | case3 text s ts ih => exact ih hclosed.tail h
  | case4 s ts ih => exact ih hclosed.tail h
  | case5 => cases h
  | case6 keyword s ts fields rest hfields _ after ih =>
    have hrest := hclosed.tail.readFields
    rw [hfields] at hrest
    exact ih hrest h
  | case7 => cases h

end

/-! ## One reading after the other -/

/-- The reading with a number, counted from 0. Each goes on where the one before it stopped. -/
def nthReading (source : String) (k : Nat) : Reading :=
  readLines (leave^[k] (tokens source))

theorem rereadings_eq (count : Nat) (ts : List Token) :
    rereadings count ts = (List.range count).map fun k => readLines (leave^[k] ts) := by
  induction count generalizing ts with
  | zero => rfl
  | succ n ih =>
    rw [List.range_succ_eq_map, List.map_cons, List.map_map]
    show readLines ts :: rereadings n (leave ts) = _
    rw [ih]
    rfl

/-- The reading stops at the token, and the token is what its fault shows. -/
def Reading.FailsAt (r : Reading) (source : String) (t : Token) : Prop :=
  r.found = t ∧ ∃ detail, r.result source = .error (faultAt source t.span detail)

theorem Reading.failsAt_iff {r : Reading} {source : String} {t : Token} :
    r.FailsAt source t ↔ r.found = t ∧ r.missing ≠ none := by
  unfold FailsAt result
  constructor
  · rintro ⟨hfound, detail, hresult⟩
    refine ⟨hfound, fun hnone => ?_⟩
    rw [hnone] at hresult
    cases hresult
  · rintro ⟨rfl, hmissing⟩
    cases hm : r.missing with
    | none => exact absurd hm hmissing
    | some e => exact ⟨rfl, _, rfl⟩

theorem Reading.missing_of_result {r : Reading} {source : String} {lines : List Line}
    (h : r.result source = .ok lines) : r.missing = none := by
  unfold result at h
  split at h
  · assumption
  · cases h

section

variable (source : String)

theorem inOrder_iterate (k : Nat) : InOrder (leave^[k] (tokens source)) := by
  induction k with
  | zero => exact inOrder_tokens source
  | succ k ih =>
    rw [Function.iterate_succ_apply']
    exact ih.leave

/-- What is unread begins with the token that the last reading stopped at. -/
theorem unread_eq_cons (k : Nat) :
    ∃ us, leave^[k + 1] (tokens source) = (nthReading source k).found :: us := by
  rw [Function.iterate_succ_apply']
  exact (inOrder_iterate source k).leave_eq_cons

theorem suffix_of_le {j k : Nat} (h : j ≤ k) :
    leave^[k] (tokens source) <:+ leave^[j] (tokens source) := by
  induction h with
  | refl => exact List.suffix_rfl
  | step _ ih =>
    rw [Function.iterate_succ_apply']
    exact (leave_suffix _).trans ih

theorem found_start_le {j k : Nat} (h : j ≤ k) :
    (nthReading source j).found.span.start ≤ (nthReading source k).found.span.start := by
  obtain ⟨us, hus⟩ := unread_eq_cons source j
  obtain ⟨us', hus'⟩ := unread_eq_cons source k
  have hsuffix := suffix_of_le source (Nat.succ_le_succ h)
  have horder := inOrder_iterate source (j + 1)
  rw [hus', hus] at hsuffix
  rw [hus] at horder
  rcases List.mem_cons.1 (hsuffix.subset List.mem_cons_self) with heq | hmem
  · rw [heq]
  · exact (List.rel_of_pairwise_cons horder.starts hmem).le

/-- Once a reading leaves everything as it was, so do all that follow. -/
theorem nthReading_of_fixed {k : Nat}
    (h : leave (leave^[k] (tokens source)) = leave^[k] (tokens source)) {j : Nat} (hj : k ≤ j) :
    nthReading source j = nthReading source k := by
  obtain ⟨m, rfl⟩ := Nat.exists_eq_add_of_le' hj
  unfold nthReading
  rw [Function.iterate_add_apply, Function.iterate_fixed h]

/-- Behind a reading that came to the end there is nothing to be read. -/
theorem nthReading_of_none {j k : Nat} (hjk : j < k) (h : (nthReading source j).missing = none) :
    (nthReading source k).result source = .ok [] := by
  obtain ⟨t, hleave, hend⟩ := leave_of_none (inOrder_iterate source j).closed h
  have hunread : leave^[j + 1] (tokens source) = [t] := by
    rw [Function.iterate_succ_apply', hleave]
  have hread : nthReading source (j + 1) = { lines := [], missing := none, rest := [t] } := by
    rw [nthReading, hunread, readLines_of_inputEnd hend]
  have hfixed : leave (leave^[j + 1] (tokens source)) = leave^[j + 1] (tokens source) := by
    rw [hunread, leave, readLines_of_inputEnd hend]
  rw [nthReading_of_fixed source hfixed hjk, hread]
  rfl

theorem nthReading_of_found {k : Nat}
    (h : (nthReading source (k + 1)).found = (nthReading source k).found) {j : Nat} (hj : k < j) :
    nthReading source j = nthReading source (k + 1) := by
  refine nthReading_of_fixed source ?_ hj
  rw [nthReading, Function.iterate_succ_apply'] at h
  rw [Function.iterate_succ_apply']
  exact leave_eq_of_found (inOrder_iterate source k) h

/-! ## How many readings it takes -/

/-- As long as no two readings in a row stop at one token, each leaves at least one token fewer
than the one before it. -/
theorem length_unread_le {n : Nat}
    (h : ∀ k < n, (nthReading source (k + 1)).found ≠ (nthReading source k).found) :
    (leave^[n + 1] (tokens source)).length + n ≤ (tokens source).length := by
  induction n with
  | zero => exact (leave_suffix (tokens source)).length_le
  | succ n ih =>
    have hle := ih fun k hk => h k (by omega)
    have hne := h n (by omega)
    rw [nthReading, Function.iterate_succ_apply'] at hne
    have hlt := length_leave_lt hne
    rw [Function.iterate_succ_apply', Function.iterate_succ_apply']
    rw [Function.iterate_succ_apply'] at hle
    omega

theorem exists_settled :
    ∃ k < (tokens source).length,
      (nthReading source (k + 1)).found = (nthReading source k).found := by
  by_contra hnone
  push Not at hnone
  have hle := length_unread_le source hnone
  obtain ⟨us, hus⟩ := unread_eq_cons source (tokens source).length
  rw [hus, List.length_cons] at hle
  omega

end

/-- The results of reading a text again and again, each time from where the last reading
stopped. -/
structure Resumes (source : String) (call : Nat → Reading) : Prop where
  calls : ∀ count, readings source count = (List.range count).map call
  /-- No fault stands in front of an earlier one. -/
  onward : ∀ j k t u, j ≤ k → (call j).FailsAt source t → (call k).FailsAt source u →
    t.span.start ≤ u.span.start
  /-- Once the end is reached there are no more lines and no more faults. -/
  done : ∀ j k lines, j < k → (call j).result source = .ok lines →
    (call k).result source = .ok []
  /-- Two faults in a row at one token: the second one stays for good. -/
  stuck : ∀ k t, (call k).FailsAt source t → (call (k + 1)).FailsAt source t →
    ∀ j, k < j → (call j).result source = (call (k + 1)).result source
  /-- One of the two has happened when as many calls as there are tokens, and one more, are
  made. -/
  settles : ∃ k ≤ (tokens source).length,
    (∃ lines, (call k).result source = .ok lines) ∨
      k < (tokens source).length ∧
        ∃ t, (call k).FailsAt source t ∧ (call (k + 1)).FailsAt source t

/-- A reader that goes on after its faults gets ahead until it is done or stuck for good. -/
theorem readings_resume (source : String) : Resumes source (nthReading source) where
  calls count := rereadings_eq count (tokens source)
  onward j k t u hjk hj hk := by
    obtain ⟨rfl, -⟩ := hj
    obtain ⟨rfl, -⟩ := hk
    exact found_start_le source hjk
  done j k lines hjk hj := nthReading_of_none source hjk (Reading.missing_of_result hj)
  stuck k t hk hk' j hj := by
    rw [nthReading_of_found source (hk'.1.trans hk.1.symm) hj]
  settles := by
    obtain ⟨k, hk, hfound⟩ := exists_settled source
    by_cases hnow : (nthReading source k).missing = none
    · exact ⟨k, hk.le, .inl ⟨_, by rw [Reading.result, hnow]⟩⟩
    by_cases hnext : (nthReading source (k + 1)).missing = none
    · exact ⟨k + 1, hk, .inl ⟨_, by rw [Reading.result, hnext]⟩⟩
    exact ⟨k, hk.le, .inr ⟨hk, _, Reading.failsAt_iff.2 ⟨rfl, hnow⟩,
      Reading.failsAt_iff.2 ⟨hfound, hnext⟩⟩⟩

/-- The value of a field without `=` is the keyword of the next reading, and the second fault at
one token is not the first one: only from there on they are all the same. -/
example :
    let source := "ball name A=1"
    let fault := fun column detail => Except.error (.malformed detail 1 column source)
    (readings source 4).map (·.result source) =
      [fault 11 "expected '=', found name", fault 12 "expected a field name, found '='",
        fault 12 "expected a declaration keyword, found '='",
        fault 12 "expected a declaration keyword, found '='"] := by
  decide +kernel

end Playfield.Source
