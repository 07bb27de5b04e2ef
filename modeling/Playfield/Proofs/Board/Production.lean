/-
  Playfield.Proofs.Board.Production — which sentences a production takes.

  A sentence fits some slots when every key it gives has a slot that takes its value, no key is
  given twice, and no required key is left out. Nothing here depends on the order of fields or
  slots. A line passes the check of its production exactly when its sentence fits
  (`checkLine_eq_ok_iff`).
-/

import Mathlib.Data.List.Nodup
import Playfield.Board.Production
import Playfield.Proofs.Source.Grammar

namespace Playfield.Board

open Source

/-- The slots take what the sentence gives, and it gives what they require. -/
structure Fits (x : Sentence) (slots : List Slot) : Prop where
  known : ∀ e ∈ x.entries, ∃ slot ∈ slots, slot.key = e.key ∧ slot.takes.accepts e.kind = true
  once : (x.entries.map (·.key)).Nodup
  required : ∀ slot ∈ slots, slot.required = true → ∃ e ∈ x.entries, e.key = slot.key

/-! ## Looking up keys -/

/-- Where keys differ, the first with a key is the only one. -/
theorem find?_key_eq_some_iff {α : Type} {key : α → String} {l : List α}
    (h : (l.map key).Nodup) {name : String} {x : α} :
    l.find? (key · == name) = some x ↔ x ∈ l ∧ key x = name := by
  refine ⟨fun hfind => ?_, fun h' => ?_⟩
  · exact ⟨List.mem_of_find?_eq_some hfind, by simpa using List.find?_some hfind⟩
  · obtain ⟨hmem, rfl⟩ := h'
    obtain ⟨y, hy⟩ : ∃ y, l.find? (key · == key x) = some y :=
      Option.isSome_iff_exists.1 (List.find?_isSome.2 ⟨x, hmem, by simp⟩)
    have hkey : key y = key x := by simpa using List.find?_some hy
    rw [hy, List.inj_on_of_nodup_map h (List.mem_of_find?_eq_some hy) hmem hkey]

theorem value?_eq_some_iff {line : Line} (h : (line.fields.map (·.key)).Nodup) {key : String}
    {l : Literal} : line.value? key = some l ↔ ∃ f ∈ line.fields, f.key = key ∧ f.value = l := by
  simp only [Line.value?, Line.field?, Option.map_eq_some_iff, find?_key_eq_some_iff h, and_assoc]

theorem exists_value?_iff {line : Line} {key : String} :
    (∃ l, line.value? key = some l) ↔ ∃ f ∈ line.fields, f.key = key := by
  rw [← Option.isSome_iff_exists, Line.value?, Option.isSome_map, Line.field?, List.find?_isSome]
  simp

theorem require_eq_ok_iff {line : Line} {key : String} {l : Literal} :
    require line key = .ok l ↔ line.value? key = some l := by
  unfold require
  cases line.value? key <;> simp

/-! ## Checking -/

theorem checkField_eq_ok_iff {slots : List Slot} (h : (slots.map (·.key)).Nodup)
    {keyword : String} {earlier : List String} {f : Field} :
    checkField slots keyword earlier f = .ok () ↔
      (∃ slot ∈ slots, slot.key = f.key ∧ slot.takes.accepts f.value.kind = true) ∧
        f.key ∉ earlier := by
  unfold checkField
  cases hfind : slots.find? (·.key == f.key) with
  | none =>
    rw [List.find?_eq_none] at hfind
    refine ⟨fun h' => ?_, fun h' => ?_⟩
    · cases h'
    · obtain ⟨⟨slot, hmem, hkey, -⟩, -⟩ := h'
      exact absurd (by simpa using hkey) (hfind slot hmem)
  | some slot =>
    obtain ⟨hmem, hkey⟩ := (find?_key_eq_some_iff h).1 hfind
    have hslot : (∃ slot ∈ slots, slot.key = f.key ∧ slot.takes.accepts f.value.kind = true) ↔
        slot.takes.accepts f.value.kind = true := by
      refine ⟨fun h' => ?_, fun haccepts => ?_⟩
      · obtain ⟨slot', hmem', hkey', haccepts⟩ := h'
        rwa [List.inj_on_of_nodup_map h hmem hmem' (hkey.trans hkey'.symm)]
      · exact ⟨slot, hmem, hkey, haccepts⟩
    rw [hslot]
    by_cases hearlier : f.key ∈ earlier
    · simp [hearlier]
    · cases haccepts : slot.takes.accepts f.value.kind <;> simp [hearlier, haccepts]

theorem checkFields_eq_ok_iff {slots : List Slot} (h : (slots.map (·.key)).Nodup)
    {keyword : String} {earlier : List String} {fields : List Field} :
    checkFields slots keyword earlier fields = .ok () ↔
      (∀ f ∈ fields, ∃ slot ∈ slots, slot.key = f.key ∧ slot.takes.accepts f.value.kind = true) ∧
        (fields.map (·.key)).Nodup ∧ ∀ f ∈ fields, f.key ∉ earlier := by
  induction fields generalizing earlier with
  | nil => simp [checkFields]
  | cons f fields ih =>
    unfold checkFields
    cases hf : checkField slots keyword earlier f with
    | error m =>
      have hnot := mt (checkField_eq_ok_iff h).2 (by rw [hf]; exact nofun)
      refine ⟨fun h' => ?_, fun h' => ?_⟩
      · cases h'
      · obtain ⟨hknown, -, hearlier⟩ := h'
        exact absurd ⟨hknown f List.mem_cons_self, hearlier f List.mem_cons_self⟩ hnot
    | ok _ =>
      obtain ⟨hslot, hnot⟩ := (checkField_eq_ok_iff h).1 hf
      rw [List.map_cons, List.nodup_cons, List.forall_mem_cons, List.forall_mem_cons]
      refine ih.trans ⟨?_, ?_⟩
      · intro h'
        obtain ⟨hknown, hnodup, hkeys⟩ := h'
        refine ⟨⟨hslot, hknown⟩, ⟨fun hmem => ?_, hnodup⟩, hnot, fun g hg => ?_⟩
        · obtain ⟨g, hg, hkey⟩ := List.mem_map.1 hmem
          exact hkeys g hg (hkey ▸ List.mem_cons_self)
        · exact fun hmem => hkeys g hg (List.mem_cons_of_mem _ hmem)
      · intro h'
        obtain ⟨⟨-, hknown⟩, ⟨hne, hnodup⟩, -, hkeys⟩ := h'
        refine ⟨hknown, hnodup, fun g hg hmem => ?_⟩
        rcases List.mem_cons.1 hmem with hkey | hmem
        · exact hne (hkey ▸ List.mem_map_of_mem hg)
        · exact hkeys g hg hmem

theorem checkRequired_eq_ok_iff {line : Line} {slots : List Slot} :
    checkRequired line slots = .ok () ↔
      ∀ slot ∈ slots, slot.required = true → ∃ f ∈ line.fields, f.key = slot.key := by
  induction slots with
  | nil => simp [checkRequired]
  | cons slot slots ih =>
    simp only [checkRequired, List.forall_mem_cons, ← exists_value?_iff] at ih ⊢
    cases hrequired : slot.required with
    | false => simp [ih]
    | true =>
      unfold require
      cases line.value? slot.key <;> simp [ih]

/-- The check of a line says whether its sentence fits. -/
theorem checkLine_eq_ok_iff {slots : List Slot} (h : (slots.map (·.key)).Nodup) {line : Line} :
    checkLine slots line = .ok () ↔ Fits line.sentence slots := by
  have hknown : (∀ e ∈ line.sentence.entries, ∃ slot ∈ slots, slot.key = e.key ∧
      slot.takes.accepts e.kind = true) ↔ ∀ f ∈ line.fields, ∃ slot ∈ slots, slot.key = f.key ∧
      slot.takes.accepts f.value.kind = true := List.forall_mem_map
  have hkeys : line.sentence.entries.map (·.key) = line.fields.map (·.key) := List.map_map
  have hgiven (key : String) : (∃ e ∈ line.sentence.entries, e.key = key) ↔
      ∃ f ∈ line.fields, f.key = key := by
    simp [Line.sentence, Field.entry]
  unfold checkLine
  cases hfields : checkFields slots line.keyword [] line.fields with
  | error m =>
    have hnot := mt (checkFields_eq_ok_iff h).2 (by rw [hfields]; exact nofun)
    refine ⟨fun h' => ?_, fun hfits => ?_⟩
    · cases h'
    · exact absurd ⟨hknown.1 hfits.known, hkeys ▸ hfits.once, fun _ _ => List.not_mem_nil⟩ hnot
  | ok _ =>
    obtain ⟨hknown', hnodup, -⟩ := (checkFields_eq_ok_iff h).1 hfields
    simp only [checkRequired_eq_ok_iff]
    refine ⟨fun hrequired => ?_, fun hfits slot hslot hreq => ?_⟩
    · refine ⟨hknown.2 hknown', hkeys ▸ hnodup, fun slot hslot hreq => ?_⟩
      exact (hgiven _).2 (hrequired slot hslot hreq)
    · exact (hgiven _).1 (hfits.required slot hslot hreq)

end Playfield.Board
