/-
  Playfield.Proofs.Packed.Truncation — bytes of a scene that are cut short are no scene.

  A reader that takes something off the front of some bytes takes the same off any longer ones
  (`LeavesRest`): a word, a head, a list of values, a value. So what it reads from a cut value
  it would read from the whole one as well and leave the missing bytes over, but of the whole
  one nothing is left over (`read_of_cuts`). The envelope of a scene is a head, two keys and two
  values, and wherever the cut falls, in the head, in a key or in a value, one of them is not
  read (`Envelope.read_of_cuts`). So no cut scene is accepted, and no scene's bytes begin
  another's (`truncated_pack_refused`).
-/

import Playfield.Proofs.Packed.Envelope
import Playfield.Proofs.Scene.Size

namespace Playfield

namespace Packed

/-! ## Readers -/

/-- What is read of some bytes is read of more bytes as well, and those are left over. -/
def LeavesRest {α : Type} (f : List UInt8 → Option (α × List UInt8)) : Prop :=
  ∀ bytes x rest more, f bytes = some (x, rest) → f (bytes ++ more) = some (x, rest ++ more)

theorem leavesRest_some {α : Type} (x : α) : LeavesRest fun bytes => some (x, bytes) := by
  intro bytes y rest more h
  cases h
  rfl

theorem leavesRest_none {α : Type} :
    LeavesRest fun _ => (none : Option (α × List UInt8)) := by
  intro bytes y rest more h
  cases h

theorem LeavesRest.map {α β : Type} {f : List UInt8 → Option (α × List UInt8)}
    (hf : LeavesRest f) (g : α → β) :
    LeavesRest fun bytes => (f bytes).map fun (x, rest) => (g x, rest) := by
  intro bytes y rest more h
  obtain ⟨⟨x, rest'⟩, hx, he⟩ := Option.map_eq_some_iff.1 h
  cases he
  simp only [hf _ _ _ more hx, Option.map_some]

/-! ## Words and heads -/

theorem takeBytes_leavesRest (n : Nat) : LeavesRest (takeBytes n) := by
  induction n with
  | zero => exact leavesRest_some []
  | succ n ih =>
    intro bytes taken rest more h
    cases bytes with
    | nil => cases h
    | cons b bytes => exact ih.map (b :: ·) bytes taken rest more h

theorem takeWord_leavesRest (width : Nat) : LeavesRest (takeWord width) :=
  (takeBytes_leavesRest width).map ofBigEndian

theorem readWhole_leavesRest (f : Nat → Value) (width : Nat) : LeavesRest (readWhole f width) :=
  (takeWord_leavesRest width).map fun n => Head.whole (f n)

theorem readBytes_leavesRest (f : List UInt8 → Head) (length : Nat) :
    LeavesRest (readBytes f length) :=
  (takeBytes_leavesRest length).map f

theorem readSized_leavesRest {f : Nat → List UInt8 → Option (Head × List UInt8)}
    (hf : ∀ length, LeavesRest (f length)) (width : Nat) : LeavesRest (readSized f width) := by
  intro bytes head rest more h
  unfold readSized at h ⊢
  split at h
  · rename_i length rest' hlength
    rw [takeWord_leavesRest width _ _ _ more hlength]
    exact hf length _ _ _ more h
  · cases h

theorem readHead_leavesRest : LeavesRest readHead := by
  intro bytes head rest more
  cases bytes with
  | nil => intro h; cases h
  | cons b bytes =>
    rw [List.cons_append]
    simp only [readHead]
    -- The first byte alone says how the others are read.
    split
    · exact leavesRest_some _ _ _ _ more
    split
    · exact leavesRest_some _ _ _ _ more
    split
    · exact leavesRest_some _ _ _ _ more
    split
    · exact readBytes_leavesRest _ _ _ _ _ more
    split
    · exact leavesRest_some _ _ _ _ more
    split <;> first
      | exact leavesRest_some _ _ _ _ more
      | exact readWhole_leavesRest _ _ _ _ _ more
      | exact readBytes_leavesRest _ _ _ _ _ more
      | exact readSized_leavesRest (fun _ => readBytes_leavesRest _ _) _ _ _ _ more
      | exact readSized_leavesRest (fun _ => leavesRest_some _) _ _ _ _ more
      | exact leavesRest_none bytes _ _ more

/-! ## Values -/

theorem readMany_leavesRest {α : Type} {f : List UInt8 → Option (α × List UInt8)}
    (hf : LeavesRest f) (n : Nat) : LeavesRest (readMany f n) := by
  induction n with
  | zero => exact leavesRest_some []
  | succ n ih =>
    intro bytes xs rest more h
    unfold readMany at h ⊢
    split at h
    · cases h
    · rename_i x rest' hx
      rw [hf _ _ _ more hx]
      exact ih.map (x :: ·) rest' xs rest more h

theorem readPair_leavesRest {α : Type} {f : List UInt8 → Option (α × List UInt8)}
    (hf : LeavesRest f) : LeavesRest (readPair f) := by
  intro bytes pair rest more h
  unfold readPair at h ⊢
  split at h
  · cases h
  · rename_i key rest' hkey
    rw [hf _ _ _ more hkey]
    exact hf.map (key, ·) rest' pair rest more h

/-- What a value says of its own length is all that is read of it. -/
theorem read_leavesRest (depth : Nat) : LeavesRest (Value.read depth) := by
  induction depth with
  | zero =>
    intro bytes v rest more h
    unfold Value.read at h ⊢
    split at h
    · rename_i hhead
      rw [readHead_leavesRest _ _ _ more hhead]
      cases h
      rfl
    · cases h
  | succ depth ih =>
    intro bytes v rest more h
    unfold Value.read at h ⊢
    split at h
    · cases h
    · rename_i hhead
      rw [readHead_leavesRest _ _ _ more hhead]
      cases h
      rfl
    · rename_i hhead
      rw [readHead_leavesRest _ _ _ more hhead]
      cases h
      rfl
    · rename_i n rest' hhead
      rw [readHead_leavesRest _ _ _ more hhead]
      exact (readMany_leavesRest ih n).map Value.array rest' v rest more h
    · rename_i n rest' hhead
      rw [readHead_leavesRest _ _ _ more hhead]
      exact (readMany_leavesRest (readPair_leavesRest ih) n).map Value.map rest' v rest more h

/-! ## Cuts -/

/-- Some bytes are the beginning of others and not all of them. -/
def Cuts (cut whole : List UInt8) : Prop :=
  cut <+: whole ∧ cut ≠ whole

theorem Cuts.append_cases {cut a b : List UInt8} (h : Cuts cut (a ++ b)) :
    Cuts cut a ∨ ∃ c, cut = a ++ c ∧ Cuts c b := by
  obtain ⟨⟨more, hmore⟩, hne⟩ := h
  rcases List.append_eq_append_iff.1 hmore with ⟨a', ha, -⟩ | ⟨c, hc, hb⟩
  · by_cases hall : cut = a
    · refine .inr ⟨[], by simp [hall], List.nil_prefix, ?_⟩
      rintro rfl
      exact hne (by simp [hall])
    · exact .inl ⟨⟨a', ha.symm⟩, hall⟩
  · refine .inr ⟨c, hc, ⟨more, hb.symm⟩, ?_⟩
    rintro rfl
    exact hne hc

/-- A value that is cut short is not read. -/
theorem read_of_cuts {depth : Nat} {v : Value} {cut : List UInt8} (hv : v.Within depth)
    (h : Cuts cut v.write) : Value.read depth cut = none := by
  obtain ⟨⟨more, hmore⟩, hne⟩ := h
  cases hread : Value.read depth cut with
  | none => rfl
  | some found =>
    obtain ⟨w, rest⟩ := found
    have hlong := read_leavesRest depth _ _ _ more hread
    have hwhole := read_of_within hv []
    rw [List.append_nil, ← hmore, hlong] at hwhole
    obtain ⟨-, hrest⟩ := Prod.mk.inj (Option.some.inj hwhole)
    obtain ⟨-, rfl⟩ := List.append_eq_nil_iff.1 hrest
    exact absurd (by simpa using hmore) hne

/-! ## Envelopes -/

theorem readVersion_of_cuts {version : UInt32} {cut : List UInt8}
    (h : Cuts cut (ofUInt32 version).write) : readVersion cut = .error .malformed := by
  rw [readVersion, read_of_cuts (within_ofUInt32 version maxDepth) h]
  rfl

theorem readScene_of_cuts {s : Scene} (hs : s.Short) {cut : List UInt8}
    (h : Cuts cut (ofScene s).write) : readScene cut = .error .malformed := by
  have hwithin := (within_ofScene hs).mono (show 6 ≤ maxDepth + 1 by decide)
  rw [readScene, read_of_cuts hwithin h]
  rfl

theorem readEntry_of_cutKey (e : Envelope) {name : String} (hname : Text.Short name)
    {cut : List UInt8} (h : Cuts cut (ofName name).write) : e.readEntry cut = .error .malformed := by
  rw [Envelope.readEntry, read_of_cuts (within_ofName hname maxDepth) h]
  rfl

theorem readEntry_version_of_cuts {e : Envelope} (he : e.version = none) {version : UInt32}
    {cut : List UInt8} (h : Cuts cut ((ofName "version").write ++ (ofUInt32 version).write)) :
    e.readEntry cut = .error .malformed := by
  rcases h.append_cases with hkey | ⟨c, rfl, hvalue⟩
  · exact readEntry_of_cutKey e (by decide) hkey
  · rw [readEntry_versionKey he, readVersion_of_cuts hvalue]
    rfl

theorem readEntry_scene_of_cuts {e : Envelope} (he : e.scene = none) {s : Scene} (hs : s.Short)
    {cut : List UInt8} (h : Cuts cut ((ofName "scene").write ++ (ofScene s).write)) :
    e.readEntry cut = .error .malformed := by
  rcases h.append_cases with hkey | ⟨c, rfl, hvalue⟩
  · exact readEntry_of_cutKey e (by decide) hkey
  · rw [readEntry_sceneKey he, readScene_of_cuts hs hvalue]
    rfl

/-- Reading an envelope that is cut short fails, wherever the cut falls. -/
theorem Envelope.read_of_cuts {version : UInt32} {s : Scene} (hs : s.Short) {cut : List UInt8}
    (h : Cuts cut (ofEnvelope version s).write) : Envelope.read cut = .error .malformed := by
  rw [write_ofEnvelope] at h
  rcases h.append_cases with hhead | ⟨entries, rfl, hentries⟩
  · have hnil : cut = [] := by
      obtain ⟨hbegins, hne⟩ := hhead
      rcases List.prefix_cons_iff.1 hbegins with hcut | ⟨rest, hcut, hrest⟩
      · exact hcut
      · cases List.prefix_nil.1 hrest
        exact absurd hcut hne
    subst hnil
    rfl
  rw [Envelope.read, readHead_mapHead (by decide)]
  simp only [readEntries]
  rw [← List.append_assoc] at hentries
  rcases hentries.append_cases with hversion | ⟨scene, rfl, hscene⟩
  · rw [readEntry_version_of_cuts rfl hversion]
  · rw [List.append_assoc, readEntry_version rfl]
    simp only
    rw [readEntry_scene_of_cuts rfl hs hscene]

end Packed

namespace Scene

open Packed

theorem unpack_of_cuts {version : UInt32} {s : Scene} (hs : s.Short) {cut : List UInt8}
    (h : Cuts cut (ofEnvelope version s).write) : unpack cut = .error .malformed := by
  rw [unpack, Envelope.read_of_cuts hs h]
  rfl

/-- Scenes are known by their bytes. -/
theorem eq_of_pack_eq {s t : Scene} (hs : s.Short) (ht : t.Short) (h : s.pack = t.pack) :
    s = t := by
  rw [pack, pack, write_ofEnvelope, write_ofEnvelope] at h
  have hwrite : (ofScene s).write = (ofScene t).write := by
    simpa only [List.append_cancel_left_eq] using h
  have hread := read_of_within (within_ofScene hs) []
  rw [hwrite, read_of_within (within_ofScene ht)] at hread
  obtain ⟨hvalue, -⟩ := Prod.mk.inj (Option.some.inj hread)
  have hscene := scene?_ofScene maxDepth s
  rw [← hvalue, scene?_ofScene] at hscene
  exact (Option.some.inj hscene).symm

/-- A scene's bytes do not begin another scene's. -/
theorem eq_of_pack_prefix {s t : Scene} (hs : s.Short) (ht : t.Short) (h : s.pack <+: t.pack) :
    s = t := by
  by_cases heq : s.pack = t.pack
  · exact eq_of_pack_eq hs ht heq
  · have hrefused : unpack s.pack = .error .malformed := unpack_of_cuts ht ⟨h, heq⟩
    rw [pack, unpack_write formatVersion hs] at hrefused
    cases hflaw : s.flaw? <;> simp [hflaw] at hrefused

/-- Bytes of a scene that are cut short, be it to none, are refused as no packed scene, and so
no scene's bytes begin another's. This holds of all scenes whose names and counts are short,
which those are that were unpacked or were built from a text of less than four gigabytes. -/
theorem truncated_pack_refused (s : Scene) :
    (s.Short →
      (∀ cut, cut <+: s.pack → cut ≠ s.pack →
        ∃ why, unpack cut = .error why ∧ why.fault = .packing none) ∧
      ∀ t : Scene, t.Short → s.pack <+: t.pack → s = t) ∧
    (∀ bytes, unpack bytes = .ok s → s.Short) ∧
      ∀ settings text, text.utf8ByteSize < 2 ^ 32 → ofText settings text = .ok s → s.Short := by
  refine ⟨fun hs => ⟨fun cut hbegins hne => ?_, fun t ht => eq_of_pack_prefix hs ht⟩, ?_, ?_⟩
  · exact ⟨.malformed, unpack_of_cuts hs ⟨hbegins, hne⟩, rfl⟩
  · exact fun bytes h => (good_of_unpack h).2
  · exact fun settings text hsize h => short_of_ofText hsize h

/-- The bytes of a board with an absorber are refused without the last one, and without all. -/
theorem truncated_absorber_refused :
    let text := "board name=b\nabsorber name=a x=-3 y=7 width=2 height=300"
    let g : Gadget := { name := "a", origin := ⟨-3, 7⟩, kind := .absorber 2 300, line := 2 }
    let s : Scene :=
      { name := "b", gravity := ⟨0x4039000000000000⟩, friction1 := ⟨0x3f9999999999999a⟩
        friction2 := ⟨0x3f9999999999999a⟩, registry := ⟨NameMap.empty.insert "a" g⟩
        wiring := ⟨NameMap.empty.insert "a" .empty⟩
        timeStep := ⟨0x3fa999999999999a⟩, balls := [] }
    ofText {} text = .ok s ∧ s.Short ∧ unpack s.pack = .ok s ∧
      (∃ why, unpack s.pack.dropLast = .error why) ∧ ∃ why, unpack [] = .error why := by
  intro text g s
  have hbuilt : ofText {} text = .ok s := by decide +kernel
  obtain ⟨hrefused, -, hshort⟩ := truncated_pack_refused s
  have hs : s.Short := hshort {} text (by decide +kernel) hbuilt
  have hsound : s.Sound := flaw?_eq_none_iff.1 (by decide +kernel)
  obtain ⟨hcut, -⟩ := hrefused hs
  obtain ⟨why, hwhy, -⟩ := hcut s.pack.dropLast (List.dropLast_prefix _) (by decide +kernel)
  obtain ⟨why', hwhy', -⟩ := hcut [] List.nil_prefix (by decide +kernel)
  exact ⟨hbuilt, hs, unpack_pack hsound hs, ⟨why, hwhy⟩, why', hwhy'⟩

end Scene

end Playfield
