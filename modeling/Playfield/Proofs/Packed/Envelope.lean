/-
  Playfield.Proofs.Packed.Envelope — what is made of the bytes of an envelope.

  On the bytes of an envelope that was written, reading is known completely: the flaw of the
  scene, or the foreign version, or the scene itself (`unpack_write`). Whatever the bytes are,
  a scene that comes out of them is sound and can be written again (`good_of_unpack`): each
  entry that is read keeps the envelope so (`readEntry_good`), and so does reading all of them.
-/

import Playfield.Packed.Envelope
import Playfield.Proofs.Packed.Scene
import Playfield.Proofs.Scene.Sound

namespace Playfield

namespace Packed

theorem orMalformed_eq_ok_iff {α : Type} {o : Option α} {x : α} :
    orMalformed o = .ok x ↔ o = some x := by
  cases o <;> simp [orMalformed]

/-! ## Envelopes that were written -/

theorem readVersion_write (version : UInt32) (rest : List UInt8) :
    readVersion ((ofUInt32 version).write ++ rest) = .ok (version, rest) := by
  have hread := read_of_within (within_ofUInt32 version maxDepth) rest
  rw [readVersion, bind_eq_ok_iff]
  refine ⟨_, orMalformed_eq_ok_iff.2 hread, bind_eq_ok_iff.2 ⟨version, ?_, rfl⟩⟩
  exact orMalformed_eq_ok_iff.2 (uint32?_ofUInt32 version)

theorem readScene_write {s : Scene} (h : s.Short) (rest : List UInt8) :
    readScene ((ofScene s).write ++ rest) =
      match s.flaw? with
      | some flaw => .error (.flawed flaw)
      | none => .ok (s, rest) := by
  have hread := read_of_within ((within_ofScene h).mono (show 6 ≤ maxDepth + 1 by decide)) rest
  rw [readScene, hread, orMalformed]
  simp only [bind, Except.bind]
  rw [scene?_ofScene]
  rfl

theorem readEntry_versionKey {e : Envelope} (h : e.version = none) (bytes : List UInt8) :
    e.readEntry ((ofName "version").write ++ bytes) =
      (readVersion bytes).map fun (version, rest) => ({ e with version := some version }, rest) := by
  have hname : Text.Short "version" := by decide
  have hslot : slot? envelopeFields (ofName "version") = some (some 0) :=
    slot?_ofName (by decide) rfl
  rw [Envelope.readEntry, read_of_within (within_ofName hname maxDepth), orMalformed]
  simp only [bind, Except.bind]
  rw [hslot, orMalformed]
  simp only [h]
  cases readVersion bytes <;> rfl

theorem readEntry_sceneKey {e : Envelope} (h : e.scene = none) (bytes : List UInt8) :
    e.readEntry ((ofName "scene").write ++ bytes) =
      (readScene bytes).map fun (scene, rest) => ({ e with scene := some scene }, rest) := by
  have hname : Text.Short "scene" := by decide
  have hslot : slot? envelopeFields (ofName "scene") = some (some 1) :=
    slot?_ofName (by decide) rfl
  rw [Envelope.readEntry, read_of_within (within_ofName hname maxDepth), orMalformed]
  simp only [bind, Except.bind]
  rw [hslot, orMalformed]
  simp only [h]
  cases readScene bytes <;> rfl

theorem readEntry_version {e : Envelope} (h : e.version = none) (version : UInt32)
    (rest : List UInt8) :
    e.readEntry ((ofName "version").write ++ ((ofUInt32 version).write ++ rest)) =
      .ok ({ e with version := some version }, rest) := by
  rw [readEntry_versionKey h, readVersion_write]
  rfl

theorem readEntry_scene {e : Envelope} (h : e.scene = none) {s : Scene} (hs : s.Short)
    (rest : List UInt8) :
    e.readEntry ((ofName "scene").write ++ ((ofScene s).write ++ rest)) =
      match s.flaw? with
      | some flaw => .error (.flawed flaw)
      | none => .ok ({ e with scene := some s }, rest) := by
  rw [readEntry_sceneKey h, readScene_write hs]
  cases s.flaw? <;> rfl

/-- An envelope is written as the head of a map and its two entries. -/
theorem write_ofEnvelope (version : UInt32) (s : Scene) :
    (ofEnvelope version s).write =
      mapHead 2 ++ ((ofName "version").write ++ ((ofUInt32 version).write ++
        ((ofName "scene").write ++ (ofScene s).write))) := by
  simp only [ofEnvelope, ofRecord, envelopeFields, List.map_cons, List.map_nil, List.zip_cons_cons,
    List.zip_nil_right, Value.write, writeEntries, List.length_cons, List.length_nil,
    List.append_assoc, List.append_nil]

theorem Envelope.read_write (version : UInt32) {s : Scene} (h : s.Short) :
    Envelope.read (ofEnvelope version s).write =
      match s.flaw? with
      | some flaw => .error (.flawed flaw)
      | none => .ok { version := some version, scene := some s } := by
  have hscene := readEntry_scene (e := { version := some version }) rfl h []
  rw [List.append_nil] at hscene
  rw [write_ofEnvelope, Envelope.read, readHead_mapHead (by decide)]
  simp only [readEntries]
  rw [readEntry_version rfl]
  simp only
  rw [hscene]
  cases s.flaw? <;> rfl

/-! ## Scenes that are read -/

/-- The scene that has been read, if any, is sound and can be written again. -/
def Envelope.Good (e : Envelope) : Prop :=
  ∀ s, e.scene = some s → s.Sound ∧ s.Short

theorem readScene_good {bytes rest : List UInt8} {s : Scene}
    (h : readScene bytes = .ok (s, rest)) : s.Sound ∧ s.Short := by
  simp only [readScene, bind_eq_ok_iff, orMalformed_eq_ok_iff] at h
  obtain ⟨⟨v, rest'⟩, hv, t, ht, h⟩ := h
  split at h
  · cases h
  · rename_i hflaw
    cases h
    exact ⟨Scene.flaw?_eq_none_iff.1 hflaw, short_of_scene? (read_measured hv) ht⟩

/-- Whatever entry is read, the envelope stays good. -/
theorem readEntry_good {e e' : Envelope} {bytes rest : List UInt8} (he : e.Good)
    (h : e.readEntry bytes = .ok (e', rest)) : e'.Good := by
  simp only [Envelope.readEntry, bind_eq_ok_iff, orMalformed_eq_ok_iff] at h
  obtain ⟨⟨key, rest'⟩, -, slot, -, h⟩ := h
  split at h
  · split at h
    · cases h
    · obtain ⟨⟨version, rest''⟩, -, h⟩ := bind_eq_ok_iff.1 h
      cases h
      exact he
  · split at h
    · cases h
    · obtain ⟨⟨s, rest''⟩, hs, h⟩ := bind_eq_ok_iff.1 h
      cases h
      intro t h'
      cases h'
      exact readScene_good hs
  · obtain ⟨⟨_, rest''⟩, -, h⟩ := bind_eq_ok_iff.1 h
    cases h
    exact he

theorem readEntries_good {n : Nat} {e e' : Envelope} {bytes : List UInt8} (he : e.Good)
    (h : e.readEntries n bytes = .ok e') : e'.Good := by
  induction n generalizing e bytes with
  | zero =>
    cases h
    exact he
  | succ n ih =>
    rw [Envelope.readEntries] at h
    split at h
    · rename_i hentry
      exact ih (readEntry_good he hentry) h
    · cases h

theorem readItems_good {length : Nat} {e : Envelope} {bytes : List UInt8}
    (h : Envelope.readItems length bytes = .ok e) : e.Good := by
  rw [Envelope.readItems] at h
  split at h
  · cases h
  obtain ⟨⟨version, rest⟩, -, h⟩ := bind_eq_ok_iff.1 h
  simp only at h
  split at h
  · cases h
  obtain ⟨⟨s, rest'⟩, hs, h⟩ := bind_eq_ok_iff.1 h
  simp only at h
  split at h
  · cases h
  · cases h
    intro t h'
    cases h'
    exact readScene_good hs

theorem Envelope.read_good {e : Envelope} {bytes : List UInt8} (h : Envelope.read bytes = .ok e) :
    e.Good := by
  unfold Envelope.read at h
  split at h
  · refine readEntries_good ?_ h
    intro s h'
    cases h'
  · exact readItems_good h
  · cases h

end Packed

namespace Scene

open Packed

/-- The bytes of an envelope give the scene's first flaw, or else complain of the version, or
else give the scene. -/
theorem unpack_write (version : UInt32) {s : Scene} (h : s.Short) :
    unpack (ofEnvelope version s).write =
      match s.flaw? with
      | some flaw => .error (.flawed flaw)
      | none => if version = formatVersion then .ok s else .error (.version version) := by
  rw [unpack, Envelope.read_write version h]
  cases s.flaw? <;> rfl

theorem unpack_pack {s : Scene} (h : s.Sound) (hs : s.Short) : unpack s.pack = .ok s := by
  rw [pack, unpack_write formatVersion hs, flaw?_eq_none_iff.2 h]
  rfl

theorem good_of_unpack {bytes : List UInt8} {s : Scene} (h : unpack bytes = .ok s) :
    s.Sound ∧ s.Short := by
  rw [unpack, bind_eq_ok_iff] at h
  obtain ⟨e, he, h⟩ := h
  split at h
  · rename_i version scene _ hscene
    split at h
    · cases h
      exact Envelope.read_good he _ hscene
    · cases h
  · cases h

/-- A scene that was unpacked is unpacked again from its own bytes. -/
theorem unpack_pack_of_unpack {bytes : List UInt8} {s : Scene} (h : unpack bytes = .ok s) :
    unpack s.pack = .ok s :=
  unpack_pack (good_of_unpack h).1 (good_of_unpack h).2

end Scene

end Playfield
