/-
  Playfield.Proofs.Packed.RoundTrip — which written envelopes are read, and what comes back.

  Of the envelopes that can be written, with any version around any scene, those of the one
  format version around a sound scene are read, and they give the scene itself, bit for bit.
  The others are refused as packed scenes. So no scene that was made is lost by packing it.
-/

import Playfield.Proofs.Scene.Made

namespace Playfield.Scene

open Packed

theorem unpack_write_eq_ok_iff {version : UInt32} {s t : Scene} (h : s.Short) :
    unpack (ofEnvelope version s).write = .ok t ↔ version = formatVersion ∧ s.Sound ∧ t = s := by
  rw [unpack_write version h, ← flaw?_eq_none_iff]
  cases s.flaw? with
  | some flaw => simp
  | none => by_cases hversion : version = formatVersion <;> simp [hversion, eq_comm]

theorem unpack_write_eq_error {version : UInt32} {s : Scene} (h : s.Short)
    (hnot : ¬(version = formatVersion ∧ s.Sound)) :
    ∃ why detail, unpack (ofEnvelope version s).write = .error why ∧
      why.fault = .packing (some detail) := by
  rw [unpack_write version h]
  cases hflaw : s.flaw? with
  | some flaw => exact ⟨.flawed flaw, _, rfl, rfl⟩
  | none =>
    have hversion : version ≠ formatVersion := fun hv => hnot ⟨hv, flaw?_eq_none_iff.1 hflaw⟩
    simp only [if_neg hversion]
    exact ⟨.version version, _, rfl, rfl⟩

/-- A written envelope is read exactly when it is of version 1 and its scene is sound, it then
gives the scene that was written, and it is refused otherwise. Packing a scene that was made
and unpacking it gives the scene again; one that was unpacked itself need not even be short. -/
theorem unpack_write_round_trip (s : Scene) :
    (s.Short → ∀ version : UInt32,
      (∀ t, unpack (ofEnvelope version s).write = .ok t ↔ version = 1 ∧ s.Sound ∧ t = s) ∧
        (¬(version = 1 ∧ s.Sound) → ∃ why detail,
          unpack (ofEnvelope version s).write = .error why ∧
            why.fault = .packing (some detail))) ∧
      (s.Made → s.Short → unpack s.pack = .ok s) ∧
        ∀ bytes, unpack bytes = .ok s → unpack s.pack = .ok s :=
  ⟨fun h _ => ⟨fun _ => unpack_write_eq_ok_iff h, unpack_write_eq_error h⟩,
    fun h hshort => unpack_pack h.sound hshort, fun _ => unpack_pack_of_unpack⟩

/-- An absorber that triggers itself is read back under version 1 and refused under version 2. -/
theorem round_trip_of_absorber :
    let g : Gadget := { name := "a", origin := ⟨-3, 7⟩, kind := .absorber 2 300, line := 2 }
    let s : Scene :=
      { name := "b", gravity := ⟨0x4039000000000000⟩, friction1 := ⟨0x3f9999999999999a⟩
        friction2 := ⟨0⟩, registry := ⟨NameMap.empty.insert "a" g⟩
        wiring := ⟨NameMap.empty.insert "a" (NameSet.add .empty "a")⟩
        timeStep := ⟨0x3fa999999999999a⟩, balls := [] }
    s.Short ∧ s.Sound ∧ unpack (ofEnvelope 1 s).write = .ok s ∧
      ∃ why, unpack (ofEnvelope 2 s).write = .error why := by
  intro g s
  have hsound : s.Sound := flaw?_eq_none_iff.1 (by decide +kernel)
  have hshort : s.Short := by
    refine ⟨by decide, by decide, fun name g' h => ?_, by decide, fun name targets h => ?_,
      by decide, nofun⟩
    · cases List.mem_singleton.1 (NameMap.get?_eq_some_iff.1 h)
      decide
    · cases List.mem_singleton.1 (NameMap.get?_eq_some_iff.1 h)
      decide
  obtain ⟨hread, -, -⟩ := unpack_write_round_trip s
  obtain ⟨why, -, hwhy, -⟩ := (hread hshort 2).2 (fun h => absurd h.1 (by decide))
  exact ⟨hshort, hsound, ((hread hshort 1).1 s).2 ⟨rfl, hsound, rfl⟩, why, hwhy⟩

end Playfield.Scene
