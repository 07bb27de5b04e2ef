/-
  Playfield.Proofs.Scene.Sound — what a scene without flaws is.

  `Scene.Sound` says what should hold of every scene, part by part and without an order. The
  check that looks for flaws one after the other finds none exactly in the sound scenes
  (`flaw?_eq_none_iff`). In a sound scene a name has an entry in the wiring exactly when it is a
  gadget's, and a gadget stands on its own cell.
-/

import Playfield.Proofs.Scene.Wiring

namespace Playfield

theorem Footprint.contains_origin {f : Footprint} (hwidth : 1 ≤ f.width) (hheight : 1 ≤ f.height) :
    f.contains f.origin = true := by
  rw [UInt32.le_iff_toNat_le, UInt32.toNat_one] at hwidth hheight
  simp only [Footprint.contains, Int.sub_self, Bool.and_eq_true, decide_eq_true_eq]
  omega

namespace Scene

structure Sound (s : Scene) : Prop where
  name : s.name ≠ ""
  gravity : s.gravity.isFinite = true
  friction1 : s.friction1.isFinite = true
  friction2 : s.friction2.isFinite = true
  timeStep_finite : s.timeStep.isFinite = true
  timeStep_positive : s.timeStep.isPositive = true
  named : s.registry.Named
  sized : s.registry.Sized
  entries : ∀ name, s.wiring.targets.contains name = true ↔ s.registry.contains name = true
  targets : s.wiring.TargetsIn s.registry
  balls : ∀ b ∈ s.balls, b.isFinite = true

theorem ite_some_eq_none_iff {α : Type} {c : Prop} [Decidable c] {x : α} {o : Option α} :
    (if c then some x else o) = none ↔ ¬c ∧ o = none := by
  split <;> simp_all

/-- The check finds no flaw exactly in the sound scenes. -/
theorem flaw?_eq_none_iff {s : Scene} : s.flaw? = none ↔ s.Sound := by
  simp only [flaw?, ite_some_eq_none_iff, Bool.not_eq_true', Bool.not_eq_false, Bool.and_eq_true,
    String.isEmpty_iff, Registry.isWellFormed_iff, Wiring.isClosedOver_iff, List.all_eq_true,
    and_true]
  refine ⟨fun h => ?_, fun h => ?_⟩
  · obtain ⟨hname, ⟨⟨hgravity, hfriction1⟩, hfriction2⟩, ⟨hfinite, hpositive⟩, h⟩ := h
    obtain ⟨⟨hnamed, hsized⟩, ⟨hentries, htargets⟩, hballs⟩ := h
    exact ⟨hname, hgravity, hfriction1, hfriction2, hfinite, hpositive, hnamed, hsized, hentries,
      htargets, hballs⟩
  · exact ⟨h.name, ⟨⟨h.gravity, h.friction1⟩, h.friction2⟩,
      ⟨h.timeStep_finite, h.timeStep_positive⟩, ⟨h.named, h.sized⟩, ⟨h.entries, h.targets⟩, h.balls⟩

/-- There is an entry to look up exactly for the names of gadgets. -/
theorem Sound.triggeredBy?_isSome {s : Scene} (h : s.Sound) (name : String) :
    (s.triggeredBy? name).isSome = (s.gadget? name).isSome := by
  rw [triggeredBy?, Option.isSome_map]
  exact Bool.eq_iff_iff.2 (h.entries name)

theorem Sound.footprint_contains_origin {s : Scene} (h : s.Sound) {name : String} {g : Gadget}
    (hg : s.gadget? name = some g) : g.footprint.contains g.origin = true := by
  obtain ⟨hwidth, hheight⟩ := h.sized name g hg
  exact Footprint.contains_origin hwidth hheight

end Scene

end Playfield
