/-
  Playfield.Proofs.Scene.Depiction — which boards have a scene, and which scene that is.

  `Board.Buildable` says of a board, without walking over it, that its numbers decode, that its
  gadgets have different names, that wirings look back, and that the header has a name. A scene
  `Depicts` a board when each of its parts is what the board says of it; at most one does
  (`Depicts.unique`). Building gives a scene exactly for the buildable boards, and it gives the
  one that depicts the board (`built_iff_buildable_and_depicts`).
-/

import Playfield.Proofs.Scene.Walk

namespace Playfield

open Board (Header)
open Board.Declaration (gadgetNames)

/-- The board has a scene. -/
structure Board.Buildable (board : Board) : Prop extends Walkable board.declarations where
  named : ∃ l, board.header.name = some l
  gravity : ∀ l, board.header.gravity = some l → ∃ x, Worth.Number l x
  friction1 : ∀ l, board.header.friction1 = some l → ∃ x, Worth.Number l x
  friction2 : ∀ l, board.header.friction2 = some l → ∃ x, Worth.Number l x

/-- What the header and the settings say of a scene. -/
structure Scene.Heads (s : Scene) (settings : Settings) (header : Header) : Prop where
  name : ∃ l, header.name = some l ∧ s.name = l.text
  gravity : Worth.NumberOr settings.gravity header.gravity s.gravity
  friction1 : Worth.NumberOr settings.friction1 header.friction1 s.friction1
  friction2 : Worth.NumberOr settings.friction2 header.friction2 s.friction2
  timeStep : s.timeStep = settings.timeStep

/-- Every part of the scene is what the board says of it. -/
structure Scene.Depicts (s : Scene) (settings : Settings) (board : Board) : Prop
    extends s.Heads settings board.header where
  gadgets : ∀ name g, s.gadget? name = some g ↔
    ∃ x ∈ board.declarations, Worth.Gadget x g ∧ g.name = name
  names : ∀ name, s.registry.contains name = true ↔ name ∈ gadgetNames board.declarations
  entries : ∀ name, s.wiring.targets.contains name = true ↔ name ∈ gadgetNames board.declarations
  edges : ∀ trigger action, s.wiring.hasEdge trigger action = true ↔
    ∃ x ∈ board.declarations, x.Fires trigger action
  balls : List.Forall₂ Worth.Ball (board.declarations.filter (·.isBall)) s.balls

/-! ## The header -/

theorem Worth.exists_numberOr {fallback : Binary64} {l : Option Source.Literal} :
    (∃ x, Worth.NumberOr fallback l x) ↔ ∀ l', l = some l' → ∃ x, Worth.Number l' x := by
  refine ⟨fun h l' hl => ?_, fun h => ?_⟩
  · obtain ⟨x, h⟩ := h
    subst hl
    cases h with
    | given h => exact ⟨x, h⟩
  · cases l with
    | none => exact ⟨_, .omitted⟩
    | some l =>
      obtain ⟨x, hx⟩ := h l rfl
      exact ⟨x, .given hx⟩

theorem Draft.finish_eq_ok_iff {d : Draft} {settings : Settings} {header : Header} {s : Scene} :
    d.finish settings header = .ok s ↔
      s.Heads settings header ∧ s.registry = d.registry ∧ s.wiring = d.wiring ∧
        s.balls = d.balls := by
  unfold finish
  cases hname : header.name with
  | none =>
    refine ⟨fun h => (nomatch h), fun h => ?_⟩
    obtain ⟨l, hl, -⟩ := h.1.name
    rw [hname] at hl
    cases hl
  | some l =>
    simp only [bind_eq_ok_iff, Decode.numberOr_eq_ok_iff, pure_eq_ok_iff]
    refine ⟨fun h' => ?_, fun h' => ?_⟩
    · obtain ⟨g, hg, f₁, hf₁, f₂, hf₂, rfl⟩ := h'
      exact ⟨⟨⟨l, hname, rfl⟩, hg, hf₁, hf₂, rfl⟩, rfl, rfl, rfl⟩
    · obtain ⟨⟨⟨l', hl', hs⟩, hg, hf₁, hf₂, ht⟩, hr, hw, hb⟩ := h'
      rw [hname] at hl'
      cases hl'
      refine ⟨_, hg, _, hf₁, _, hf₂, ?_⟩
      rw [← hs, ← hr, ← hw, ← ht, ← hb]

/-! ## The scene of a board -/

namespace Scene

theorem Depicts.unique {settings : Settings} {board : Board} {s t : Scene}
    (hs : s.Depicts settings board) (ht : t.Depicts settings board) : s = t := by
  have hregistry : s.registry = t.registry := Registry.ext_get? fun name => by
    refine Option.ext fun g => ?_
    exact (hs.gadgets name g).trans (ht.gadgets name g).symm
  have hwiring : s.wiring = t.wiring := Wiring.ext_edges
    (fun name => Bool.eq_iff_iff.2 ((hs.entries name).trans (ht.entries name).symm))
    (fun trigger action =>
      Bool.eq_iff_iff.2 ((hs.edges trigger action).trans (ht.edges trigger action).symm))
  have hballs : s.balls = t.balls :=
    List.right_unique_forall₂' (fun _ _ _ h h' => h.unique h') hs.balls ht.balls
  have hname : s.name = t.name := by
    obtain ⟨l, hl, h⟩ := hs.name
    obtain ⟨l', hl', h'⟩ := ht.name
    rw [hl] at hl'
    cases hl'
    rw [h, h']
  have hgravity := hs.gravity.unique ht.gravity
  have hfriction1 := hs.friction1.unique ht.friction1
  have hfriction2 := hs.friction2.unique ht.friction2
  have htimeStep := hs.timeStep.trans ht.timeStep.symm
  cases s
  cases t
  simp_all

theorem buildable_and_depicts_of_built {settings : Settings} {board : Board} {s : Scene}
    (h : ofBoard settings board = .ok s) : board.Buildable ∧ s.Depicts settings board := by
  obtain ⟨d, hd, hs⟩ := bind_eq_ok_iff.1 h
  obtain ⟨hheads, hregistry, hwiring, hballs⟩ := Draft.finish_eq_ok_iff.1 hs
  obtain ⟨hsound, hrec⟩ := Draft.applyAll_records hd
  refine ⟨⟨Draft.applyAll_iff_walkable.1 ⟨d, hd⟩, ?_, ?_, ?_, ?_⟩, ⟨hheads, ?_, ?_, ?_, ?_, ?_⟩⟩
  · obtain ⟨l, hl, -⟩ := hheads.name
    exact ⟨l, hl⟩
  · exact Worth.exists_numberOr.1 ⟨_, hheads.gravity⟩
  · exact Worth.exists_numberOr.1 ⟨_, hheads.friction1⟩
  · exact Worth.exists_numberOr.1 ⟨_, hheads.friction2⟩
  · rw [show s.gadget? = d.registry.get? by rw [← hregistry]; rfl]
    exact hrec.gadgets
  · rw [hregistry]
    exact hrec.names
  · rw [hwiring]
    exact fun name => (hsound.entries name).trans (hrec.names name)
  · rw [hwiring]
    exact hrec.edges
  · rw [hballs]
    exact hrec.balls

theorem exists_built (settings : Settings) {board : Board} (h : board.Buildable) :
    ∃ s, ofBoard settings board = .ok s := by
  obtain ⟨d, hd⟩ := Draft.applyAll_iff_walkable.2 h.toWalkable
  obtain ⟨l, hl⟩ := h.named
  obtain ⟨gravity, hgravity⟩ := Worth.exists_numberOr.2 h.gravity
  obtain ⟨friction1, hfriction1⟩ := Worth.exists_numberOr.2 h.friction1
  obtain ⟨friction2, hfriction2⟩ := Worth.exists_numberOr.2 h.friction2
  let s : Scene :=
    { name := l.text, gravity, friction1, friction2, registry := d.registry, wiring := d.wiring,
      timeStep := settings.timeStep, balls := d.balls }
  have hs : d.finish settings board.header = .ok s :=
    Draft.finish_eq_ok_iff.2 ⟨⟨⟨l, hl, rfl⟩, hgravity, hfriction1, hfriction2, rfl⟩, rfl, rfl, rfl⟩
  exact ⟨s, bind_eq_ok_iff.2 ⟨d, hd, hs⟩⟩

theorem ofBoard_eq_ok_iff {settings : Settings} {board : Board} {s : Scene} :
    ofBoard settings board = .ok s ↔ board.Buildable ∧ s.Depicts settings board := by
  refine ⟨buildable_and_depicts_of_built, fun ⟨hb, hs⟩ => ?_⟩
  obtain ⟨t, ht⟩ := exists_built settings hb
  rw [ht, (buildable_and_depicts_of_built ht).2.unique hs]

end Scene

end Playfield
