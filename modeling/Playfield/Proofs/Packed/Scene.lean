/-
  Playfield.Proofs.Packed.Scene — every scene is read from the value it is written as.

  Each part of a scene is read back from its value, with any room and whether or not it is
  sound, and so the scene is (`scene?_ofScene`). A scene whose names and counts are short has
  a value with bytes of its own that nests six deep (`within_ofScene`), and every scene that is
  read from bytes has short names and counts (`short_of_scene?`).
-/

import Playfield.Packed.Scene
import Playfield.Proofs.Packed.Record
import Playfield.Proofs.Scene.Wiring

namespace Playfield

open Board (Side)

namespace Packed

/-! ## Places and motions -/

theorem cell?_ofCell (room : Nat) (c : Cell) : cell? room (ofCell c) = some c := by
  rw [cell?, ofCell, record?_ofRecord (by decide) rfl]
  simp [int32?_ofInt32]

theorem vec?_ofVec (room : Nat) (v : Vec) : vec? room (ofVec v) = some v := by
  rw [vec?, ofVec, record?_ofRecord (by decide) rfl]
  simp [float?_float64]

/-! ## Gadgets -/

theorem side?_ofSide (side : Side) : side? (ofSide side) = some side := by
  cases side with
  | left =>
    rw [side?, ofSide, choice?_ofName (by decide) (show sideTags[0]? = some "Left" from rfl)]
    rfl
  | right =>
    rw [side?, ofSide, choice?_ofName (by decide) (show sideTags[1]? = some "Right" from rfl)]
    rfl

theorem orientation?_ofOrientation (o : Orientation) :
    orientation? (ofOrientation o) = some o := by
  have htag : orientationTags[o.degrees / 90]? = some ("Deg" ++ toString o.degrees) := by
    cases o <;> rfl
  have hall : Orientation.all[o.degrees / 90]? = some o := by
    cases o <;> rfl
  rw [orientation?, ofOrientation, choice?_ofName (by decide) htag]
  exact hall

theorem kind?_ofKind (room : Nat) (kind : Gadget.Kind) : kind? room (ofKind kind) = some kind := by
  cases kind with
  | squareBumper =>
    have htag : kindTags[0]? = some "SquareBumper" := rfl
    rw [kind?, ofKind, choice?_ofName (by decide) htag]
    rfl
  | circularBumper =>
    have htag : kindTags[1]? = some "CircularBumper" := rfl
    rw [kind?, ofKind, choice?_ofName (by decide) htag]
    rfl
  | triangularBumper o =>
    have htag : kindTags[2]? = some "TriangularBumper" := rfl
    rw [kind?, ofKind, choice?_ofChoice (by decide) htag, Option.bind_eq_bind, Option.bind_some]
    simp only
    rw [record?_ofRecord (by decide) rfl, Option.bind_eq_bind, Option.bind_some]
    simp only
    rw [orientation?_ofOrientation]
    rfl
  | absorber width height =>
    have htag : kindTags[3]? = some "Absorber" := rfl
    rw [kind?, ofKind, choice?_ofChoice (by decide) htag, Option.bind_eq_bind, Option.bind_some]
    simp only
    rw [record?_ofRecord (by decide) rfl, Option.bind_eq_bind, Option.bind_some]
    simp only
    rw [uint32?_ofUInt32, uint32?_ofUInt32]
    rfl
  | flipper side o =>
    have htag : kindTags[4]? = some "Flipper" := rfl
    rw [kind?, ofKind, choice?_ofChoice (by decide) htag, Option.bind_eq_bind, Option.bind_some]
    simp only
    rw [record?_ofRecord (by decide) rfl, Option.bind_eq_bind, Option.bind_some]
    simp only
    rw [side?_ofSide, orientation?_ofOrientation]
    rfl

theorem gadget?_ofGadget (room : Nat) (g : Gadget) : gadget? room (ofGadget g) = some g := by
  rw [gadget?, ofGadget, record?_ofRecord (by decide) rfl]
  simp [name?_ofName, cell?_ofCell, kind?_ofKind, uint32?_ofUInt32]

/-! ## The scene -/

theorem registry?_ofRegistry (room : Nat) (r : Registry) :
    registry? room (ofRegistry r) = some r := by
  rw [ registry?, ofRegistry, record?_ofRecord (by decide) rfl]
  simp [nameMap?_ofNameMap (gadget?_ofGadget (room - 2))]

theorem nameSet?_ofNameSet (s : NameSet) : nameSet? (ofNameSet s) = some s := by
  have hentries : s.names.map (·, ()) = s.entries := by
    rw [NameMap.names, List.map_map]
    exact List.map_id _
  rw [nameSet?, ofNameSet, list?_array name?_ofName, Option.map_some, NameSet.ofNames, hentries,
    NameMap.ofList_entries]

theorem wiring?_ofWiring (room : Nat) (w : Wiring) : wiring? room (ofWiring w) = some w := by
  rw [wiring?, ofWiring, record?_ofRecord (by decide) rfl]
  simp [nameMap?_ofNameMap nameSet?_ofNameSet]

theorem ball?_ofBall (room : Nat) (b : Ball) : ball? room (ofBall b) = some b := by
  rw [ball?, ofBall, record?_ofRecord (by decide) rfl]
  simp [name?_ofName, vec?_ofVec, uint32?_ofUInt32]

/-- Every scene is read back from its value, sound or not. -/
theorem scene?_ofScene (room : Nat) (s : Scene) : scene? room (ofScene s) = some s := by
  rw [scene?, ofScene, record?_ofRecord (by decide) rfl]
  simp [name?_ofName, float?_float64, registry?_ofRegistry, wiring?_ofWiring,
    list?_array (ball?_ofBall (room - 2))]

/-! ## Sizes of what is written -/

end Packed

/-- The names of the scene are short, and what it holds can be counted in 32 bits. -/
structure Scene.Short (s : Scene) : Prop where
  name : Text.Short s.name
  gadgetCount : s.registry.size < 2 ^ 32
  gadgets : ∀ name g, s.registry.get? name = some g → Text.Short name ∧ Text.Short g.name
  nodeCount : s.wiring.nodeCount < 2 ^ 32
  nodes : ∀ name targets, s.wiring.targetsOf? name = some targets →
    Text.Short name ∧ targets.size < 2 ^ 32 ∧ ∀ target ∈ targets.names, Text.Short target
  ballCount : s.balls.length < 2 ^ 32
  balls : ∀ b ∈ s.balls, Text.Short b.name

namespace Packed

theorem within_ofCell (c : Cell) (depth : Nat) : (ofCell c).Within (depth + 1) := by
  refine within_ofRecord (by decide) (by decide) ?_
  simp [within_ofInt32]

theorem within_ofVec (v : Vec) (depth : Nat) : (ofVec v).Within (depth + 1) := by
  refine within_ofRecord (by decide) (by decide) ?_
  simp [within_float64]

theorem within_ofSide (side : Side) (depth : Nat) : (ofSide side).Within depth := by
  cases side <;> exact within_ofName (by decide) depth

theorem within_ofOrientation (o : Orientation) (depth : Nat) : (ofOrientation o).Within depth := by
  cases o <;> exact within_ofName (by decide) depth

theorem within_ofKind (kind : Gadget.Kind) (depth : Nat) : (ofKind kind).Within (depth + 2) := by
  cases kind with
  | squareBumper => exact within_ofName (by decide) _
  | circularBumper => exact within_ofName (by decide) _
  | triangularBumper o =>
    refine within_ofChoice (by decide) (within_ofRecord (by decide) (by decide) ?_)
    simp [within_ofOrientation]
  | absorber width height =>
    refine within_ofChoice (by decide) (within_ofRecord (by decide) (by decide) ?_)
    simp [within_ofUInt32]
  | flipper side o =>
    refine within_ofChoice (by decide) (within_ofRecord (by decide) (by decide) ?_)
    simp [within_ofSide, within_ofOrientation]

theorem within_ofGadget {g : Gadget} (h : Text.Short g.name) (depth : Nat) :
    (ofGadget g).Within (depth + 3) := by
  refine within_ofRecord (by decide) (by decide) ?_
  simp [within_ofName h, within_ofCell, within_ofKind, within_ofUInt32]

theorem within_ofBall {b : Ball} (h : Text.Short b.name) (depth : Nat) :
    (ofBall b).Within (depth + 2) := by
  refine within_ofRecord (by decide) (by decide) ?_
  simp [within_ofName h, within_ofVec, within_ofUInt32]

theorem within_ofRegistry {s : Scene} (h : s.Short) (depth : Nat) :
    (ofRegistry s.registry).Within (depth + 5) := by
  refine within_ofRecord (by decide) (by decide) (List.forall_mem_singleton.2 ?_)
  refine within_ofNameMap h.gadgetCount fun name g hg => ?_
  obtain ⟨hname, hg'⟩ := h.gadgets name g hg
  exact ⟨hname, within_ofGadget hg' depth⟩

theorem within_ofWiring {s : Scene} (h : s.Short) (depth : Nat) :
    (ofWiring s.wiring).Within (depth + 3) := by
  refine within_ofRecord (by decide) (by decide) (List.forall_mem_singleton.2 ?_)
  refine within_ofNameMap h.nodeCount fun name targets htargets => ?_
  obtain ⟨hname, hsize, hall⟩ := h.nodes name targets htargets
  refine ⟨hname, within_array ?_ fun v hv => ?_⟩
  · rwa [List.length_map, NameMap.length_names]
  · obtain ⟨target, htarget, rfl⟩ := List.mem_map.1 hv
    exact within_ofName (hall target htarget) depth

/-- The value of a scene nests six deep. -/
theorem within_ofScene {s : Scene} (h : s.Short) : (ofScene s).Within 6 := by
  have hballs : (Value.array (s.balls.map ofBall)).Within 3 :=
    within_array (by rw [List.length_map]; exact h.ballCount) fun v hv => by
      obtain ⟨b, hb, rfl⟩ := List.mem_map.1 hv
      exact within_ofBall (h.balls b hb) 0
  have hregistry := within_ofRegistry h 0
  have hwiring := (within_ofWiring h 0).mono (show 3 ≤ 5 by omega)
  refine within_ofRecord (by decide) (by decide) ?_
  simp [within_ofName h.name, within_float64, hregistry, hwiring,
    hballs.mono (show 3 ≤ 5 by omega)]

/-! ## Sizes of what is read -/

theorem short_of_gadget? {room : Nat} {v : Value} {g : Gadget}
    (hv : v.Everywhere Value.Measured) (h : gadget? room v = some g) : Text.Short g.name := by
  simp only [gadget?, Option.bind_eq_bind, Option.bind_eq_some_iff] at h
  obtain ⟨values, hvalues, h⟩ := h
  have hall := measured_of_record? hv hvalues
  split at h
  · simp only [Option.bind_eq_some_iff, Option.pure_def, Option.some.injEq] at h
    obtain ⟨name, hname, _, _, _, _, _, _, rfl⟩ := h
    exact short_of_name? (hall _ List.mem_cons_self) hname
  · cases h

theorem short_of_ball? {room : Nat} {v : Value} {b : Ball} (hv : v.Everywhere Value.Measured)
    (h : ball? room v = some b) : Text.Short b.name := by
  simp only [ball?, Option.bind_eq_bind, Option.bind_eq_some_iff] at h
  obtain ⟨values, hvalues, h⟩ := h
  have hall := measured_of_record? hv hvalues
  split at h
  · simp only [Option.bind_eq_some_iff, Option.pure_def, Option.some.injEq] at h
    obtain ⟨name, hname, _, _, _, _, _, _, rfl⟩ := h
    exact short_of_name? (hall _ List.mem_cons_self) hname
  · cases h

theorem short_of_registry? {room : Nat} {v : Value} {r : Registry}
    (hv : v.Everywhere Value.Measured) (h : registry? room v = some r) :
    r.size < 2 ^ 32 ∧
      ∀ name g, r.get? name = some g → Text.Short name ∧ Text.Short g.name := by
  simp only [ registry?, Option.bind_eq_bind, Option.bind_eq_some_iff] at h
  obtain ⟨values, hvalues, h⟩ := h
  have hall := measured_of_record? hv hvalues
  split at h
  · simp only [Option.bind_eq_some_iff, Option.pure_def, Option.some.injEq] at h
    obtain ⟨gadgets, hgadgets, rfl⟩ := h
    obtain ⟨hsize, hget⟩ := measured_of_nameMap? (hall _ List.mem_cons_self) hgadgets
    refine ⟨hsize, fun name g hg => ?_⟩
    obtain ⟨hname, w, hw, hwg⟩ := hget name g hg
    exact ⟨hname, short_of_gadget? hw hwg⟩
  · cases h

theorem short_of_nameSet? {v : Value} {s : NameSet} (hv : v.Everywhere Value.Measured)
    (h : nameSet? v = some s) : s.size < 2 ^ 32 ∧ ∀ name ∈ s.names, Text.Short name := by
  rw [nameSet?, Option.map_eq_some_iff] at h
  obtain ⟨l, hl, rfl⟩ := h
  obtain ⟨hlen, hall⟩ := measured_of_list? hv hl
  refine ⟨?_, fun name hname => ?_⟩
  · have hle := NameMap.size_ofList_le (l.map (·, ()))
    rw [List.length_map] at hle
    exact Nat.lt_of_le_of_lt hle hlen
  · obtain ⟨⟨_, u⟩, hmem, rfl⟩ := List.mem_map.1 hname
    have hmem' := NameMap.mem_of_get?_ofList (NameMap.get?_eq_some_iff.2 hmem)
    obtain ⟨name', hname', he⟩ := List.mem_map.1 hmem'
    cases he
    obtain ⟨w, hw, hwn⟩ := hall _ hname'
    exact short_of_name? hw hwn

theorem short_of_wiring? {room : Nat} {v : Value} {w : Wiring}
    (hv : v.Everywhere Value.Measured) (h : wiring? room v = some w) :
    w.nodeCount < 2 ^ 32 ∧ ∀ name targets, w.targetsOf? name = some targets →
      Text.Short name ∧ targets.size < 2 ^ 32 ∧ ∀ target ∈ targets.names, Text.Short target := by
  simp only [wiring?, Option.bind_eq_bind, Option.bind_eq_some_iff] at h
  obtain ⟨values, hvalues, h⟩ := h
  have hall := measured_of_record? hv hvalues
  split at h
  · simp only [Option.bind_eq_some_iff, Option.pure_def, Option.some.injEq] at h
    obtain ⟨targets, htargets, rfl⟩ := h
    obtain ⟨hsize, hget⟩ := measured_of_nameMap? (hall _ List.mem_cons_self) htargets
    refine ⟨hsize, fun name set hset => ?_⟩
    obtain ⟨hname, u, hu, hus⟩ := hget name set hset
    exact ⟨hname, short_of_nameSet? hu hus⟩
  · cases h

/-- A scene that is read from bytes can be written again. -/
theorem short_of_scene? {room : Nat} {v : Value} {s : Scene} (hv : v.Everywhere Value.Measured)
    (h : scene? room v = some s) : s.Short := by
  simp only [scene?, Option.bind_eq_bind, Option.bind_eq_some_iff] at h
  obtain ⟨values, hvalues, h⟩ := h
  have hall := measured_of_record? hv hvalues
  split at h
  · simp only [Option.bind_eq_some_iff, Option.pure_def, Option.some.injEq] at h
    obtain ⟨name, hname, gravity, -, friction1, -, friction2, -, registry, hregistry, wiring,
      hwiring, timeStep, -, balls, hballs, rfl⟩ := h
    simp only [List.forall_mem_cons] at hall
    obtain ⟨hname', -, -, -, hregistry', hwiring', -, hballs', -⟩ := hall
    obtain ⟨hgadgetCount, hgadgets⟩ := short_of_registry? hregistry' hregistry
    obtain ⟨hnodeCount, hnodes⟩ := short_of_wiring? hwiring' hwiring
    obtain ⟨hballCount, hball⟩ := measured_of_list? hballs' hballs
    refine ⟨short_of_name? hname' hname, hgadgetCount, hgadgets, hnodeCount, hnodes, hballCount,
      fun b hb => ?_⟩
    obtain ⟨w, hw, hwb⟩ := hball b hb
    exact short_of_ball? hw hwb
  · cases h

end Packed

end Playfield
