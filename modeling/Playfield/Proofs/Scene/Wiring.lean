/-
  Playfield.Proofs.Scene.Wiring — registries and wirings by what can be looked up in them.

  Each operation is described by the lookups after it, and the two checks by what they say of
  names: `isWellFormed_iff` and `isClosedOver_iff`. The second one counts entries, and counting
  is enough because the entries of a map have different names.
-/

import Playfield.Proofs.NameMap
import Playfield.Proofs.Result
import Playfield.Scene.Basic

namespace Playfield

/-! ## Registries -/

namespace Registry

@[simp] theorem get?_empty (name : String) : ({} : Registry).get? name = none := rfl

theorem contains_eq_isSome (r : Registry) (name : String) :
    r.contains name = (r.get? name).isSome := rfl

theorem register_eq_ok_iff {r r' : Registry} {g : Gadget} :
    r.register g = .ok r' ↔
      r.contains g.name = false ∧ r' = { gadgets := r.gadgets.insert g.name g } := by
  rw [register, contains_eq_isSome]
  cases r.get? g.name with
  | some first => simp
  | none => simp [eq_comm]

theorem resolve_eq_ok_iff {r : Registry} {name : String} {line : Nat} {g : Gadget} :
    r.resolve name line = .ok g ↔ r.get? name = some g := by
  unfold resolve
  cases r.get? name <;> simp

theorem get?_insert (r : Registry) (g : Gadget) (name : String) :
    ({ gadgets := r.gadgets.insert g.name g } : Registry).get? name =
      if name = g.name then some g else r.get? name :=
  NameMap.get?_insert _ _ _ _

theorem contains_insert (r : Registry) (g : Gadget) (name : String) :
    ({ gadgets := r.gadgets.insert g.name g } : Registry).contains name =
      (decide (name = g.name) || r.contains name) :=
  NameMap.contains_insert _ _ _ _

/-- Every gadget is kept under its own name. -/
def Named (r : Registry) : Prop :=
  ∀ name g, r.get? name = some g → g.name = name

/-- Every gadget stands on at least one cell. -/
def Sized (r : Registry) : Prop :=
  ∀ name g, r.get? name = some g → 1 ≤ g.kind.size.1 ∧ 1 ≤ g.kind.size.2

theorem isWellFormed_iff {r : Registry} : r.isWellFormed = true ↔ r.Named ∧ r.Sized := by
  simp only [isWellFormed, List.all_eq_true, Bool.and_eq_true, beq_iff_eq, decide_eq_true_eq,
    Prod.forall, Named, Sized, get?, NameMap.get?_eq_some_iff]
  refine ⟨fun h => ⟨fun name g hg => ?_, fun name g hg => ?_⟩, fun h' name g hg => ?_⟩
  · exact (h name g hg).1.1.symm
  · exact ⟨(h name g hg).1.2, (h name g hg).2⟩
  · obtain ⟨hname, hsize⟩ := h'
    exact ⟨⟨(hname name g hg).symm, (hsize name g hg).1⟩, (hsize name g hg).2⟩

theorem ext_get? {r r' : Registry} (h : ∀ name, r.get? name = r'.get? name) : r = r' := by
  cases r
  cases r'
  exact congrArg Registry.mk (NameMap.ext_get? h)

end Registry

/-! ## Wirings -/

namespace Wiring

theorem hasEdge_iff {w : Wiring} {trigger action : String} :
    w.hasEdge trigger action = true ↔
      ∃ targets, w.targetsOf? trigger = some targets ∧ targets.contains action = true := by
  unfold hasEdge
  cases w.targetsOf? trigger <;> simp

@[simp] theorem contains_addNode (w : Wiring) (name other : String) :
    (w.addNode name).targets.contains other =
      (decide (other = name) || w.targets.contains other) := by
  unfold addNode
  split
  · by_cases e : other = name
    · simp_all
    · simp [e]
  · rw [NameMap.contains_insert]

theorem targetsOf?_addNode (w : Wiring) {name : String} (h : w.targets.contains name = false)
    (other : String) :
    (w.addNode name).targetsOf? other =
      if other = name then some .empty else w.targetsOf? other := by
  rw [addNode, h]
  exact NameMap.get?_insert _ _ _ _

@[simp] theorem hasEdge_addNode (w : Wiring) (name trigger action : String) :
    (w.addNode name).hasEdge trigger action = w.hasEdge trigger action := by
  cases h : w.targets.contains name with
  | true => rw [addNode, h]; rfl
  | false =>
    simp only [hasEdge, targetsOf?_addNode w h]
    by_cases e : trigger = name
    · have hnone : w.targetsOf? trigger = none := NameMap.get?_eq_none_iff.2 (e ▸ h)
      simp [e ▸ hnone, e]
    · simp [e]

theorem contains_addEdge (w : Wiring) (trigger action other : String) :
    (w.addEdge trigger action).targets.contains other =
      (decide (other = trigger) || w.targets.contains other) :=
  NameMap.contains_insert _ _ _ _

theorem hasEdge_addEdge (w : Wiring) (t a trigger action : String) :
    (w.addEdge t a).hasEdge trigger action =
      (decide (trigger = t ∧ action = a) || w.hasEdge trigger action) := by
  simp only [hasEdge, targetsOf?, addEdge, NameMap.get?_insert]
  by_cases e : trigger = t
  · subst e
    cases w.targets.get? trigger <;> simp [NameSet.add, NameMap.contains_insert]
  · simp [e]

theorem connect_eq_ok_iff {w w' : Wiring} {r : Registry} {trigger action : String} {line : Nat} :
    w.connect r trigger action line = .ok w' ↔
      ∃ t a, r.get? trigger = some t ∧ r.get? action = some a ∧ w' = w.addEdge t.name a.name := by
  simp only [connect, bind_eq_ok_iff, Registry.resolve_eq_ok_iff, pure_eq_ok_iff]
  refine ⟨fun h => ?_, fun h => ?_⟩
  · obtain ⟨t, ht, a, ha, rfl⟩ := h
    exact ⟨t, a, ht, ha, rfl⟩
  · obtain ⟨t, a, ht, ha, rfl⟩ := h
    exact ⟨t, ht, a, ha, rfl⟩

/-- Every name that an edge points at is registered. -/
def TargetsIn (w : Wiring) (r : Registry) : Prop :=
  ∀ trigger action, w.hasEdge trigger action = true → r.contains action = true

theorem targetsIn_iff {w : Wiring} {r : Registry} :
    w.TargetsIn r ↔
      ∀ trigger targets, (trigger, targets) ∈ w.targets.entries →
        ∀ action ∈ targets.names, r.contains action = true := by
  refine ⟨fun h trigger targets hmem action haction => ?_, fun h trigger action hedge => ?_⟩
  · refine h trigger action (hasEdge_iff.2 ⟨targets, NameMap.get?_eq_some_iff.2 hmem, ?_⟩)
    exact NameMap.mem_names.1 haction
  · obtain ⟨targets, htargets, haction⟩ := hasEdge_iff.1 hedge
    exact h trigger targets (NameMap.get?_eq_some_iff.1 htargets) action
      (NameMap.mem_names.2 haction)

/-- The counting check says that the entries are the registered names, and that edges point at
registered names. -/
theorem isClosedOver_iff {w : Wiring} {r : Registry} :
    w.isClosedOver r = true ↔
      (∀ name, w.targets.contains name = true ↔ r.contains name = true) ∧ w.TargetsIn r := by
  simp only [isClosedOver, Bool.and_eq_true, beq_iff_eq, List.all_eq_true, Prod.forall,
    targetsIn_iff]
  refine ⟨fun h => ?_, fun h => ?_⟩
  · obtain ⟨hsize, hall⟩ := h
    refine ⟨NameMap.contains_iff_of_size_eq hsize fun name hname => ?_,
      fun trigger targets hmem => (hall trigger targets hmem).2⟩
    obtain ⟨⟨_, targets⟩, hmem, rfl⟩ := List.mem_map.1 hname
    exact (hall _ targets hmem).1
  · obtain ⟨hnames, htargets⟩ := h
    refine ⟨NameMap.size_eq_of_contains_iff hnames, fun trigger targets hmem => ⟨?_, ?_⟩⟩
    · exact (hnames trigger).1 (NameMap.contains_of_get? (NameMap.get?_eq_some_iff.2 hmem))
    · exact htargets trigger targets hmem

/-- The check is exact for every wiring and registry, however they came about: the entries are
the registered names, no more and no fewer, and every target is one of them. It compares only
the counts and looks up only the wiring's names, but a registered name without an entry leaves a
name too many among the entries, and that one is not registered. -/
theorem counting_decides_closure (w : Wiring) (r : Registry) :
    (w.isClosedOver r = true ↔
      (∀ name, name ∈ w.targets.names ↔ name ∈ r.gadgets.names) ∧
        ∀ entry ∈ w.targets.entries, ∀ target ∈ entry.2.names, target ∈ r.gadgets.names) ∧
      (∀ name ∈ r.gadgets.names, name ∉ w.targets.names → w.isClosedOver r = false) ∧
      (∀ name ∈ w.targets.names, name ∉ r.gadgets.names → w.isClosedOver r = false) := by
  have hexact : w.isClosedOver r = true ↔
      (∀ name, name ∈ w.targets.names ↔ name ∈ r.gadgets.names) ∧
        ∀ entry ∈ w.targets.entries, ∀ target ∈ entry.2.names, target ∈ r.gadgets.names := by
    rw [isClosedOver_iff, targetsIn_iff]
    simp only [NameMap.mem_names, Prod.forall]
    rfl
  refine ⟨hexact, fun name hregistered hmissing => ?_, fun name hentry hunknown => ?_⟩
  · rw [← Bool.not_eq_true, hexact]
    intro h
    exact hmissing ((h.1 name).2 hregistered)
  · rw [← Bool.not_eq_true, hexact]
    intro h
    exact hunknown ((h.1 name).1 hentry)

/-- As many entries as gadgets, but one of another name. -/
theorem counts_alike_not_closed :
    let gadget (name : String) : Gadget := ⟨name, ⟨0, 0⟩, .squareBumper, 2⟩
    let r : Registry := ⟨.ofList [("a", gadget "a"), ("b", gadget "b")]⟩
    let w : Wiring := ⟨.ofList [("a", .empty), ("c", .empty)]⟩
    w.nodeCount = r.size ∧ "b" ∈ r.gadgets.names ∧ "b" ∉ w.targets.names ∧
      w.isClosedOver r = false := by
  intro gadget r w
  have hregistered : "b" ∈ r.gadgets.names := by decide
  have hmissing : "b" ∉ w.targets.names := by decide
  obtain ⟨-, hrejected, -⟩ := counting_decides_closure w r
  exact ⟨by decide, hregistered, hmissing, hrejected "b" hregistered hmissing⟩

/-- A wiring is known by its entries and its edges. -/
theorem ext_edges {w w' : Wiring}
    (hentries : ∀ name, w.targets.contains name = w'.targets.contains name)
    (hedges : ∀ trigger action, w.hasEdge trigger action = w'.hasEdge trigger action) :
    w = w' := by
  obtain ⟨m⟩ := w
  obtain ⟨m'⟩ := w'
  refine congrArg Wiring.mk (NameMap.ext_get? fun name => ?_)
  have hc := hentries name
  simp only [NameMap.contains] at hc
  cases h : m.get? name with
  | none =>
    rw [h] at hc
    exact (Option.not_isSome_iff_eq_none.1 (by rw [← hc]; decide)).symm
  | some targets =>
    rw [h] at hc
    obtain ⟨targets', h'⟩ : ∃ targets', m'.get? name = some targets' :=
      Option.isSome_iff_exists.1 hc.symm
    rw [h']
    refine congrArg some (NameMap.ext_get? fun action => ?_)
    have he := hedges name action
    simp only [hasEdge, targetsOf?, h, h', NameMap.contains] at he
    cases ha : targets.get? action <;> cases ha' : targets'.get? action <;> simp_all

end Wiring

end Playfield
