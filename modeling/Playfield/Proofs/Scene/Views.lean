/-
  Playfield.Proofs.Scene.Views — the views of a wiring show the same edges.

  A wiring can be looked at from a trigger, from an action, edge by edge and as a number. All of
  these are read off the list of edges:
  - The edges are in order, by trigger and then by action, so none is listed twice
    (`edges_sorted`), and they are the ones there are (`mem_edges`).
  - The targets of a name are the edges with that trigger (`length_edges_from`), and what triggers
    a name are the edges with that action (`length_edges_to`).
  - Edges sorted into drawers by a name of theirs are counted drawer by drawer
    (`length_eq_sum_drawers`). In a scene all triggers and all actions are registered, so the
    gadgets are drawers enough for both.

  Together: `views_agree`.
-/

import Mathlib.Algebra.BigOperators.Group.Finset.Basic
import Mathlib.Data.Prod.Lex
import Playfield.Proofs.Scene.Made
import Playfield.Proofs.Text.Order

namespace Playfield

open Board (Declaration Header)
open Text (Precedes precedes_eq_lt)

namespace NameMap

variable {α : Type}

theorem names_sorted (m : NameMap α) : m.names.Pairwise (· < ·) :=
  List.pairwise_map.2 m.sorted

end NameMap

namespace Wiring

variable (w : Wiring)

/-! ## Edge by edge -/

theorem edges_sorted : w.edges.Pairwise (Prod.Lex (· < ·) (· < ·)) := by
  rw [edges, List.pairwise_flatMap]
  constructor
  · intro e _
    rw [List.pairwise_map]
    apply e.2.names_sorted.imp
    intro a b hab
    exact .right _ hab
  · apply w.targets.sorted.imp
    intro e e' hlt x hx y hy
    obtain ⟨a, -, rfl⟩ := List.mem_map.1 hx
    obtain ⟨b, -, rfl⟩ := List.mem_map.1 hy
    exact .left _ _ hlt

theorem edges_nodup : w.edges.Nodup := by
  apply w.edges_sorted.imp
  rintro e _ hlt rfl
  cases hlt with
  | left _ _ h => exact String.lt_irrefl _ h
  | right _ h => exact String.lt_irrefl _ h

variable {w}

theorem mem_edges {t a : String} : (t, a) ∈ w.edges ↔ w.hasEdge t a = true := by
  simp only [edges, List.mem_flatMap, List.mem_map, hasEdge_iff, targetsOf?,
    NameMap.get?_eq_some_iff, NameMap.mem_names]
  constructor
  · rintro ⟨⟨t', targets⟩, hmem, a', ha, heq⟩
    cases heq
    exact ⟨targets, hmem, ha⟩
  · rintro ⟨targets, hmem, ha⟩
    exact ⟨(t, targets), hmem, a, ha, rfl⟩

/-! ## From a trigger and from an action -/

theorem mem_triggersOf {t a : String} : t ∈ w.triggersOf a ↔ w.hasEdge t a = true := by
  simp only [triggersOf, List.mem_map, List.mem_filter, hasEdge_iff, targetsOf?,
    NameMap.get?_eq_some_iff]
  constructor
  · rintro ⟨⟨t', targets⟩, ⟨hmem, ha⟩, rfl⟩
    exact ⟨targets, hmem, ha⟩
  · rintro ⟨targets, hmem, ha⟩
    exact ⟨(t, targets), ⟨hmem, ha⟩, rfl⟩

variable (w)

theorem triggersOf_sorted (a : String) : (w.triggersOf a).Pairwise (· < ·) :=
  List.pairwise_map.2 (w.targets.sorted.filter _)

/-! ## As a number -/

theorem edgeCount_eq_length : w.edgeCount = w.edges.length := by
  have hfold (l : List NameSet) (count : Nat) :
      l.foldl (fun count targets => count + targets.size) count =
        count + (l.map NameMap.size).sum := by
    induction l generalizing count with
    | nil => rfl
    | cons targets l ih =>
      rw [List.foldl_cons, ih, List.map_cons, List.sum_cons, Nat.add_assoc]
  rw [edgeCount, hfold, Nat.zero_add, edges, List.length_flatMap, NameMap.values, List.map_map]
  congr 1
  apply List.map_congr_left
  intro e _
  simp [NameMap.length_names]

/-- Things sorted into drawers by name are counted drawer by drawer. -/
theorem length_eq_sum_drawers {α : Type} [DecidableEq α] {l : List α} (hl : l.Nodup)
    (drawer : α → String) {names : List String} (hnames : names.Nodup)
    (h : ∀ x ∈ l, drawer x ∈ names) :
    l.length = (names.map fun name => (l.filter (drawer · = name)).length).sum := by
  have hcard (name : String) :
      (l.filter (drawer · = name)).length = (l.toFinset.filter (drawer · = name)).card := by
    rw [← List.toFinset_card_of_nodup (hl.filter _), List.toFinset_filter]
    simp
  have hmaps : ∀ x ∈ l.toFinset, drawer x ∈ names.toFinset := by
    intro x hx
    rw [List.mem_toFinset] at hx ⊢
    exact h x hx
  rw [← List.toFinset_card_of_nodup hl, Finset.card_eq_sum_card_fiberwise hmaps,
    List.sum_toFinset _ hnames]
  simp only [hcard]

/-- The edges from a name are its targets. -/
theorem length_edges_from (t : String) :
    (w.edges.filter (·.1 = t)).length = ((w.targetsOf? t).getD .empty).size := by
  have hperm : (w.edges.filter (·.1 = t)).Perm
      (((w.targetsOf? t).getD .empty).names.map (t, ·)) := by
    have hnodup := ((w.targetsOf? t).getD .empty).nodup_names
    refine (List.perm_ext_iff_of_nodup (w.edges_nodup.filter _)
      (hnodup.map (Prod.mk_right_injective t))).2 ?_
    rintro ⟨t', a⟩
    simp only [List.mem_filter, mem_edges, decide_eq_true_eq, List.mem_map, NameMap.mem_names,
      Prod.mk.injEq, hasEdge]
    constructor
    · rintro ⟨hedge, rfl⟩
      refine ⟨a, ?_, rfl, rfl⟩
      cases htargets : w.targetsOf? t' with
      | none => rw [htargets] at hedge; cases hedge
      | some targets => rw [htargets] at hedge; exact hedge
    · rintro ⟨a', ha, rfl, rfl⟩
      refine ⟨?_, rfl⟩
      cases htargets : w.targetsOf? t with
      | none => rw [htargets] at ha; cases ha
      | some targets => rw [htargets] at ha; exact ha
  rw [hperm.length_eq, List.length_map, NameMap.length_names]

/-- The edges to a name are what triggers it. -/
theorem length_edges_to (a : String) :
    (w.edges.filter (·.2 = a)).length = (w.triggersOf a).length := by
  have hperm : (w.edges.filter (·.2 = a)).Perm ((w.triggersOf a).map (·, a)) := by
    have hnodup : (w.triggersOf a).Nodup := (w.triggersOf_sorted a).imp String.ne_of_lt
    refine (List.perm_ext_iff_of_nodup (w.edges_nodup.filter _)
      (hnodup.map (Prod.mk_left_injective a))).2 ?_
    rintro ⟨t, a'⟩
    simp only [List.mem_filter, mem_edges, decide_eq_true_eq, List.mem_map, mem_triggersOf,
      Prod.mk.injEq]
    constructor
    · rintro ⟨hedge, rfl⟩
      exact ⟨t, hedge, rfl, rfl⟩
    · rintro ⟨t', hedge, rfl, rfl⟩
      exact ⟨hedge, rfl⟩
  rw [hperm.length_eq, List.length_map]

end Wiring

namespace Scene

/-- The scene was built from some declarations, those that failed left out, with any settings and
header, or it was decoded. -/
inductive Given : Scene → Prop where
  | built {settings : Settings} {declarations : List Declaration} {header : Header} {s : Scene} :
      (({} : Draft).performEach declarations).finish settings header = .ok s → Given s
  | decoded {bytes : List UInt8} {s : Scene} : unpack bytes = .ok s → Given s

/-- Entries and edges of the scene are between gadgets. -/
theorem Given.closed {s : Scene} (h : s.Given) :
    (∀ name, s.wiring.targets.contains name = true ↔ s.registry.contains name = true) ∧
      s.wiring.TargetsIn s.registry := by
  cases h with
  | @built _ declarations _ _ h =>
    have hsound := Draft.performEach_sound Draft.sound_empty declarations
    obtain ⟨-, hregistry, hwiring, -⟩ := Draft.finish_eq_ok_iff.1 h
    rw [hregistry, hwiring]
    exact ⟨hsound.entries, hsound.targets⟩
  | decoded h =>
    obtain ⟨hsound, -⟩ := good_of_unpack h
    exact ⟨hsound.entries, hsound.targets⟩

theorem given_of_ofText {settings : Settings} {text : String} {s : Scene}
    (h : ofText settings text = .ok s) : s.Given := by
  obtain ⟨board, -, h⟩ := bind_eq_ok_iff.1 h
  obtain ⟨d, hd, h⟩ := bind_eq_ok_iff.1 h
  exact .built (Draft.performEach_of_applyAll hd ▸ h)

/-- The edges of a scene are listed in the order of their bytes, first by trigger and then by
action, and none twice. Seen from either end they are the same edges, and counting them all,
those from each gadget, or those to each gadget gives the same number. -/
theorem views_agree {s : Scene} (h : s.Given) :
    let w := s.wiring
    let gadgets := s.registry.gadgets.names
    (w.edges.Pairwise (Prod.Lex Precedes Precedes) ∧ w.edges.Nodup) ∧
      (∀ t a, ((t, a) ∈ w.edges ↔ w.hasEdge t a = true) ∧
        (w.hasEdge t a = true ↔ ∃ targets, w.targetsOf? t = some targets ∧ a ∈ targets.names) ∧
        (w.hasEdge t a = true ↔ t ∈ w.triggersOf a)) ∧
      (∀ a, (w.triggersOf a).Pairwise Precedes) ∧
      w.edgeCount = w.edges.length ∧
      (∀ name ∈ gadgets, (w.targetsOf? name).isSome = true) ∧
      w.edgeCount = (gadgets.map fun name => ((w.targetsOf? name).getD .empty).size).sum ∧
      w.edgeCount = (gadgets.map fun name => (w.triggersOf name).length).sum := by
  intro w gadgets
  obtain ⟨hentries, htargets⟩ := h.closed
  have hfrom : ∀ e ∈ w.edges, e.1 ∈ gadgets := by
    rintro ⟨t, a⟩ he
    obtain ⟨targets, ht, -⟩ := Wiring.hasEdge_iff.1 (Wiring.mem_edges.1 he)
    rw [NameMap.mem_names]
    exact (hentries t).1 (NameMap.contains_of_get? ht)
  have hto : ∀ e ∈ w.edges, e.2 ∈ gadgets := by
    rintro ⟨t, a⟩ he
    rw [NameMap.mem_names]
    exact htargets t a (Wiring.mem_edges.1 he)
  have hgadgets : gadgets.Nodup := s.registry.gadgets.nodup_names
  rw [precedes_eq_lt]
  refine ⟨⟨w.edges_sorted, w.edges_nodup⟩, fun t a => ⟨Wiring.mem_edges, ?_, ?_⟩,
    w.triggersOf_sorted, w.edgeCount_eq_length, ?_, ?_, ?_⟩
  · simp only [NameMap.mem_names]
    exact Wiring.hasEdge_iff
  · exact Wiring.mem_triggersOf.symm
  · intro name hname
    exact (hentries name).2 (NameMap.mem_names.1 hname)
  · rw [w.edgeCount_eq_length, Wiring.length_eq_sum_drawers w.edges_nodup Prod.fst hgadgets hfrom]
    simp only [w.length_edges_from]
  · rw [w.edgeCount_eq_length, Wiring.length_eq_sum_drawers w.edges_nodup Prod.snd hgadgets hto]
    simp only [w.length_edges_to]

/-- Two gadgets, three edges: two of them lead to the same gadget, and two come from the other. -/
theorem views_of_three_edges :
    let text := "board name=n\ncircleBumper name=b x=0 y=0\ncircleBumper name=a x=1 y=0\n" ++
      "fire trigger=b action=b\nfire trigger=b action=a\nfire trigger=a action=a"
    ∃ s, ofText {} text = .ok s ∧ s.wiring.edges = [("a", "a"), ("b", "a"), ("b", "b")] ∧
      s.wiring.edges.Pairwise (Prod.Lex Precedes Precedes) ∧
      s.wiring.triggersOf "a" = ["a", "b"] ∧ s.wiring.edgeCount = 3 ∧
      (s.registry.gadgets.names.map fun name => (s.wiring.triggersOf name).length).sum = 3 := by
  intro text
  have hviews : (ofText {} text).map (fun s => (s.wiring.edges, s.wiring.triggersOf "a")) =
      .ok ([("a", "a"), ("b", "a"), ("b", "b")], ["a", "b"]) := by decide +kernel
  cases hs : ofText {} text with
  | error why => rw [hs] at hviews; cases hviews
  | ok s =>
    rw [hs, Except.map, Except.ok.injEq, Prod.mk.injEq] at hviews
    obtain ⟨hedges, htriggers⟩ := hviews
    obtain ⟨⟨hsorted, -⟩, -, -, hcount, -, -, hto⟩ := views_agree (given_of_ofText hs)
    rw [hedges] at hcount
    exact ⟨s, rfl, hedges, hsorted, htriggers, hcount, hto.symm.trans hcount⟩

end Scene

end Playfield
