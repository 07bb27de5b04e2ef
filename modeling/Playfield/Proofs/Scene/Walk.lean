/-
  Playfield.Proofs.Scene.Walk — what one declaration does to a draft, and what a walk keeps.

  `Applies` says all that a declaration does when it can be worked in (`perform_eq_ok_iff`);
  when it cannot, the draft is as it was (`perform_error`). Nothing else unfolds the steps of
  the walk. From the one step follow the two things that a walk keeps:
  - `Sound`: gadgets are kept under their names and stand on cells, the entries are the
    registered names, edges point at registered names, and balls are finite. It is kept also
    past failures (`performEach_sound`).
  - `Records`: the draft holds what the declarations so far say, and nothing else
    (`applyAll_records`). A walk comes to its end exactly when the declarations are `Walkable`
    (`applyAll_iff_walkable`).
-/

import Mathlib.Data.List.Forall2
import Mathlib.Data.List.Induction
import Playfield.Proofs.Scene.Wiring
import Playfield.Proofs.Scene.Worth

namespace Playfield

open Board (Declaration)
open Source (Literal Span)

/-! ## What declarations say -/

namespace Board.Declaration

/-- The name of the gadget that a declaration declares. -/
def gadgetName? : Declaration → Option String
  | .gadget _ name _ _ _ => some name.text
  | _ => none

def isBall : Declaration → Bool
  | .ball .. => true
  | _ => false

/-- The declaration wires `trigger` to `action`. -/
inductive Fires : Declaration → String → String → Prop where
  | mk (trigger action : Literal) (span : Span) :
      Fires (.fire trigger action span) trigger.text action.text

/-- Every number of the declaration is one that its field can have. -/
def Decodes : Declaration → Prop
  | .gadget form name x y span => ∃ g, Worth.Gadget (.gadget form name x y span) g
  | .ball name x y u v span => ∃ b, Worth.Ball (.ball name x y u v span) b
  | .fire _ _ _ => True

/-- The names of the gadgets that are declared, in order. -/
def gadgetNames (declarations : List Declaration) : List String :=
  declarations.filterMap gadgetName?

end Board.Declaration

open Board.Declaration (gadgetNames Decodes)

/-- The declarations can be worked in one after the other: their numbers decode, gadgets have
different names, and a wiring comes after the two gadgets that it names. -/
structure Walkable (declarations : List Declaration) : Prop where
  decodes : ∀ x ∈ declarations, x.Decodes
  distinct : (gadgetNames declarations).Nodup
  wired : ∀ earlier x later, declarations = earlier ++ x :: later →
    ∀ trigger action, x.Fires trigger action →
      trigger ∈ gadgetNames earlier ∧ action ∈ gadgetNames earlier

namespace Draft

/-! ## One step -/

/-- What a declaration makes of a draft, when it can be worked in. -/
inductive Applies (d : Draft) : Declaration → Draft → Prop where
  | gadget {x : Declaration} {g : Gadget} :
      Worth.Gadget x g → d.registry.contains g.name = false →
      Applies d x
        { d with registry := ⟨d.registry.gadgets.insert g.name g⟩, wiring := d.wiring.addNode g.name }
  | ball {x : Declaration} {b : Ball} :
      Worth.Ball x b → Applies d x { d with balls := d.balls ++ [b] }
  | fire {trigger action : Literal} {t a : Gadget} (span : Span) :
      d.registry.get? trigger.text = some t → d.registry.get? action.text = some a →
      Applies d (.fire trigger action span) { d with wiring := d.wiring.addEdge t.name a.name }

/-- Work that goes on with a settled result. -/
theorem settle_bind_run {α : Type} (x : Except Fault α) (f : α → Work Unit) (d : Draft) :
    (settle x >>= f) d =
      match x with
      | .ok a => f a d
      | .error why => .error why d := by
  cases x <;> rfl

theorem addGadget_run (g : Gadget) (d : Draft) :
    addGadget g d =
      match d.registry.register g with
      | .ok registry => .ok () { d with registry, wiring := d.wiring.addNode g.name }
      | .error why => .error why d := by
  show (settle (d.registry.register g) >>= _) d = _
  rw [settle_bind_run]
  cases d.registry.register g <;> rfl

theorem addFire_run (trigger action : String) (line : Nat) (d : Draft) :
    addFire trigger action line d =
      match d.wiring.connect d.registry trigger action line with
      | .ok wiring => .ok () { d with wiring }
      | .error why => .error why d := by
  show (settle (d.wiring.connect d.registry trigger action line) >>= _) d = _
  rw [settle_bind_run]
  cases d.wiring.connect d.registry trigger action line <;> rfl

theorem perform_eq_ok_iff {d d' : Draft} {x : Declaration} :
    perform x d = .ok () d' ↔ Applies d x d' := by
  cases x with
  | gadget form name px py span =>
    rw [perform, settle_bind_run]
    refine ⟨fun h => ?_, fun h' => ?_⟩
    · split at h
      · rename_i g hg
        rw [addGadget_run] at h
        split at h
        · rename_i registry hr
          obtain ⟨hfree, rfl⟩ := Registry.register_eq_ok_iff.1 hr
          cases h
          exact .gadget (gadgetOf_eq_ok_iff.1 hg) hfree
        · cases h
      · cases h
    · rcases h' with ⟨hg, hfree⟩ | ⟨hb⟩
      · rw [gadgetOf_eq_ok_iff.2 hg]
        simp only [addGadget_run, Registry.register_eq_ok_iff.2 ⟨hfree, rfl⟩]
      · cases hb
  | ball name px py u v span =>
    rw [perform, settle_bind_run]
    refine ⟨fun h => ?_, fun h' => ?_⟩
    · split at h
      · rename_i b hb
        cases h
        exact .ball (ballOf_eq_ok_iff.1 hb)
      · cases h
    · rcases h' with ⟨hg, -⟩ | ⟨hb⟩
      · cases hg
      · rw [ballOf_eq_ok_iff.2 hb]
        rfl
  | fire trigger action span =>
    rw [perform, addFire_run]
    refine ⟨fun h => ?_, fun h' => ?_⟩
    · split at h
      · rename_i wiring hw
        obtain ⟨t, a, ht, ha, rfl⟩ := Wiring.connect_eq_ok_iff.1 hw
        cases h
        exact .fire span ht ha
      · cases h
    · rcases h' with ⟨hg, -⟩ | ⟨hb⟩ | ⟨_, ht, ha⟩
      · cases hg
      · cases hb
      · rw [Wiring.connect_eq_ok_iff.2 ⟨_, _, ht, ha, rfl⟩]

/-- A declaration that fails has changed nothing. -/
theorem perform_error {d d' : Draft} {x : Declaration} {why : Fault}
    (h : perform x d = .error why d') : d' = d := by
  cases x with
  | gadget form name px py span =>
    rw [perform, settle_bind_run] at h
    split at h
    · rw [addGadget_run] at h
      split at h <;> cases h
      rfl
    · cases h
      rfl
  | ball name px py u v span =>
    rw [perform, settle_bind_run] at h
    split at h <;> cases h
    rfl
  | fire trigger action span =>
    rw [perform, addFire_run] at h
    split at h <;> cases h
    rfl

theorem apply_eq_ok_iff {d d' : Draft} {x : Declaration} :
    d.apply x = .ok d' ↔ Applies d x d' := by
  rw [← perform_eq_ok_iff, apply]
  cases perform x d <;> simp

/-- After one declaration a draft is as it was, or the declaration is worked in. -/
theorem after_perform (d : Draft) (x : Declaration) :
    d.after (perform x) = d ∨ Applies d x (d.after (perform x)) := by
  rw [← perform_eq_ok_iff, after]
  cases h : perform x d with
  | ok _ d' => exact .inr rfl
  | error why d' => exact .inl (perform_error h)

/-- A walk over declarations that can all be applied passes over none. -/
theorem performEach_of_applyAll {d d' : Draft} {declarations : List Declaration}
    (h : d.applyAll declarations = .ok d') : d.performEach declarations = d' := by
  induction declarations generalizing d with
  | nil =>
    cases h
    rfl
  | cons x declarations ih =>
    rw [applyAll, List.foldlM_cons, bind_eq_ok_iff] at h
    obtain ⟨d₁, hd₁, h⟩ := h
    have hafter : d.after (perform x) = d₁ := by
      rw [apply_eq_ok_iff, ← perform_eq_ok_iff] at hd₁
      rw [after, hd₁]
    rw [performEach, List.foldl_cons, hafter]
    exact ih h

/-! ## What a walk keeps, also past failures -/

/-- What every draft keeps: its parts fit together and its numbers are finite. -/
structure Sound (d : Draft) : Prop where
  named : d.registry.Named
  sized : d.registry.Sized
  entries : ∀ name, d.wiring.targets.contains name = true ↔ d.registry.contains name = true
  targets : d.wiring.TargetsIn d.registry
  finite : ∀ b ∈ d.balls, b.isFinite = true

theorem Sound.registered {d : Draft} (hd : d.Sound) {name : String} {g : Gadget}
    (h : d.registry.get? name = some g) : d.registry.contains g.name = true := by
  rw [hd.named name g h, Registry.contains_eq_isSome, h]
  rfl

theorem sound_empty : ({} : Draft).Sound where
  named _ _ h := nomatch h
  sized _ _ h := nomatch h
  entries _ := Iff.rfl
  targets _ _ h := nomatch h
  finite _ h := nomatch h

theorem Applies.sound {d d' : Draft} {x : Declaration} (hd : d.Sound) (h : Applies d x d') :
    d'.Sound := by
  cases h with
  | gadget hg _ =>
    refine ⟨fun name g' h => ?_, fun name g' h => ?_, fun name => ?_, fun t a h => ?_, hd.finite⟩
    · rw [Registry.get?_insert] at h
      split at h
      · rename_i e; cases h; exact e.symm
      · exact hd.named name g' h
    · rw [Registry.get?_insert] at h
      split at h
      · cases h; exact hg.sized
      · exact hd.sized name g' h
    · rw [Wiring.contains_addNode, Registry.contains_insert, Bool.or_eq_true, Bool.or_eq_true,
        hd.entries name]
    · rw [Wiring.hasEdge_addNode] at h
      rw [Registry.contains_insert, hd.targets t a h, Bool.or_true]
  | ball hb =>
    refine ⟨hd.named, hd.sized, hd.entries, hd.targets, fun b' h => ?_⟩
    rcases List.mem_append.1 h with h | h
    · exact hd.finite b' h
    · cases List.mem_singleton.1 h; exact hb.isFinite
  | fire span ht ha =>
    have htc := hd.registered ht
    have hac := hd.registered ha
    refine ⟨hd.named, hd.sized, fun name => ?_, fun t' a' h => ?_, hd.finite⟩
    · rw [Wiring.contains_addEdge, Bool.or_eq_true, decide_eq_true_eq, hd.entries name]
      refine ⟨fun h' => ?_, .inr⟩
      rcases h' with rfl | h
      · exact htc
      · exact h
    · rw [Wiring.hasEdge_addEdge, Bool.or_eq_true, decide_eq_true_eq] at h
      rcases h with ⟨-, rfl⟩ | h
      · exact hac
      · exact hd.targets t' a' h

theorem performEach_sound {d : Draft} (hd : d.Sound) (declarations : List Declaration) :
    (d.performEach declarations).Sound := by
  induction declarations generalizing d with
  | nil => exact hd
  | cons x declarations ih =>
    refine ih (d := d.after (perform x)) ?_
    rcases d.after_perform x with h | h
    · rwa [h]
    · exact h.sound hd

/-! ## What a walk without failures records -/

theorem exists_mem_concat {α : Type} {p : α → Prop} {l : List α} {x : α} :
    (∃ y ∈ l ++ [x], p y) ↔ (∃ y ∈ l, p y) ∨ p x := by
  simp [or_and_right, exists_or]

theorem gadgetNames_concat (declarations : List Declaration) (x : Declaration) :
    gadgetNames (declarations ++ [x]) = gadgetNames declarations ++ x.gadgetName?.toList := by
  rw [gadgetNames, gadgetNames, List.filterMap_append]
  cases x <;> rfl

/-- The draft holds what the declarations say, and nothing else. -/
structure Records (d : Draft) (declarations : List Declaration) : Prop where
  gadgets : ∀ name g, d.registry.get? name = some g ↔
    ∃ x ∈ declarations, Worth.Gadget x g ∧ g.name = name
  names : ∀ name, d.registry.contains name = true ↔ name ∈ gadgetNames declarations
  edges : ∀ trigger action, d.wiring.hasEdge trigger action = true ↔
    ∃ x ∈ declarations, x.Fires trigger action
  balls : List.Forall₂ Worth.Ball (declarations.filter (·.isBall)) d.balls

theorem records_empty : ({} : Draft).Records [] where
  gadgets _ _ := by simp
  names _ := by simp [Registry.contains_eq_isSome, gadgetNames]
  edges _ _ := by simp [Wiring.hasEdge, Wiring.targetsOf?]
  balls := .nil

variable {d d' : Draft} {declarations : List Declaration} {x : Declaration}

theorem Records.gadget {g : Gadget} (hr : d.Records declarations) (hg : Worth.Gadget x g)
    (hfree : d.registry.contains g.name = false) :
    Records { d with
      registry := ⟨d.registry.gadgets.insert g.name g⟩
      wiring := d.wiring.addNode g.name } (declarations ++ [x]) := by
  refine ⟨fun name g' => ?_, fun name => ?_, fun t a => ?_, ?_⟩
  · rw [Registry.get?_insert, exists_mem_concat, ← hr.gadgets]
    by_cases e : name = g.name
    · have hnone : d.registry.get? name = none := NameMap.get?_eq_none_iff.2 (e ▸ hfree)
      rw [if_pos e, hnone]
      refine ⟨fun h => ?_, fun h => ?_⟩
      · cases h
        exact .inr ⟨hg, e.symm⟩
      · rcases h with h | ⟨hg', -⟩
        · cases h
        · rw [hg.unique hg']
    · rw [if_neg e]
      refine ⟨.inl, fun h => ?_⟩
      rcases h with h | ⟨hg', rfl⟩
      · exact h
      · exact absurd (congrArg Gadget.name (hg'.unique hg)) e
  · rw [Registry.contains_insert, Bool.or_eq_true, decide_eq_true_eq, hr.names,
      gadgetNames_concat]
    cases hg
    simp [Board.Declaration.gadgetName?, or_comm]
  · rw [Wiring.hasEdge_addNode, exists_mem_concat, hr.edges]
    refine ⟨.inl, Or.rec id fun hf => ?_⟩
    cases hg
    cases hf
  · rw [List.filter_append]
    cases hg
    simpa [Board.Declaration.isBall] using hr.balls

theorem Records.ball {b : Ball} (hr : d.Records declarations) (hb : Worth.Ball x b) :
    Records { d with balls := d.balls ++ [b] } (declarations ++ [x]) := by
  refine ⟨fun name g => ?_, fun name => ?_, fun t a => ?_, ?_⟩
  · rw [exists_mem_concat, ← hr.gadgets]
    refine ⟨.inl, Or.rec id fun hg => ?_⟩
    cases hb
    cases hg.1
  · rw [hr.names, gadgetNames_concat]
    cases hb
    simp [Board.Declaration.gadgetName?]
  · rw [exists_mem_concat, hr.edges]
    refine ⟨.inl, Or.rec id fun hf => ?_⟩
    cases hb
    cases hf
  · rw [List.filter_append]
    refine List.rel_append hr.balls ?_
    cases hb
    exact .cons (.mk _ ‹_› ‹_› ‹_› ‹_›) .nil

theorem Records.fire {trigger action : Literal} (span : Span) (hr : d.Records declarations) :
    Records { d with wiring := d.wiring.addEdge trigger.text action.text }
      (declarations ++ [.fire trigger action span]) := by
  refine ⟨fun name g => ?_, fun name => ?_, fun t a => ?_, ?_⟩
  · rw [exists_mem_concat, ← hr.gadgets]
    exact ⟨.inl, Or.rec id fun hg => nomatch hg.1⟩
  · simp [hr.names, gadgetNames_concat, Board.Declaration.gadgetName?]
  · rw [Wiring.hasEdge_addEdge, Bool.or_eq_true, decide_eq_true_eq, exists_mem_concat, hr.edges,
      or_comm]
    refine or_congr_right ⟨fun h => ?_, fun h => ?_⟩
    · obtain ⟨rfl, rfl⟩ := h
      exact .mk _ _ span
    · cases h
      exact ⟨rfl, rfl⟩
  · simpa [Board.Declaration.isBall] using hr.balls

/-- One more declaration that is worked in is one more that is recorded. -/
theorem Applies.records (hd : d.Sound) (hr : d.Records declarations) (h : Applies d x d') :
    d'.Records (declarations ++ [x]) := by
  cases h with
  | gadget hg hfree => exact hr.gadget hg hfree
  | ball hb => exact hr.ball hb
  | fire span ht ha =>
    -- The edge is added between the names the gadgets have, which are those they are kept under.
    rw [hd.named _ _ ht, hd.named _ _ ha]
    exact hr.fire span

/-! ## When a walk comes to its end -/

/-- The declaration can be worked in after the others. -/
structure Follows (x : Declaration) (declarations : List Declaration) : Prop where
  decodes : x.Decodes
  fresh : ∀ name, x.gadgetName? = some name → name ∉ gadgetNames declarations
  wired : ∀ trigger action, x.Fires trigger action →
    trigger ∈ gadgetNames declarations ∧ action ∈ gadgetNames declarations

theorem Records.exists_get? {d : Draft} {declarations : List Declaration}
    (hr : d.Records declarations) {name : String} :
    (∃ g, d.registry.get? name = some g) ↔ name ∈ gadgetNames declarations := by
  rw [← hr.names, Registry.contains_eq_isSome, Option.isSome_iff_exists]

theorem Records.applies_iff {d : Draft} {declarations : List Declaration}
    (hr : d.Records declarations) (x : Declaration) :
    (∃ d', Applies d x d') ↔ Follows x declarations := by
  refine ⟨fun h' => ?_, fun h' => ?_⟩
  · obtain ⟨d', h⟩ := h'
    cases h with
    | gadget hg hfree =>
      rw [← Bool.not_eq_true, hr.names] at hfree
      cases hg with
      | mk span hk hx hy =>
        refine ⟨⟨_, .mk span hk hx hy⟩, fun name hname => ?_, fun t a hf => nomatch hf⟩
        cases hname
        exact hfree
    | ball hb =>
      cases hb with
      | mk span hx hy hu hv =>
        exact ⟨⟨_, .mk span hx hy hu hv⟩, fun _ h => (nomatch h), fun _ _ hf => nomatch hf⟩
    | fire span ht ha =>
      refine ⟨trivial, fun _ h => (nomatch h), fun t a hf => ?_⟩
      cases hf
      exact ⟨hr.exists_get?.1 ⟨_, ht⟩, hr.exists_get?.1 ⟨_, ha⟩⟩
  · obtain ⟨hdec, hfresh, hwired⟩ := h'
    cases x with
    | gadget form name px py span =>
      obtain ⟨g, hg⟩ := hdec
      have hname : g.name = name.text := by cases hg; rfl
      have hfree := hfresh name.text rfl
      rw [← hr.names, ← hname, Bool.not_eq_true] at hfree
      exact ⟨_, .gadget hg hfree⟩
    | ball name px py u v span =>
      obtain ⟨b, hb⟩ := hdec
      exact ⟨_, .ball hb⟩
    | fire trigger action span =>
      obtain ⟨ht, ha⟩ := hwired _ _ (.mk trigger action span)
      obtain ⟨t, ht⟩ := hr.exists_get?.2 ht
      obtain ⟨a, ha⟩ := hr.exists_get?.2 ha
      exact ⟨_, .fire span ht ha⟩

theorem walkable_concat {declarations : List Declaration} {x : Declaration} :
    Walkable (declarations ++ [x]) ↔ Walkable declarations ∧ Follows x declarations := by
  refine ⟨fun h' => ?_, fun h' => ?_⟩
  · obtain ⟨hdec, hdist, hwired⟩ := h'
    rw [gadgetNames_concat, List.nodup_append] at hdist
    refine ⟨⟨fun y hy => hdec y (List.mem_append_left _ hy), hdist.1, ?_⟩,
      hdec x (by simp), fun name hname hmem => ?_, hwired declarations x [] rfl⟩
    · intro earlier y later e
      exact hwired earlier y (later ++ [x]) (by rw [e]; simp)
    · exact hdist.2.2 name hmem name (by simp [hname]) rfl
  · obtain ⟨⟨hdec, hdist, hwired⟩, hx⟩ := h'
    refine ⟨fun y hy => ?_, ?_, ?_⟩
    · rcases List.mem_append.1 hy with hy | hy
      · exact hdec y hy
      · cases List.mem_singleton.1 hy; exact hx.decodes
    · rw [gadgetNames_concat, List.nodup_append]
      refine ⟨hdist, by cases x.gadgetName? <;> simp, fun name hmem name' hname' e => ?_⟩
      exact hx.fresh name (by simpa [e] using hname') hmem
    · intro earlier y later e
      rcases List.eq_nil_or_concat' later with rfl | ⟨later, z, rfl⟩
      · obtain ⟨rfl, h⟩ := List.append_inj' e rfl
        cases h
        exact hx.wired
      · rw [← List.cons_append, ← List.append_assoc] at e
        obtain ⟨rfl, -⟩ := List.append_inj' e rfl
        exact hwired earlier y later rfl

theorem applyAll_concat (d : Draft) (declarations : List Declaration) (x : Declaration) :
    d.applyAll (declarations ++ [x]) = d.applyAll declarations >>= (·.apply x) := by
  simp [applyAll, List.foldlM_append]

/-- A walk that comes to its end leaves a sound draft of exactly what was declared. -/
theorem applyAll_records {declarations : List Declaration} {d : Draft}
    (h : ({} : Draft).applyAll declarations = .ok d) : d.Sound ∧ d.Records declarations := by
  induction declarations using List.reverseRecOn generalizing d with
  | nil => cases h; exact ⟨sound_empty, records_empty⟩
  | append_singleton declarations x ih =>
    rw [applyAll_concat, bind_eq_ok_iff] at h
    obtain ⟨d₀, h₀, hx⟩ := h
    obtain ⟨hs, hr⟩ := ih h₀
    have hx := apply_eq_ok_iff.1 hx
    exact ⟨hx.sound hs, hx.records hs hr⟩

theorem applyAll_iff_walkable {declarations : List Declaration} :
    (∃ d, ({} : Draft).applyAll declarations = .ok d) ↔ Walkable declarations := by
  induction declarations using List.reverseRecOn with
  | nil =>
    refine ⟨fun _ => ⟨fun _ h => (nomatch h), .nil, fun earlier x later e => ?_⟩, fun _ => ⟨{}, rfl⟩⟩
    cases earlier <;> cases e
  | append_singleton declarations x ih =>
    rw [walkable_concat, ← ih]
    simp only [applyAll_concat, bind_eq_ok_iff, apply_eq_ok_iff]
    refine ⟨fun h' => ?_, fun h' => ?_⟩
    · obtain ⟨d', d, hd, hx⟩ := h'
      exact ⟨⟨d, hd⟩, ((applyAll_records hd).2.applies_iff x).1 ⟨d', hx⟩⟩
    · obtain ⟨⟨d, hd⟩, hx⟩ := h'
      obtain ⟨d', hx⟩ := ((applyAll_records hd).2.applies_iff x).2 hx
      exact ⟨d', d, hd, hx⟩

end Draft

end Playfield
