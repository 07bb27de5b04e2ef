/-
  Playfield.Proofs.Scene.Layout — the layout of a text does not change the scene that it describes.

  Two boards that say the same are built side by side. What a literal is worth depends on what it
  says, so the two declarations of a step ask for the same gadget, ball or wiring, and the two
  drafts, which differ at most in the lines they remember, accept or refuse it alike
  (`apply_agree`). By induction the walks agree, and then the scenes do.

  With `groups_eq_of_relaid` this says of texts: changes of layout keep the outcome. Either both
  texts have a scene, and the two differ at most in the lines of gadgets and balls, or neither
  has one, and the faults are of one kind and blame the same field or name
  (`layout_keeps_outcome`).
-/

import Playfield.Proofs.Board.Layout
import Playfield.Proofs.Scene.Order
import Playfield.Proofs.Source.Layout

namespace Playfield

open Board (Declaration Form Header told told_cons_iff told_some_cons_iff)
open Source (Literal Span)

/-! ## Without lines -/

/-- The gadget without the line that declared it. -/
def Gadget.unplaced (g : Gadget) : Gadget :=
  { g with line := 0 }

/-- The ball without the line that declared it. -/
def Ball.unplaced (b : Ball) : Ball :=
  { b with line := 0 }

/-- The registries hold the same gadgets, but for the lines that declared them. -/
def Registry.Alike (r r' : Registry) : Prop :=
  ∀ name, (r.get? name).map Gadget.unplaced = (r'.get? name).map Gadget.unplaced

/-- The drafts differ at most in the lines of gadgets and balls. -/
structure Draft.Alike (d d' : Draft) : Prop where
  gadgets : d.registry.Alike d'.registry
  wiring : d.wiring = d'.wiring
  balls : d.balls.map Ball.unplaced = d'.balls.map Ball.unplaced

/-- The scenes differ at most in the lines of gadgets and balls. -/
structure Scene.Alike (s t : Scene) : Prop where
  name : s.name = t.name
  gravity : s.gravity = t.gravity
  friction1 : s.friction1 = t.friction1
  friction2 : s.friction2 = t.friction2
  timeStep : s.timeStep = t.timeStep
  gadgets : s.registry.Alike t.registry
  wiring : s.wiring = t.wiring
  balls : s.balls.map Ball.unplaced = t.balls.map Ball.unplaced

/-! ## Literals that say the same -/

namespace Decode

variable {l l' : Literal} {o o' : Option Literal}

theorem mapError_agree {α : Type} (x : Except Rejection α) (l l' : Literal) (field : String) :
    Agree Eq (x.mapError (rejected l field)) (x.mapError (rejected l' field)) := by
  cases x with
  | ok _ => exact .ok rfl
  | error why => exact .error (.badField ..)

theorem integer_agree (h : l.said = l'.said) (field : String) :
    Agree Eq (integer l field) (integer l' field) := by
  rw [integer, integer, Literal.text_eq_of_said h]
  exact mapError_agree _ l l' field

theorem number_agree (h : l.said = l'.said) (field : String) :
    Agree Eq (number l field) (number l' field) := by
  rw [number, number, Literal.text_eq_of_said h]
  exact mapError_agree _ l l' field

/-- Two literals that may be left out are both left out or say the same. -/
theorem said_cases (h : o.map Literal.said = o'.map Literal.said) :
    (o = none ∧ o' = none) ∨ ∃ l l', o = some l ∧ o' = some l' ∧ l.said = l'.said := by
  cases o with
  | none => exact .inl ⟨rfl, Option.map_eq_none_iff.1 h.symm⟩
  | some l =>
    obtain ⟨l', hl', hsaid⟩ := Option.map_eq_some_iff.1 h.symm
    exact .inr ⟨l, l', rfl, hl', hsaid.symm⟩

theorem numberOr_agree (h : o.map Literal.said = o'.map Literal.said) (field : String)
    (fallback : Binary64) : Agree Eq (numberOr o field fallback) (numberOr o' field fallback) := by
  rcases said_cases h with ⟨rfl, rfl⟩ | ⟨l, l', rfl, rfl, hl⟩
  · exact .ok rfl
  · exact number_agree hl field

theorem orientation_agree (h : o.map Literal.said = o'.map Literal.said) :
    Agree Eq (orientation o) (orientation o') := by
  rcases said_cases h with ⟨rfl, rfl⟩ | ⟨l, l', rfl, rfl, hl⟩
  · exact .ok rfl
  · refine (integer_agree hl "orientation").bind_eq ?_
    intro degrees
    cases Orientation.ofDegrees? degrees.toInt with
    | some _ => exact .ok rfl
    | none => exact .error (.badField ..)

theorem dimension_agree (h : l.said = l'.said) (field : String) :
    Agree Eq (dimension l field) (dimension l' field) := by
  refine (integer_agree h field).bind_eq ?_
  intro size
  by_cases hsize : 1 ≤ size.toInt
  · rw [if_pos hsize, if_pos hsize]
    exact .ok rfl
  · rw [if_neg hsize, if_neg hsize]
    exact .error (.badField ..)

end Decode

/-! ## Declarations that say the same -/

/-- The literals of a form by key. -/
def Board.Form.fields : Form → List (String × Option Literal)
  | .squareBumper | .circleBumper => []
  | .triangleBumper orientation | .flipper _ orientation => [("orientation", orientation)]
  | .absorber width height => [("width", some width), ("height", some height)]

theorem Board.Declaration.fields_gadget (form : Form) (name x y : Literal) (span : Span) :
    (Declaration.gadget form name x y span).fields =
      [("name", some name), ("x", some x), ("y", some y)] ++ form.fields := by
  cases form <;> rfl

namespace Draft

theorem kindOf_agree {form form' : Form} (hkeyword : form.keyword = form'.keyword)
    (hfields : told form.fields = told form'.fields) : Agree Eq (kindOf form) (kindOf form') := by
  cases form with
  | squareBumper =>
    cases form' <;> cases hkeyword
    exact .ok rfl
  | circleBumper =>
    cases form' <;> cases hkeyword
    exact .ok rfl
  | triangleBumper orientation =>
    cases form' <;> cases hkeyword
    obtain ⟨horientation, -⟩ := told_cons_iff.1 hfields
    refine (Decode.orientation_agree horientation).bind_eq ?_
    intro o
    exact .ok rfl
  | absorber width height =>
    cases form' <;> cases hkeyword
    obtain ⟨hwidth, hheight⟩ := told_some_cons_iff.1 hfields
    refine (Decode.dimension_agree hwidth "width").bind_eq ?_
    intro w
    refine (Decode.dimension_agree (told_some_cons_iff.1 hheight).1 "height").bind_eq ?_
    intro h
    exact .ok rfl
  | flipper side orientation =>
    cases form' <;> cases hkeyword
    obtain ⟨horientation, -⟩ := told_cons_iff.1 hfields
    refine (Decode.orientation_agree horientation).bind_eq ?_
    intro o
    exact .ok rfl

theorem gadgetOf_agree {form form' : Form} {name name' x x' y y' : Literal} {span span' : Span}
    (h : (Declaration.gadget form name x y span).Alike (.gadget form' name' x' y' span')) :
    Agree (fun g g' => g.unplaced = g'.unplaced) (gadgetOf form name x y span)
      (gadgetOf form' name' x' y' span') := by
  have hfields := h.fields
  simp only [Declaration.fields_gadget, List.cons_append, List.nil_append, told_some_cons_iff]
    at hfields
  obtain ⟨hname, hx, hy, hform⟩ := hfields
  refine (kindOf_agree h.keyword hform).bind_eq ?_
  intro kind
  refine (Decode.integer_agree hx "x").bind_eq ?_
  intro i
  refine (Decode.integer_agree hy "y").bind_eq ?_
  intro j
  exact .ok (by rw [Gadget.unplaced, Gadget.unplaced, Literal.text_eq_of_said hname])

theorem ballOf_agree {name name' x x' y y' u u' v v' : Literal} {span span' : Span}
    (h : (Declaration.ball name x y u v span).Alike (.ball name' x' y' u' v' span')) :
    Agree (fun b b' => b.unplaced = b'.unplaced) (ballOf name x y u v span)
      (ballOf name' x' y' u' v' span') := by
  have hfields := h.fields
  simp only [Declaration.fields, told_some_cons_iff] at hfields
  obtain ⟨hname, hx, hy, hu, hv, -⟩ := hfields
  refine (Decode.number_agree hx "x").bind_eq ?_
  intro px
  refine (Decode.number_agree hy "y").bind_eq ?_
  intro py
  refine (Decode.number_agree hu "xVelocity").bind_eq ?_
  intro vx
  refine (Decode.number_agree hv "yVelocity").bind_eq ?_
  intro vy
  exact .ok (by rw [Ball.unplaced, Ball.unplaced, Literal.text_eq_of_said hname])

end Draft

/-! ## Registries and wirings -/

theorem Gadget.name_eq_of_unplaced {g g' : Gadget} (h : g.unplaced = g'.unplaced) :
    g.name = g'.name := by
  have hname : g.unplaced.name = g'.unplaced.name := congrArg Gadget.name h
  exact hname

section

variable {r r' : Registry}

theorem Registry.Alike.register (hr : r.Alike r') {g g' : Gadget} (hg : g.unplaced = g'.unplaced) :
    Agree Registry.Alike (r.register g) (r'.register g') := by
  have hname := Gadget.name_eq_of_unplaced hg
  have hfound := hr g.name
  rw [Registry.register, Registry.register, ← hname]
  cases hfirst : r.get? g.name with
  | some first =>
    rw [hfirst] at hfound
    obtain ⟨first', hfirst', -⟩ := Option.map_eq_some_iff.1 hfound.symm
    rw [hfirst']
    exact .error (.duplicate ..)
  | none =>
    rw [hfirst] at hfound
    rw [Option.map_eq_none_iff.1 hfound.symm]
    refine .ok ?_
    intro name
    rw [Registry.get?_insert, hname, Registry.get?_insert]
    by_cases e : name = g'.name
    · rw [if_pos e, if_pos e]
      exact congrArg some hg
    · rw [if_neg e, if_neg e]
      exact hr name

theorem Registry.Alike.resolve (hr : r.Alike r') (name : String) (line line' : Nat) :
    Agree (fun g g' => g.unplaced = g'.unplaced) (r.resolve name line) (r'.resolve name line') := by
  have hfound := hr name
  rw [Registry.resolve, Registry.resolve]
  cases hg : r.get? name with
  | some g =>
    rw [hg] at hfound
    obtain ⟨g', hg', hsame⟩ := Option.map_eq_some_iff.1 hfound.symm
    rw [hg']
    exact .ok hsame.symm
  | none =>
    rw [hg] at hfound
    rw [Option.map_eq_none_iff.1 hfound.symm]
    exact .error (.unresolved ..)

theorem Registry.Alike.connect (hr : r.Alike r') (w : Wiring) (trigger action : String)
    (line line' : Nat) :
    Agree Eq (w.connect r trigger action line) (w.connect r' trigger action line') := by
  refine (hr.resolve trigger line line').bind ?_
  intro t t' ht
  refine (hr.resolve action line line').bind ?_
  intro a a' ha
  rw [Gadget.name_eq_of_unplaced ht, Gadget.name_eq_of_unplaced ha]
  exact .ok rfl

end

/-! ## Two walks -/

namespace Draft

theorem apply_gadget (d : Draft) (form : Form) (name x y : Literal) (span : Span) :
    d.apply (.gadget form name x y span) = do
      let g ← gadgetOf form name x y span
      let registry ← d.registry.register g
      return { d with registry, wiring := d.wiring.addNode g.name } := by
  rw [apply, perform, settle_bind_run]
  cases gadgetOf form name x y span with
  | error why => rfl
  | ok g =>
    simp only [addGadget_run, bind, Except.bind]
    cases d.registry.register g <;> rfl

theorem apply_ball (d : Draft) (name x y u v : Literal) (span : Span) :
    d.apply (.ball name x y u v span) = do
      let b ← ballOf name x y u v span
      return { d with balls := d.balls ++ [b] } := by
  rw [apply, perform, settle_bind_run]
  cases ballOf name x y u v span <;> rfl

theorem apply_fire (d : Draft) (trigger action : Literal) (span : Span) :
    d.apply (.fire trigger action span) = do
      let wiring ← d.wiring.connect d.registry trigger.text action.text span.line
      return { d with wiring } := by
  rw [apply, perform, addFire_run]
  cases d.wiring.connect d.registry trigger.text action.text span.line <;> rfl

variable {d d' : Draft}

/-- Declarations that say the same do the same to drafts that differ in lines only. -/
theorem apply_agree (hd : d.Alike d') {x x' : Declaration} (hx : x.Alike x') :
    Agree Draft.Alike (d.apply x) (d'.apply x') := by
  have hkeyword := hx.keyword
  cases x with
  | gadget form name px py span =>
    cases x' with
    | gadget form' name' px' py' span' =>
      rw [apply_gadget, apply_gadget]
      refine (gadgetOf_agree hx).bind ?_
      intro g g' hg
      refine (hd.gadgets.register hg).bind ?_
      intro r r' hr
      refine .ok ⟨hr, ?_, hd.balls⟩
      rw [hd.wiring, Gadget.name_eq_of_unplaced hg]
    | ball => cases form <;> cases hkeyword
    | fire => cases form <;> cases hkeyword
  | ball name px py u v span =>
    cases x' with
    | gadget form' => cases form' <;> cases hkeyword
    | ball name' px' py' u' v' span' =>
      rw [apply_ball, apply_ball]
      refine (ballOf_agree hx).bind ?_
      intro b b' hb
      refine .ok ⟨hd.gadgets, hd.wiring, ?_⟩
      rw [List.map_append, List.map_append, hd.balls, List.map_singleton, List.map_singleton, hb]
    | fire => cases hkeyword
  | fire trigger action span =>
    cases x' with
    | gadget form' => cases form' <;> cases hkeyword
    | ball => cases hkeyword
    | fire trigger' action' span' =>
      have hfields := hx.fields
      simp only [Declaration.fields, told_some_cons_iff] at hfields
      obtain ⟨htrigger, haction, -⟩ := hfields
      rw [apply_fire, apply_fire, hd.wiring, Literal.text_eq_of_said htrigger,
        Literal.text_eq_of_said haction]
      refine (hd.gadgets.connect d'.wiring _ _ span.line span'.line).bind_eq ?_
      intro w
      exact .ok ⟨hd.gadgets, rfl, hd.balls⟩

theorem applyAll_agree {declarations declarations' : List Declaration}
    (h : List.Forall₂ Declaration.Alike declarations declarations') (hd : d.Alike d') :
    Agree Draft.Alike (d.applyAll declarations) (d'.applyAll declarations') := by
  induction h generalizing d d' with
  | nil => exact .ok hd
  | cons hx _ ih =>
    rw [applyAll_cons, applyAll_cons]
    exact (apply_agree hd hx).bind fun _ _ hd => ih hd

theorem finish_agree (hd : d.Alike d') (settings : Settings) {header header' : Header}
    (h : told header.fields = told header'.fields) :
    Agree Scene.Alike (d.finish settings header) (d'.finish settings header') := by
  simp only [Header.fields, told_cons_iff] at h
  obtain ⟨hname, hgravity, hfriction1, hfriction2, -⟩ := h
  unfold finish
  rcases Decode.said_cases hname with ⟨hnone, hnone'⟩ | ⟨l, l', hl, hl', hsaid⟩
  · rw [hnone, hnone']
    exact .error (.badField ..)
  rw [hl, hl']
  refine (Decode.numberOr_agree hgravity "gravity" settings.gravity).bind_eq ?_
  intro gravity
  refine (Decode.numberOr_agree hfriction1 "friction1" settings.friction1).bind_eq ?_
  intro friction1
  refine (Decode.numberOr_agree hfriction2 "friction2" settings.friction2).bind_eq ?_
  intro friction2
  exact .ok ⟨Literal.text_eq_of_said hsaid, rfl, rfl, rfl, rfl, hd.gadgets, hd.wiring, hd.balls⟩

end Draft

/-! ## Boards and texts -/

namespace Scene

theorem ofBoard_agree (settings : Settings) {b b' : Board} (h : b.Alike b') :
    Agree Scene.Alike (ofBoard settings b) (ofBoard settings b') := by
  have hempty : ({} : Draft).Alike {} := ⟨fun _ => rfl, rfl, rfl⟩
  refine (Draft.applyAll_agree h.declarations hempty).bind ?_
  intro d d' hd
  exact Draft.finish_agree hd settings h.header

/-- Texts with the same groups of words have the same outcome, but for lines, and changes of
layout keep the groups. -/
theorem layout_keeps_outcome (s t : String) :
    (Source.Relaid s t → Source.groups s = Source.groups t) ∧
      (Source.groups s = Source.groups t → ∀ settings,
        Agree Scene.Alike (ofText settings s) (ofText settings t)) := by
  refine ⟨Source.groups_eq_of_relaid, ?_⟩
  intro hgroups settings
  refine (Board.parse_agree hgroups).bind ?_
  intro b b' hb
  exact ofBoard_agree settings hb

/-- A comment and a blank line move a bumper two lines down. A wiring that names no gadget stays
a fault, on another line. -/
theorem commented_bumper_keeps_outcome :
    let s := "board name=n\nsquareBumper name=a x=1 y=2\n"
    let t := "board name=n\n# a bumper\n\nsquareBumper name=a x=1 y=2"
    let fire := "\nfire trigger=a action=b"
    let lineOf (text : String) : Except Fault (Option UInt32) := do
      return ((← ofText {} text).gadget? "a").map (·.line)
    Source.Relaid s t ∧ Agree Scene.Alike (ofText {} s) (ofText {} t) ∧
      lineOf s = .ok (some 2) ∧ lineOf t = .ok (some 4) ∧
        Agree Scene.Alike (ofText {} (s ++ fire)) (ofText {} (t ++ fire)) ∧
          lineOf (s ++ fire) = .error (.unresolved "b" 4) ∧
            lineOf (t ++ fire) = .error (.unresolved "b" 5) := by
  intro s t fire lineOf
  have hrelaid : Source.Relaid s t := by
    let header := "board name=n\n".toList
    let bumper := "squareBumper name=a x=1 y=2".toList
    have hs : s.toList = header ++ bumper ++ ['\n'] := by decide +kernel
    have ht : t.toList = header ++ '#' :: (" a bumper".toList ++ '\n' :: '\n' :: bumper) := by
      decide +kernel
    have hheader : Source.StartsLine header := .inr ⟨"board name=n".toList, rfl⟩
    have hend : Source.Change (header ++ bumper ++ []) (header ++ bumper ++ ['\n']) :=
      .line (.inr (.inl rfl))
    have hline : Source.Change (header ++ bumper) (header ++ '\n' :: bumper) :=
      .line (.inl hheader)
    have hblank : Source.Change (header ++ '\n' :: bumper) (header ++ '\n' :: '\n' :: bumper) :=
      .line (.inl hheader)
    have hcomment : Source.Change (header ++ '\n' :: '\n' :: bumper)
        (header ++ '#' :: (" a bumper".toList ++ '\n' :: '\n' :: bumper)) :=
      .comment (by decide) (.inr ⟨_, rfl⟩)
    rw [List.append_nil] at hend
    rw [Source.Relaid, hs, ht]
    exact .trans _ _ _ (.symm _ _ (.rel _ _ hend)) (.trans _ _ _ (.rel _ _ hline)
      (.trans _ _ _ (.rel _ _ hblank) (.rel _ _ hcomment)))
  obtain ⟨hgroups, houtcome⟩ := layout_keeps_outcome s t
  obtain ⟨-, hfire⟩ := layout_keeps_outcome (s ++ fire) (t ++ fire)
  refine ⟨hrelaid, houtcome (hgroups hrelaid) {}, by decide +kernel, by decide +kernel,
    hfire (by decide +kernel) {}, by decide +kernel, by decide +kernel⟩

end Scene

end Playfield
