/-
  Playfield.Proofs.Scene.Blame — which line the fault of a board points at.

  When a text is a board but no scene, the walk has come to a declaration that cannot be worked
  in after the ones in front of it, or to the header. The line of the fault comes from three
  places: a literal, the declaration, and the gadgets that were registered before. `Blames` says
  what each kind of fault says of the declarations of the text, by their lines:
  - A value that its field cannot have is a literal of the declaration itself.
  - A name that is taken was taken by one declaration, on an earlier line.
  - A name that is not found is the trigger's, unless a gadget of that name is declared on an
    earlier line; then it is the action's.

  One step that fails blames its declaration (`blames_of_apply`). A walk that fails has failed at
  the first such step (`exists_first_failing`), and the declarations of a text have lines of
  their own (`located_of_parse`). So every fault points at the line of one declaration
  (`fault_points_at_line`). Gadgets keep 32 bits of their line, so of a name that is taken this is
  said for the lines that 32 bits can count: for all of them in a text of fewer than 2^32 - 1
  characters (`Lossless.counters`).
-/

import Mathlib.Data.List.Pairwise
import Playfield.Proofs.Board.Layout
import Playfield.Proofs.Board.Location
import Playfield.Proofs.Scene.Layout

namespace Playfield

open Board (Declaration Form Header Located)
open Board.Declaration (gadgetNames)
open Source (Literal Span)

/-! ## Faults of single values -/

/-- The fault is that of one of the literals, by its key and its line. -/
def Fault.IsOf (why : Fault) (fields : List (String × Option Literal)) : Prop :=
  ∃ key l detail, (key, some l) ∈ fields ∧ why = .badField key detail l.line

theorem Fault.IsOf.mono {why : Fault} {fields fields' : List (String × Option Literal)}
    (h : why.IsOf fields) (hsub : fields ⊆ fields') : why.IsOf fields' := by
  obtain ⟨key, l, detail, hmem, rfl⟩ := h
  exact ⟨key, l, detail, hsub hmem, rfl⟩

namespace Decode

theorem mapError_rejected {α : Type} {x : Except Rejection α} {l : Literal} {field : String}
    {why : Fault} (h : x.mapError (rejected l field) = .error why) :
    why.IsOf [(field, some l)] := by
  cases x with
  | error rejection =>
    cases h
    exact ⟨field, l, _, List.mem_singleton.2 rfl, rfl⟩
  | ok a => cases h

theorem integer_error {l : Literal} {field : String} {why : Fault}
    (h : integer l field = .error why) : why.IsOf [(field, some l)] :=
  mapError_rejected h

theorem number_error {l : Literal} {field : String} {why : Fault}
    (h : number l field = .error why) : why.IsOf [(field, some l)] :=
  mapError_rejected h

theorem numberOr_error {l : Option Literal} {field : String} {default : Binary64} {why : Fault}
    (h : numberOr l field default = .error why) : why.IsOf [(field, l)] := by
  cases l with
  | none => cases h
  | some l => exact number_error h

theorem orientation_error {l : Option Literal} {why : Fault} (h : orientation l = .error why) :
    why.IsOf [("orientation", l)] := by
  cases l with
  | none => cases h
  | some l =>
    rcases bind_eq_error_iff.1 h with h | ⟨degrees, -, h⟩
    · exact integer_error h
    · split at h
      · cases h
      · cases h
        exact ⟨_, l, _, List.mem_singleton.2 rfl, rfl⟩

theorem dimension_error {l : Literal} {field : String} {why : Fault}
    (h : dimension l field = .error why) : why.IsOf [(field, some l)] := by
  rcases bind_eq_error_iff.1 h with h | ⟨size, -, h⟩
  · exact integer_error h
  · split at h
    · cases h
    · cases h
      exact ⟨field, l, _, List.mem_singleton.2 rfl, rfl⟩

end Decode

namespace Draft

theorem gadgetOf_error {form : Form} {name x y : Literal} {span : Span} {why : Fault}
    (h : gadgetOf form name x y span = .error why) :
    why.IsOf (Declaration.gadget form name x y span).fields := by
  rcases bind_eq_error_iff.1 h with h | ⟨kind, -, h⟩
  · cases form with
    | squareBumper => cases h
    | circleBumper => cases h
    | triangleBumper orientation =>
      rcases bind_eq_error_iff.1 h with h | ⟨_, -, h⟩
      · exact (Decode.orientation_error h).mono (by simp [Declaration.fields])
      · cases h
    | flipper side orientation =>
      rcases bind_eq_error_iff.1 h with h | ⟨_, -, h⟩
      · exact (Decode.orientation_error h).mono (by simp [Declaration.fields])
      · cases h
    | absorber width height =>
      rcases bind_eq_error_iff.1 h with h | ⟨_, -, h⟩
      · exact (Decode.dimension_error h).mono (by simp [Declaration.fields])
      rcases bind_eq_error_iff.1 h with h | ⟨_, -, h⟩
      · exact (Decode.dimension_error h).mono (by simp [Declaration.fields])
      · cases h
  rcases bind_eq_error_iff.1 h with h | ⟨_, -, h⟩
  · exact (Decode.integer_error h).mono (by simp [Declaration.fields])
  rcases bind_eq_error_iff.1 h with h | ⟨_, -, h⟩
  · exact (Decode.integer_error h).mono (by simp [Declaration.fields])
  · cases h

theorem ballOf_error {name x y u v : Literal} {span : Span} {why : Fault}
    (h : ballOf name x y u v span = .error why) :
    why.IsOf (Declaration.ball name x y u v span).fields := by
  rcases bind_eq_error_iff.1 h with h | ⟨_, -, h⟩
  · exact (Decode.number_error h).mono (by simp [Declaration.fields])
  rcases bind_eq_error_iff.1 h with h | ⟨_, -, h⟩
  · exact (Decode.number_error h).mono (by simp [Declaration.fields])
  rcases bind_eq_error_iff.1 h with h | ⟨_, -, h⟩
  · exact (Decode.number_error h).mono (by simp [Declaration.fields])
  rcases bind_eq_error_iff.1 h with h | ⟨_, -, h⟩
  · exact (Decode.number_error h).mono (by simp [Declaration.fields])
  · cases h

end Draft

/-! ## Blame -/

/-- A gadget of the name is declared on an earlier line than `x`. -/
def DeclaredAbove (declarations : List Declaration) (x : Declaration) (name : String) : Prop :=
  ∃ y ∈ declarations, y.gadgetName? = some name ∧ y.span.line < x.span.line

/-- What the fault of a declaration says of it and of the others. -/
inductive Blames (declarations : List Declaration) (x : Declaration) : Fault → Prop where
  | badField {key detail : String} {l : Literal} : (key, some l) ∈ x.fields →
      l.line = x.span.line → Blames declarations x (.badField key detail x.span.line)
  | duplicate {y : Declaration} {name : String} {line firstLine : Nat} :
      x.gadgetName? = some name → y ∈ declarations → y.gadgetName? = some name →
      y.span.line < x.span.line →
      (∀ z ∈ declarations, z.gadgetName? = some name → z.span.line < x.span.line → z = y) →
      (x.span.line < 2 ^ 32 →
        line = x.span.line ∧ firstLine = y.span.line ∧ firstLine < line) →
      Blames declarations x (.duplicate name line firstLine)
  | trigger {trigger action : String} : x.Fires trigger action →
      ¬DeclaredAbove declarations x trigger →
      Blames declarations x (.unresolved trigger x.span.line)
  | action {trigger action : String} : x.Fires trigger action →
      DeclaredAbove declarations x trigger → ¬DeclaredAbove declarations x action →
      Blames declarations x (.unresolved action x.span.line)

theorem mem_gadgetNames {declarations : List Declaration} {name : String} :
    name ∈ gadgetNames declarations ↔ ∃ y ∈ declarations, y.gadgetName? = some name :=
  List.mem_filterMap

/-- Where gadgets have different names, a name has one declaration. -/
theorem eq_of_gadgetName? {declarations : List Declaration}
    (h : (gadgetNames declarations).Nodup) {y z : Declaration} {name : String}
    (hy : y ∈ declarations) (hz : z ∈ declarations) (hyname : y.gadgetName? = some name)
    (hzname : z.gadgetName? = some name) : z = y := by
  by_contra hne
  have hpairwise := List.pairwise_filterMap.1 h
  have hsymm : Std.Symm fun a b : Declaration =>
      ∀ n, a.gadgetName? = some n → ∀ n', b.gadgetName? = some n' → n ≠ n' := by
    constructor
    intro a b hab n hn n' hn' e
    exact hab n' hn' n hn e.symm
  exact hpairwise.forall hz hy hne name hzname name hyname rfl

theorem Worth.Gadget.name_line {x : Declaration} {g : Playfield.Gadget} (h : Worth.Gadget x g) :
    x.gadgetName? = some g.name ∧ g.line = Draft.lineOf x.span := by
  cases h
  exact ⟨rfl, rfl⟩

theorem toNat_lineOf {span : Span} (h : span.line < 2 ^ 32) :
    (Draft.lineOf span).toNat = span.line :=
  UInt32.toNat_ofNat_of_lt' h

namespace Draft

/-- Declarations with lines of their own, in order. -/
def Lined (declarations : List Declaration) : Prop :=
  declarations.Pairwise fun x y => x.span.line < y.span.line

section

variable {earlier later : List Declaration} {x : Declaration}

/-- What is declared on earlier lines is what is declared in front. -/
theorem mem_earlier_iff (h : Lined (earlier ++ x :: later)) {y : Declaration} :
    y ∈ earlier ↔ y ∈ earlier ++ x :: later ∧ y.span.line < x.span.line := by
  obtain ⟨-, hlater, hearlier⟩ := List.pairwise_append.1 h
  have hbehind := (List.pairwise_cons.1 hlater).1
  constructor
  · intro hy
    exact ⟨List.mem_append_left _ hy, hearlier y hy x List.mem_cons_self⟩
  · rintro ⟨hy, hlt⟩
    rcases List.mem_append.1 hy with hy | hy
    · exact hy
    rcases List.mem_cons.1 hy with rfl | hy
    · omega
    · have := hbehind y hy
      omega

theorem declaredAbove_iff (h : Lined (earlier ++ x :: later)) {name : String} :
    DeclaredAbove (earlier ++ x :: later) x name ↔ name ∈ gadgetNames earlier := by
  rw [mem_gadgetNames]
  constructor
  · rintro ⟨y, hy, hname, hlt⟩
    exact ⟨y, (mem_earlier_iff h).2 ⟨hy, hlt⟩, hname⟩
  · rintro ⟨y, hy, hname⟩
    obtain ⟨hmem, hlt⟩ := (mem_earlier_iff h).1 hy
    exact ⟨y, hmem, hname, hlt⟩

theorem connect_error {w : Wiring} {r : Registry} {trigger action : String} {line : Nat}
    {why : Fault} (h : w.connect r trigger action line = .error why) :
    (r.get? trigger = none ∧ why = .unresolved trigger line) ∨
      (∃ t, r.get? trigger = some t) ∧ r.get? action = none ∧ why = .unresolved action line := by
  have hresolve {name : String} (h : r.resolve name line = .error why) :
      r.get? name = none ∧ why = .unresolved name line := by
    unfold Registry.resolve at h
    split at h
    · cases h
    · rename_i hnone
      cases h
      exact ⟨hnone, rfl⟩
  rcases bind_eq_error_iff.1 h with h | ⟨t, ht, h⟩
  · exact .inl (hresolve h)
  rcases bind_eq_error_iff.1 h with h | ⟨_, -, h⟩
  · exact .inr ⟨⟨t, Registry.resolve_eq_ok_iff.1 ht⟩, hresolve h⟩
  · cases h

theorem blames_of_isOf {declarations : List Declaration} {why : Fault} (h : why.IsOf x.fields)
    (hfields : ∀ key l, (key, some l) ∈ x.fields → l.line = x.span.line) :
    Blames declarations x why := by
  obtain ⟨key, l, detail, hmem, rfl⟩ := h
  have hline := hfields key l hmem
  rw [hline]
  exact .badField hmem hline

/-- A declaration that cannot be worked in after the ones in front of it is blamed. -/
theorem blames_of_apply {d : Draft} {why : Fault} (hlined : Lined (earlier ++ x :: later))
    (hfields : ∀ key l, (key, some l) ∈ x.fields → l.line = x.span.line)
    (hwalk : ({} : Draft).applyAll earlier = .ok d) (h : d.apply x = .error why) :
    Blames (earlier ++ x :: later) x why := by
  obtain ⟨-, hrecords⟩ := applyAll_records hwalk
  cases x with
  | gadget form name px py span =>
    rw [apply_gadget] at h
    rcases bind_eq_error_iff.1 h with h | ⟨g, hg, h⟩
    · exact blames_of_isOf (gadgetOf_error h) hfields
    rcases bind_eq_error_iff.1 h with h | ⟨_, -, h⟩
    · unfold Registry.register at h
      split at h
      · rename_i first hfirst
        cases h
        obtain ⟨hxname, hxline⟩ := (gadgetOf_eq_ok_iff.1 hg).name_line
        obtain ⟨y, hy, hworth, hsame⟩ := (hrecords.gadgets _ _).1 hfirst
        obtain ⟨hyname, hyline⟩ := hworth.name_line
        rw [hsame] at hyname
        obtain ⟨hmem, hlt⟩ := (mem_earlier_iff hlined).1 hy
        have hdistinct := (applyAll_iff_walkable.1 ⟨d, hwalk⟩).distinct
        refine .duplicate hxname hmem hyname hlt ?_ ?_
        · intro z hz hzname hzlt
          exact eq_of_gadgetName? hdistinct hy ((mem_earlier_iff hlined).2 ⟨hz, hzlt⟩) hyname hzname
        · intro hbound
          rw [hxline, hyline, toNat_lineOf hbound, toNat_lineOf (by omega)]
          exact ⟨rfl, rfl, hlt⟩
      · cases h
    · cases h
  | ball name px py u v span =>
    rw [apply_ball] at h
    rcases bind_eq_error_iff.1 h with h | ⟨_, -, h⟩
    · exact blames_of_isOf (ballOf_error h) hfields
    · cases h
  | fire trigger action span =>
    rw [apply_fire] at h
    have hnone {name : String} (hget : d.registry.get? name = none) :
        ¬DeclaredAbove (earlier ++ .fire trigger action span :: later)
          (.fire trigger action span) name := by
      rw [declaredAbove_iff hlined, ← hrecords.exists_get?, hget]
      simp
    rcases bind_eq_error_iff.1 h with h | ⟨_, -, h⟩
    · rcases connect_error h with ⟨ht, rfl⟩ | ⟨ht, ha, rfl⟩
      · exact .trigger (.mk trigger action span) (hnone ht)
      · refine .action (.mk trigger action span) ?_ (hnone ha)
        rw [declaredAbove_iff hlined, ← hrecords.exists_get?]
        exact ht
    · cases h

end

/-! ## The first declaration that fails -/

theorem exists_first_failing {declarations : List Declaration} {why : Fault}
    (h : ({} : Draft).applyAll declarations = .error why) :
    ∃ earlier x later d, declarations = earlier ++ x :: later ∧
      ({} : Draft).applyAll earlier = .ok d ∧ d.apply x = .error why := by
  induction declarations using List.reverseRecOn with
  | nil => cases h
  | append_singleton declarations x ih =>
    rw [applyAll_concat] at h
    rcases bind_eq_error_iff.1 h with h | ⟨d, hd, h⟩
    · obtain ⟨earlier, y, later, d, rfl, hd, hy⟩ := ih h
      exact ⟨earlier, y, later ++ [x], d, by simp, hd, hy⟩
    · exact ⟨declarations, x, [], d, rfl, hd, h⟩

/-- A header is at fault for one of its values, or for having no name. -/
theorem finish_error {d : Draft} {settings : Settings} {header : Header} {why : Fault}
    (h : d.finish settings header = .error why) :
    why.IsOf header.fields ∨
      header.name = none ∧ ∃ detail, why = .badField "name" detail header.span.line := by
  unfold finish at h
  cases hname : header.name with
  | none =>
    rw [hname] at h
    cases h
    exact .inr ⟨rfl, _, rfl⟩
  | some name =>
    rw [hname] at h
    rcases bind_eq_error_iff.1 h with h | ⟨_, -, h⟩
    · exact .inl ((Decode.numberOr_error h).mono (by simp [Board.Header.fields]))
    rcases bind_eq_error_iff.1 h with h | ⟨_, -, h⟩
    · exact .inl ((Decode.numberOr_error h).mono (by simp [Board.Header.fields]))
    rcases bind_eq_error_iff.1 h with h | ⟨_, -, h⟩
    · exact .inl ((Decode.numberOr_error h).mono (by simp [Board.Header.fields]))
    · cases h

end Draft

/-! ## Texts -/

theorem Board.Located.lined {source : String} {board : Board} (h : Located source board) :
    Draft.Lined board.declarations := by
  have hdeclarations := (List.pairwise_cons.1 h.ordered).2
  rw [List.pairwise_map] at hdeclarations
  exact hdeclarations

/-- When a text is no scene, it is no board, or its fault points at the first declaration that
cannot be worked in after the ones in front of it, or all can and it points at the header. All
these lines fit in 32 bits if the text has fewer than 2^32 - 1 characters. -/
theorem Scene.fault_points_at_line {settings : Settings} {source : String} {why : Fault}
    (h : Scene.ofText settings source = .error why) :
    (∃ detail line column context, why = .malformed detail line column context ∧
      Board.parse source = .error why) ∨
    ∃ board, Board.parse source = .ok board ∧ Located source board ∧
      ((∃ earlier x later d, board.declarations = earlier ++ x :: later ∧
          ({} : Draft).applyAll earlier = .ok d ∧ d.apply x = .error why ∧
            Blames board.declarations x why) ∨
        ∃ d key detail, ({} : Draft).applyAll board.declarations = .ok d ∧
          d.finish settings board.header = .error why ∧
            why = .badField key detail board.header.span.line) := by
  rcases bind_eq_error_iff.1 h with hparse | ⟨board, hparse, h⟩
  · obtain ⟨detail, line, column, context, hwhy⟩ := Board.parse_error hparse
    exact .inl ⟨detail, line, column, context, hwhy, hparse⟩
  have hlocated := Board.located_of_parse hparse
  refine .inr ⟨board, hparse, hlocated, ?_⟩
  rcases bind_eq_error_iff.1 h with hwalk | ⟨d, hwalk, hfinish⟩
  · obtain ⟨earlier, x, later, d, hsplit, hearlier, hx⟩ := Draft.exists_first_failing hwalk
    have hmem : x ∈ board.declarations := by rw [hsplit]; simp
    have hlined := hlocated.lined
    have hfields := hlocated.fields x hmem
    rw [hsplit] at hlined ⊢
    exact .inl ⟨earlier, x, later, d, rfl, hearlier, hx,
      Draft.blames_of_apply hlined hfields hearlier hx⟩
  · refine .inr ⟨d, ?_⟩
    rcases Draft.finish_error hfinish with ⟨key, l, detail, hl, rfl⟩ | ⟨-, detail, rfl⟩
    · rw [hlocated.headerFields key l hl] at hfinish ⊢
      exact ⟨key, detail, hwalk, hfinish, rfl⟩
    · exact ⟨"name", detail, hwalk, hfinish, rfl⟩

/-- The second of two bumpers has the name of the first. The fault is on line 5, and it names the
bumper of line 3. -/
theorem Scene.taken_name_points_at_bumpers :
    let source := "board name=n\n\nsquareBumper name=a x=0 y=0\n# again\ncircleBumper name=a x=1 y=1"
    ofText {} source = .error (.duplicate "a" 5 3) ∧
      ∃ board x y, Board.parse source = .ok board ∧ x ∈ board.declarations ∧
        y ∈ board.declarations ∧ x.gadgetName? = some "a" ∧ y.gadgetName? = some "a" ∧
          x.span.line = 5 ∧ y.span.line = 3 := by
  intro source
  have hfault : ofText {} source = .error (.duplicate "a" 5 3) := by decide +kernel
  have hlines : (Board.parse source).toOption.map (fun board =>
      board.declarations.map (·.span.line)) = some [3, 5] := by decide +kernel
  refine ⟨hfault, ?_⟩
  rcases fault_points_at_line hfault with ⟨_, _, _, _, ⟨⟩, -⟩ | ⟨board, hparse, -, hblame⟩
  rw [hparse] at hlines
  rcases hblame with ⟨earlier, x, later, d, hsplit, -, -, hblames⟩ | ⟨_, _, _, -, -, ⟨⟩⟩
  have hx : x ∈ board.declarations := by rw [hsplit]; simp
  cases hblames with
  | @duplicate y _ _ _ hxname hy hyname _ _ hsaid =>
    have hmem : x.span.line ∈ [3, 5] := by
      rw [← Option.some.inj hlines]
      exact List.mem_map_of_mem hx
    have hbound : x.span.line < 2 ^ 32 := by
      simp only [List.mem_cons, List.not_mem_nil, or_false] at hmem
      omega
    obtain ⟨hline, hfirst, -⟩ := hsaid hbound
    exact ⟨board, x, y, hparse, hx, hy, hxname, hyname, hline.symm, hfirst.symm⟩

end Playfield
