/-
  Playfield.Proofs.Scene.Order — which declarations of a list count, and in which order.

  A declaration that cannot be worked in leaves the draft as it was. So a walk that passes over
  such declarations comes to where a walk without them comes, and the second one meets no
  failure (`failure_leaves_no_trace`).

  Of declarations that can all be worked in, the order counts in two places only: the balls of a
  scene stand in the order of their declarations, and a wiring looks back at the gadgets that it
  names. Any other order of the same declarations gives the same scene, and so the same bytes
  (`reordered_board_has_same_scene`).
-/

import Playfield.Packed.Envelope
import Playfield.Proofs.Scene.Depiction

namespace Playfield

open Board (Declaration Header)
open Board.Declaration (gadgetNames)
open Source (Literal)

/-! ## Declarations that fail -/

namespace Draft

/-- Of some declarations, those that are worked in when the others are passed over. -/
def workedIn (d : Draft) : List Declaration → List Declaration
  | [] => []
  | x :: declarations =>
    match perform x d with
    | .ok _ d' => x :: workedIn d' declarations
    | .error _ d' => workedIn d' declarations

theorem applyAll_cons (d : Draft) (x : Declaration) (declarations : List Declaration) :
    d.applyAll (x :: declarations) = d.apply x >>= (·.applyAll declarations) := by
  rw [applyAll, List.foldlM_cons]
  rfl

theorem performEach_cons (d : Draft) (x : Declaration) (declarations : List Declaration) :
    d.performEach (x :: declarations) = (d.after (perform x)).performEach declarations :=
  rfl

theorem apply_eq_error_iff {d : Draft} {x : Declaration} {why : Fault} :
    d.apply x = .error why ↔ ∃ d', perform x d = .error why d' := by
  rw [apply]
  cases perform x d <;> simp

/-- The declarations that are worked in meet no failure, and they lead where all of them lead. -/
theorem applyAll_workedIn (d : Draft) (declarations : List Declaration) :
    d.applyAll (d.workedIn declarations) = .ok (d.performEach declarations) := by
  induction declarations generalizing d with
  | nil => rfl
  | cons x declarations ih =>
    rw [performEach_cons, after, workedIn]
    cases h : perform x d with
    | ok _ d' =>
      rw [applyAll_cons, bind_eq_ok_iff]
      exact ⟨d', apply_eq_ok_iff.2 (perform_eq_ok_iff.1 h), ih d'⟩
    | error why d' =>
      cases perform_error h
      exact ih d

/-- Work that fails changes nothing. So passing over the declarations that fail comes to the same
as leaving them out, and without them nothing fails. -/
theorem failure_leaves_no_trace (d : Draft) :
    (∀ x why d', perform x d = .error why d' →
      d'.registry = d.registry ∧ d'.wiring = d.wiring ∧ d'.balls = d.balls) ∧
      ∀ declarations,
        d.performEach (d.workedIn declarations) = d.performEach declarations ∧
          d.applyAll (d.workedIn declarations) = .ok (d.performEach declarations) := by
  refine ⟨fun x why d' h => ?_, fun declarations => ?_⟩
  · cases perform_error h
    exact ⟨rfl, rfl, rfl⟩
  · have hall := d.applyAll_workedIn declarations
    exact ⟨performEach_of_applyAll hall, hall⟩

/-- A second gadget of the same name fails, and so does a wiring to a name that is not there. -/
theorem no_trace_of_duplicate :
    let zero : Literal := { kind := .integer, text := "0", span := default }
    let name : Literal := { kind := .name, text := "a", span := default }
    let other : Literal := { kind := .name, text := "b", span := default }
    let gadget : Declaration := .gadget .squareBumper name zero zero default
    let fire : Declaration := .fire name other default
    let d := ({} : Draft).performEach [gadget]
    (∃ d', perform gadget d = .error (.duplicate "a" 1 1) d' ∧ d'.registry = d.registry) ∧
      (∃ d', perform fire d = .error (.unresolved "b" 1) d' ∧ d'.wiring = d.wiring) ∧
        ({} : Draft).workedIn [gadget, gadget, fire] = [gadget] ∧
          ({} : Draft).performEach [gadget] = ({} : Draft).performEach [gadget, gadget, fire] := by
  intro zero name other gadget fire d
  have hgadget : d.apply gadget = .error (.duplicate "a" 1 1) := by decide +kernel
  have hfire : d.apply fire = .error (.unresolved "b" 1) := by decide +kernel
  have hworked : ({} : Draft).workedIn [gadget, gadget, fire] = [gadget] := by decide +kernel
  obtain ⟨d₁, h₁⟩ := apply_eq_error_iff.1 hgadget
  obtain ⟨d₂, h₂⟩ := apply_eq_error_iff.1 hfire
  obtain ⟨hkept, -⟩ := failure_leaves_no_trace d
  obtain ⟨-, hpassed⟩ := failure_leaves_no_trace {}
  refine ⟨⟨d₁, h₁, (hkept _ _ _ h₁).1⟩, ⟨d₂, h₂, (hkept _ _ _ h₂).2.1⟩, hworked, ?_⟩
  rw [← (hpassed [gadget, gadget, fire]).1, hworked]

end Draft

/-! ## Other orders -/

/-- The same declarations in another order: balls keep theirs, and a wiring still stands behind
the gadgets that it names. -/
structure Reorders (reordered declarations : List Declaration) : Prop where
  perm : reordered.Perm declarations
  balls : reordered.filter (·.isBall) = declarations.filter (·.isBall)
  wired : ∀ earlier x later, reordered = earlier ++ x :: later →
    ∀ trigger action, x.Fires trigger action →
      trigger ∈ gadgetNames earlier ∧ action ∈ gadgetNames earlier

section

variable {reordered declarations : List Declaration}

theorem Reorders.gadgetNames_perm (h : Reorders reordered declarations) :
    (gadgetNames reordered).Perm (gadgetNames declarations) :=
  h.perm.filterMap _

theorem Reorders.exists_mem_iff (h : Reorders reordered declarations) {p : Declaration → Prop} :
    (∃ x ∈ reordered, p x) ↔ ∃ x ∈ declarations, p x :=
  exists_congr fun _ => and_congr_left fun _ => h.perm.mem_iff

theorem Reorders.walkable (h : Reorders reordered declarations) (hw : Walkable declarations) :
    Walkable reordered where
  decodes x hx := hw.decodes x (h.perm.mem_iff.1 hx)
  distinct := h.gadgetNames_perm.nodup_iff.2 hw.distinct
  wired := h.wired

theorem Reorders.buildable (h : Reorders reordered declarations) {header : Header}
    (hb : Board.Buildable ⟨header, declarations⟩) : Board.Buildable ⟨header, reordered⟩ where
  toWalkable := h.walkable hb.toWalkable
  named := hb.named
  gravity := hb.gravity
  friction1 := hb.friction1
  friction2 := hb.friction2

/-- What a board says of its scene it says in any order, but for the balls. -/
theorem Reorders.depicts (h : Reorders reordered declarations) {header : Header}
    {settings : Settings} {s : Scene} (hs : s.Depicts settings ⟨header, declarations⟩) :
    s.Depicts settings ⟨header, reordered⟩ where
  toHeads := hs.toHeads
  gadgets name g := (hs.gadgets name g).trans h.exists_mem_iff.symm
  names name := (hs.names name).trans h.gadgetNames_perm.mem_iff.symm
  entries name := (hs.entries name).trans h.gadgetNames_perm.mem_iff.symm
  edges trigger action := (hs.edges trigger action).trans h.exists_mem_iff.symm
  balls := by
    show List.Forall₂ Worth.Ball (reordered.filter (·.isBall)) s.balls
    rw [h.balls]
    exact hs.balls

end

/-- A board that has a scene still has it after its declarations are put in another order, as
long as the balls keep their order and wirings stand behind the gadgets that they name. -/
theorem Scene.reordered_board_has_same_scene {settings : Settings} {header : Header}
    {declarations reordered : List Declaration} {s : Scene}
    (hs : ofBoard settings ⟨header, declarations⟩ = .ok s)
    (h : Reorders reordered declarations) :
    ∃ t, ofBoard settings ⟨header, reordered⟩ = .ok t ∧ t = s ∧ t.pack = s.pack := by
  obtain ⟨hbuildable, hdepicts⟩ := ofBoard_eq_ok_iff.1 hs
  exact ⟨s, ofBoard_eq_ok_iff.2 ⟨h.buildable hbuildable, h.depicts hdepicts⟩, rfl, rfl⟩

/-- Two bumpers in the other order, with a ball between them and the wiring at the end. -/
theorem Scene.reordered_bumpers_have_same_scene :
    let zero : Literal := { kind := .integer, text := "0", span := default }
    let named (text : String) : Literal := { kind := .name, text, span := default }
    let bumper (text : String) : Declaration :=
      .gadget .squareBumper (named text) zero zero default
    let ball (text : String) : Declaration := .ball (named text) zero zero zero zero default
    let fire : Declaration := .fire (named "a") (named "b") default
    let header : Header := ⟨some (named "n"), none, none, none, default⟩
    let declarations := [bumper "a", bumper "b", ball "p", fire, ball "q"]
    let reordered := [bumper "b", ball "p", bumper "a", ball "q", fire]
    let gadget (name : String) : Gadget := { name, origin := ⟨0, 0⟩, kind := .squareBumper, line := 1 }
    let s : Scene :=
      { name := "n", gravity := ⟨0x4039000000000000⟩, friction1 := ⟨0x3f9999999999999a⟩
        friction2 := ⟨0x3f9999999999999a⟩, timeStep := ⟨0x3fa999999999999a⟩
        registry := ⟨(NameMap.empty.insert "a" (gadget "a")).insert "b" (gadget "b")⟩
        wiring := ⟨(NameMap.empty.insert "a" (NameSet.add .empty "b")).insert "b" .empty⟩
        balls := [⟨"p", ⟨⟨0⟩, ⟨0⟩⟩, ⟨⟨0⟩, ⟨0⟩⟩, 1⟩, ⟨"q", ⟨⟨0⟩, ⟨0⟩⟩, ⟨⟨0⟩, ⟨0⟩⟩, 1⟩] }
    Reorders reordered declarations ∧ ofBoard {} ⟨header, declarations⟩ = .ok s ∧
      ofBoard {} ⟨header, reordered⟩ = .ok s := by
  intro zero named bumper ball fire header declarations reordered gadget s
  have h : Reorders reordered declarations := by
    refine ⟨by decide +kernel, by decide +kernel, fun earlier x later e trigger action hf => ?_⟩
    -- The only wiring is the last declaration.
    cases hf
    dsimp only [reordered, bumper, ball, fire] at e
    rcases earlier with _ | ⟨_, _ | ⟨_, _ | ⟨_, _ | ⟨_, _ | ⟨_, earlier⟩⟩⟩⟩⟩ <;> simp at e
    obtain ⟨rfl, rfl, rfl, rfl, ⟨rfl, rfl, -⟩, -⟩ := e
    decide +kernel
  have hs : ofBoard {} ⟨header, declarations⟩ = .ok s := by decide +kernel
  obtain ⟨t, ht, rfl, -⟩ := reordered_board_has_same_scene hs h
  exact ⟨h, hs, ht⟩

end Playfield
