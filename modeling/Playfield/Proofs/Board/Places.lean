/-
  Playfield.Proofs.Board.Places — productions do not look at where the parts of a line stand.

  They look at keywords, keys and values, and hand places on: to what a line declares, or to the
  misfit that they find. So when the lines of a text are put in other places, they are the same
  board in those places, or the same misfit is found in its place (`relocated_ofLines`). As with
  the reader, each function hands on what the functions it is made of do (`Relocated.bind`).

  One misfit has no part of a line to point at: that a text has no lines. It points at the end of
  the text, which is why two texts stand in that statement.
-/

import Playfield.Board.Basic
import Playfield.Proofs.Source.Places

namespace Playfield.Board

open Source

/-! ## Other places -/

section

variable (g : Span → Span)

def Misplaced.mapSpan (m : Misplaced) : Misplaced :=
  { m with span := g m.span }

def Header.mapSpan (header : Header) : Header where
  name := header.name.map (·.mapSpan g)
  gravity := header.gravity.map (·.mapSpan g)
  friction1 := header.friction1.map (·.mapSpan g)
  friction2 := header.friction2.map (·.mapSpan g)
  span := g header.span

def Form.mapSpan : Form → Form
  | .squareBumper => .squareBumper
  | .circleBumper => .circleBumper
  | .triangleBumper orientation => .triangleBumper (orientation.map (·.mapSpan g))
  | .absorber width height => .absorber (width.mapSpan g) (height.mapSpan g)
  | .flipper side orientation => .flipper side (orientation.map (·.mapSpan g))

def Declaration.mapSpan : Declaration → Declaration
  | .gadget form name x y span =>
    .gadget (form.mapSpan g) (name.mapSpan g) (x.mapSpan g) (y.mapSpan g) (g span)
  | .ball name x y xVelocity yVelocity span =>
    .ball (name.mapSpan g) (x.mapSpan g) (y.mapSpan g) (xVelocity.mapSpan g)
      (yVelocity.mapSpan g) (g span)
  | .fire trigger action span => .fire (trigger.mapSpan g) (action.mapSpan g) (g span)

def mapSpan (b : Board) : Board where
  header := b.header.mapSpan g
  declarations := b.declarations.map (·.mapSpan g)

/-- The second computation gives what the first one does in other places, or finds the same
misfit in its place. -/
inductive Relocated {α β : Type} (F : α → β) : Except Misplaced α → Except Misplaced β → Prop where
  | ok (a : α) : Relocated F (.ok a) (.ok (F a))
  | error (m : Misplaced) : Relocated F (.error m) (.error (m.mapSpan g))

end

variable {g : Span → Span}

theorem Relocated.bind {α β γ δ : Type} {F : α → β} {G : γ → δ} {x : Except Misplaced α}
    {y : Except Misplaced β} {f : α → Except Misplaced γ} {f' : β → Except Misplaced δ}
    (h : Relocated g F x y) (hf : ∀ a, Relocated g G (f a) (f' (F a))) :
    Relocated g G (x >>= f) (y >>= f') := by
  cases h with
  | ok a => exact hf a
  | error m => exact .error m

theorem Relocated.cases {α β : Type} {F : α → β} {x : Except Misplaced α} {y : Except Misplaced β}
    (h : Relocated g F x y) :
    (∃ a, x = .ok a ∧ y = .ok (F a)) ∨ ∃ m, x = .error m ∧ y = .error (m.mapSpan g) := by
  cases h with
  | ok a => exact .inl ⟨a, rfl, rfl⟩
  | error m => exact .inr ⟨m, rfl, rfl⟩

/-! ## Checks -/

theorem value?_mapSpan (line : Line) (key : String) :
    (line.mapSpan g).value? key = (line.value? key).map (·.mapSpan g) := by
  rw [Line.value?, Line.value?, Line.field?, Line.field?, Line.mapSpan, List.find?_map,
    Option.map_map, Option.map_map]
  rfl

theorem relocated_checkField (slots : List Slot) (keyword : String) (earlier : List String)
    (f : Field) :
    Relocated g id (checkField slots keyword earlier f)
      (checkField slots keyword earlier (f.mapSpan g)) := by
  have hkey : (f.mapSpan g).key = f.key := rfl
  have hkind : (f.mapSpan g).value.kind = f.value.kind := rfl
  unfold checkField
  rw [hkey, hkind]
  cases slots.find? (·.key == f.key) with
  | none => exact .error _
  | some slot =>
    by_cases hearlier : earlier.contains f.key
    · simp only [hearlier, if_true]
      exact .error _
    · by_cases haccepts : slot.takes.accepts f.value.kind
      · simp only [hearlier, haccepts, if_true]
        exact .ok ()
      · simp only [hearlier, haccepts]
        exact .error _

theorem checkFields_cons (slots : List Slot) (keyword : String) (earlier : List String) (f : Field)
    (fields : List Field) :
    checkFields slots keyword earlier (f :: fields) =
      checkField slots keyword earlier f >>= fun _ =>
        checkFields slots keyword (f.key :: earlier) fields := by
  rw [checkFields]
  cases checkField slots keyword earlier f <;> rfl

theorem relocated_checkFields (slots : List Slot) (keyword : String) (earlier : List String)
    (fields : List Field) :
    Relocated g id (checkFields slots keyword earlier fields)
      (checkFields slots keyword earlier (fields.map (·.mapSpan g))) := by
  induction fields generalizing earlier with
  | nil => exact .ok ()
  | cons f fields ih =>
    rw [List.map_cons, checkFields_cons, checkFields_cons]
    refine (relocated_checkField slots keyword earlier f).bind ?_
    intro _
    exact ih _

theorem relocated_require (line : Line) (key : String) :
    Relocated g (·.mapSpan g) (require line key) (require (line.mapSpan g) key) := by
  unfold require
  rw [value?_mapSpan]
  cases line.value? key with
  | none => exact .error _
  | some value => exact .ok value

theorem checkRequired_cons (line : Line) {slot : Slot} (h : slot.required = true)
    (slots : List Slot) :
    checkRequired line (slot :: slots) =
      require line slot.key >>= fun _ => checkRequired line slots := by
  rw [checkRequired, if_pos h]
  cases require line slot.key <;> rfl

theorem relocated_checkRequired (line : Line) (slots : List Slot) :
    Relocated g id (checkRequired line slots) (checkRequired (line.mapSpan g) slots) := by
  induction slots with
  | nil => exact .ok ()
  | cons slot slots ih =>
    by_cases h : slot.required = true
    · rw [checkRequired_cons line h, checkRequired_cons (line.mapSpan g) h]
      refine (relocated_require line slot.key).bind ?_
      intro _
      exact ih
    · rw [checkRequired, checkRequired, if_neg h, if_neg h]
      exact ih

theorem checkLine_eq_bind (slots : List Slot) (line : Line) :
    checkLine slots line =
      checkFields slots line.keyword [] line.fields >>= fun _ => checkRequired line slots := by
  rw [checkLine]
  cases checkFields slots line.keyword [] line.fields <;> rfl

theorem relocated_checkLine (slots : List Slot) (line : Line) :
    Relocated g id (checkLine slots line) (checkLine slots (line.mapSpan g)) := by
  rw [checkLine_eq_bind, checkLine_eq_bind]
  refine (relocated_checkFields slots line.keyword [] line.fields).bind ?_
  intro _
  exact relocated_checkRequired line slots

/-! ## Productions -/

theorem relocated_header (line : Line) :
    Relocated g (·.mapSpan g) (Header.ofLine line) (Header.ofLine (line.mapSpan g)) := by
  unfold Header.ofLine
  by_cases hkeyword : line.keyword = boardKeyword
  · have hkeyword' : (line.mapSpan g).keyword = boardKeyword := hkeyword
    rw [if_neg (not_not_intro hkeyword), if_neg (not_not_intro hkeyword')]
    refine (relocated_checkLine boardSlots line).bind ?_
    intro _
    simp only [value?_mapSpan]
    exact .ok _
  · have hkeyword' : (line.mapSpan g).keyword ≠ boardKeyword := hkeyword
    rw [if_pos hkeyword, if_pos hkeyword']
    exact .error _

theorem relocated_gadgetOfLine (line : Line) {form form' : Except Misplaced Form}
    (hform : Relocated g (·.mapSpan g) form form') :
    Relocated g (·.mapSpan g) (gadgetOfLine line form) (gadgetOfLine (line.mapSpan g) form') := by
  unfold gadgetOfLine
  refine (relocated_require line "name").bind ?_
  intro name
  refine (relocated_require line "x").bind ?_
  intro x
  refine (relocated_require line "y").bind ?_
  intro y
  refine hform.bind ?_
  intro form
  exact .ok _

theorem relocated_declaration (line : Line) :
    Relocated g (·.mapSpan g) (Declaration.ofLine line)
      (Declaration.ofLine (line.mapSpan g)) := by
  have hkeyword : (line.mapSpan g).keyword = line.keyword := rfl
  unfold Declaration.ofLine
  rw [hkeyword]
  cases Keyword.ofText? line.keyword with
  | none => exact .error _
  | some keyword =>
    refine (relocated_checkLine keyword.slots line).bind ?_
    intro _
    cases keyword with
    | squareBumper => exact relocated_gadgetOfLine line (.ok Form.squareBumper)
    | circleBumper => exact relocated_gadgetOfLine line (.ok Form.circleBumper)
    | triangleBumper =>
      simp only [value?_mapSpan]
      exact relocated_gadgetOfLine line (.ok (Form.triangleBumper _))
    | flipper side =>
      simp only [value?_mapSpan]
      exact relocated_gadgetOfLine line (.ok (Form.flipper side _))
    | absorber =>
      refine relocated_gadgetOfLine line ((relocated_require line "width").bind ?_)
      intro width
      refine (relocated_require line "height").bind ?_
      intro height
      exact .ok (Form.absorber width height)
    | ball =>
      refine (relocated_require line "name").bind ?_
      intro name
      refine (relocated_require line "x").bind ?_
      intro x
      refine (relocated_require line "y").bind ?_
      intro y
      refine (relocated_require line "xVelocity").bind ?_
      intro xVelocity
      refine (relocated_require line "yVelocity").bind ?_
      intro yVelocity
      exact .ok (Declaration.ball name x y xVelocity yVelocity line.span)
    | fire =>
      refine (relocated_require line "trigger").bind ?_
      intro trigger
      refine (relocated_require line "action").bind ?_
      intro action
      exact .ok (Declaration.fire trigger action line.span)

theorem relocated_mapM {α β γ : Type} {F : β → γ} {move : α → α} {f : α → Except Misplaced β}
    {f' : α → Except Misplaced γ} (h : ∀ a, Relocated g F (f a) (f' (move a))) (as : List α) :
    Relocated g (List.map F) (as.mapM f) ((as.map move).mapM f') := by
  induction as with
  | nil => exact .ok []
  | cons a as ih =>
    rw [List.map_cons, List.mapM_cons, List.mapM_cons]
    refine (h a).bind ?_
    intro b
    refine ih.bind ?_
    intro bs
    exact .ok (b :: bs)

/-- The board of lines in other places, or the misfit in its other place. -/
theorem relocated_ofLines {source source' : String} (hend : g (endOf source) = endOf source')
    (lines : List Line) :
    Relocated g (·.mapSpan g) (ofLines source lines)
      (ofLines source' (lines.map (·.mapSpan g))) := by
  cases lines with
  | nil =>
    rw [List.map_nil, ofLines, ofLines, ← hend]
    exact .error _
  | cons first rest =>
    rw [List.map_cons, ofLines, ofLines]
    by_cases hkeyword : first.keyword = boardKeyword
    · have hkeyword' : (first.mapSpan g).keyword = boardKeyword := hkeyword
      rw [if_neg (not_not_intro hkeyword), if_neg (not_not_intro hkeyword')]
      refine (relocated_header first).bind ?_
      intro header
      refine (relocated_mapM relocated_declaration rest).bind ?_
      intro declarations
      exact .ok _
    · have hkeyword' : (first.mapSpan g).keyword ≠ boardKeyword := hkeyword
      rw [if_pos hkeyword, if_pos hkeyword']
      exact .error _

end Playfield.Board
