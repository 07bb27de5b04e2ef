/-
  Playfield.Proofs.Scene.Worth — what the literals of a declaration are worth, as relations.

  A relation here says which value a literal, an orientation, a size, a form or a whole
  declaration is worth, without saying how it is found or what is said when there is none.
  The decoders are exactly these relations: each `…_eq_ok_iff` holds a decoder to its own.
-/

import Mathlib.Algebra.Ring.Nat
import Playfield.Proofs.Result
import Playfield.Proofs.Scene.Integer
import Playfield.Scene.Draft

namespace Playfield

open Board (Declaration Form)
open Source (Literal Span)

namespace Worth

/-- The literal spells an integer that 32 bits hold. -/
def Integer (l : Literal) (i : Int32) : Prop :=
  Text.readInteger? l.text.toList = some i.toInt

/-- The literal spells a number whose nearest double-precision one is `x`, and `x` is finite. -/
def Number (l : Literal) (x : Binary64) : Prop :=
  ∃ n, Text.readNumeral? l.text.toList = some n ∧
    x = .ofRatio n.negative n.digits (10 ^ n.places) ∧ x.isFinite = true

/-- A number that may be left out. -/
inductive NumberOr (fallback : Binary64) : Option Literal → Binary64 → Prop where
  | omitted : NumberOr fallback none fallback
  | given {l : Literal} {x : Binary64} : Number l x → NumberOr fallback (some l) x

/-- A right angle; left out, it is no rotation. -/
inductive Angle : Option Literal → Orientation → Prop where
  | omitted : Angle none .deg0
  | given {l : Literal} {i : Int32} {o : Orientation} :
      Integer l i → i.toInt = o.degrees → Angle (some l) o

/-- A width or height of at least one cell. -/
def Size (l : Literal) (n : UInt32) : Prop :=
  ∃ i, Integer l i ∧ 1 ≤ i.toInt ∧ i.toInt = n.toNat

/-- The kind of gadget that a form declares. -/
inductive Kind : Form → Gadget.Kind → Prop where
  | squareBumper : Kind .squareBumper .squareBumper
  | circleBumper : Kind .circleBumper .circularBumper
  | triangleBumper {l : Option Literal} {o : Orientation} :
      Angle l o → Kind (.triangleBumper l) (.triangularBumper o)
  | absorber {w h : Literal} {width height : UInt32} :
      Size w width → Size h height → Kind (.absorber w h) (.absorber width height)
  | flipper {side : Board.Side} {l : Option Literal} {o : Orientation} :
      Angle l o → Kind (.flipper side l) (.flipper side o)

/-- The gadget that a declaration describes. -/
inductive Gadget : Declaration → Playfield.Gadget → Prop where
  | mk {form : Form} {kind : Gadget.Kind} {name x y : Literal} {i j : Int32} (span : Span) :
      Kind form kind → Integer x i → Integer y j →
      Gadget (.gadget form name x y span) ⟨name.text, ⟨i, j⟩, kind, Draft.lineOf span⟩

/-- The ball that a declaration describes. -/
inductive Ball : Declaration → Playfield.Ball → Prop where
  | mk {name x y u v : Literal} {px py vx vy : Binary64} (span : Span) :
      Number x px → Number y py → Number u vx → Number v vy →
      Ball (.ball name x y u v span) ⟨name.text, ⟨px, py⟩, ⟨vx, vy⟩, Draft.lineOf span⟩

theorem Kind.sized {form : Form} {kind : Gadget.Kind} (h : Kind form kind) :
    1 ≤ kind.size.1 ∧ 1 ≤ kind.size.2 := by
  cases h with
  | squareBumper => decide
  | circleBumper => decide
  | triangleBumper _ => simp [Gadget.Kind.size]
  | absorber hw hh =>
    obtain ⟨i, -, hi, hw⟩ := hw
    obtain ⟨j, -, hj, hh⟩ := hh
    simp only [Gadget.Kind.size, UInt32.le_iff_toNat_le, UInt32.toNat_one]
    omega
  | flipper _ => simp [Gadget.Kind.size]

theorem Gadget.sized {x : Declaration} {g : Playfield.Gadget} (h : Gadget x g) :
    1 ≤ g.kind.size.1 ∧ 1 ≤ g.kind.size.2 := by
  cases h with
  | mk _ hk _ _ => exact hk.sized

theorem Ball.isFinite {x : Declaration} {b : Playfield.Ball} (h : Ball x b) :
    b.isFinite = true := by
  obtain ⟨_, ⟨_, _, _, hx⟩, ⟨_, _, _, hy⟩, ⟨_, _, _, hu⟩, ⟨_, _, _, hv⟩⟩ := h
  simp [Playfield.Ball.isFinite, Vec.isFinite, hx, hy, hu, hv]

end Worth

/-! ## The decoders are the relations -/

namespace Decode

theorem integer_eq_ok_iff {l : Literal} {field : String} {i : Int32} :
    integer l field = .ok i ↔ Worth.Integer l i := by
  rw [integer, mapError_eq_ok_iff, integer?_eq_ok_iff, Worth.Integer]

theorem number_eq_ok_iff {l : Literal} {field : String} {x : Binary64} :
    number l field = .ok x ↔ Worth.Number l x := by
  rw [number, mapError_eq_ok_iff, number?, Worth.Number]
  cases h : Text.readNumeral? l.text.toList with
  | none => simp
  | some n =>
    simp only [Option.some.injEq]
    refine ⟨fun hx => ?_, fun h' => ?_⟩
    · split at hx
      · cases hx; exact ⟨n, rfl, rfl, ‹_›⟩
      · cases hx
    · obtain ⟨_, rfl, rfl, hx⟩ := h'
      exact if_pos hx

theorem numberOr_eq_ok_iff {l : Option Literal} {field : String} {fallback x : Binary64} :
    numberOr l field fallback = .ok x ↔ Worth.NumberOr fallback l x := by
  cases l with
  | none =>
    simp only [numberOr, Except.ok.injEq]
    exact ⟨fun h => h ▸ .omitted, fun h => by cases h; rfl⟩
  | some l =>
    rw [numberOr, number_eq_ok_iff]
    exact ⟨.given, fun h => by cases h; assumption⟩

theorem ofDegrees?_eq_some_iff {n : Int} {o : Orientation} :
    Orientation.ofDegrees? n = some o ↔ n = o.degrees := by
  refine ⟨fun h => ?_, fun h' => ?_⟩
  · have := List.find?_some h
    simpa using (beq_iff_eq.1 this).symm
  · subst h'
    cases o <;> rfl

theorem orientation_eq_ok_iff {l : Option Literal} {o : Orientation} :
    orientation l = .ok o ↔ Worth.Angle l o := by
  cases l with
  | none =>
    simp only [orientation, Except.ok.injEq]
    exact ⟨fun h => h ▸ .omitted, fun h => by cases h; rfl⟩
  | some l =>
    simp only [orientation, bind_eq_ok_iff, integer_eq_ok_iff]
    refine ⟨fun h' => ?_, fun h' => ?_⟩
    · obtain ⟨i, hi, h⟩ := h'
      split at h
      · rename_i o' ho
        cases pure_eq_ok_iff.1 h
        exact .given hi (ofDegrees?_eq_some_iff.1 ho)
      · cases h
    · cases h'
      rename_i i hi hdeg
      exact ⟨i, hi, by rw [ofDegrees?_eq_some_iff.2 hdeg]; rfl⟩

theorem dimension_eq_ok_iff {l : Literal} {field : String} {n : UInt32} :
    dimension l field = .ok n ↔ Worth.Size l n := by
  simp only [dimension, bind_eq_ok_iff, integer_eq_ok_iff, Worth.Size]
  refine exists_congr fun i => and_congr_right fun _ => ?_
  have hhi := i.toInt_lt
  by_cases h1 : 1 ≤ i.toInt
  · have hn : (UInt32.ofNat i.toInt.toNat).toNat = i.toInt.toNat :=
      UInt32.toNat_ofNat_of_lt' (by rw [UInt32.size]; omega)
    rw [if_pos h1, pure_eq_ok_iff, ← UInt32.toNat_inj, hn]
    omega
  · rw [if_neg h1]
    exact ⟨fun h => (nomatch h), fun h => absurd h.1 h1⟩

end Decode

namespace Draft

theorem kindOf_eq_ok_iff {form : Form} {kind : Gadget.Kind} :
    kindOf form = .ok kind ↔ Worth.Kind form kind := by
  cases form with
  | squareBumper =>
    rw [kindOf, pure_eq_ok_iff]
    exact ⟨fun h => h ▸ .squareBumper, fun h => by cases h; rfl⟩
  | circleBumper =>
    rw [kindOf, pure_eq_ok_iff]
    exact ⟨fun h => h ▸ .circleBumper, fun h => by cases h; rfl⟩
  | triangleBumper l =>
    simp only [kindOf, bind_eq_ok_iff, pure_eq_ok_iff, Decode.orientation_eq_ok_iff]
    exact ⟨fun ⟨_, ho, h⟩ => h ▸ .triangleBumper ho, fun h => by cases h; exact ⟨_, ‹_›, rfl⟩⟩
  | absorber w h =>
    simp only [kindOf, bind_eq_ok_iff, pure_eq_ok_iff, Decode.dimension_eq_ok_iff]
    exact ⟨fun ⟨_, hw, _, hh, h⟩ => h ▸ .absorber hw hh,
      fun h => by cases h; exact ⟨_, ‹_›, _, ‹_›, rfl⟩⟩
  | flipper side l =>
    simp only [kindOf, bind_eq_ok_iff, pure_eq_ok_iff, Decode.orientation_eq_ok_iff]
    exact ⟨fun ⟨_, ho, h⟩ => h ▸ .flipper ho, fun h => by cases h; exact ⟨_, ‹_›, rfl⟩⟩

theorem gadgetOf_eq_ok_iff {form : Form} {name x y : Literal} {span : Span} {g : Gadget} :
    gadgetOf form name x y span = .ok g ↔ Worth.Gadget (.gadget form name x y span) g := by
  simp only [gadgetOf, bind_eq_ok_iff, pure_eq_ok_iff, kindOf_eq_ok_iff,
    Decode.integer_eq_ok_iff]
  refine ⟨fun h => ?_, fun h => ?_⟩
  · obtain ⟨kind, hk, i, hx, j, hy, rfl⟩ := h
    exact .mk span hk hx hy
  · cases h
    exact ⟨_, ‹_›, _, ‹_›, _, ‹_›, rfl⟩

theorem ballOf_eq_ok_iff {name x y u v : Literal} {span : Span} {b : Ball} :
    ballOf name x y u v span = .ok b ↔ Worth.Ball (.ball name x y u v span) b := by
  simp only [ballOf, bind_eq_ok_iff, pure_eq_ok_iff, Decode.number_eq_ok_iff]
  refine ⟨fun h => ?_, fun h => ?_⟩
  · obtain ⟨px, hx, py, hy, vx, hu, vy, hv, rfl⟩ := h
    exact .mk span hx hy hu hv
  · cases h
    exact ⟨_, ‹_›, _, ‹_›, _, ‹_›, _, ‹_›, rfl⟩

end Draft

theorem Worth.Gadget.unique {x : Declaration} {g g' : Playfield.Gadget} (h : Worth.Gadget x g)
    (h' : Worth.Gadget x g') : g = g' := by
  cases h with
  | mk span hk hx hy =>
    exact Except.ok.inj ((Draft.gadgetOf_eq_ok_iff.2 (.mk span hk hx hy)).symm.trans
      (Draft.gadgetOf_eq_ok_iff.2 h'))

theorem Worth.Ball.unique {x : Declaration} {b b' : Playfield.Ball} (h : Worth.Ball x b)
    (h' : Worth.Ball x b') : b = b' := by
  cases h with
  | mk span hx hy hu hv =>
    exact Except.ok.inj ((Draft.ballOf_eq_ok_iff.2 (.mk span hx hy hu hv)).symm.trans
      (Draft.ballOf_eq_ok_iff.2 h'))

theorem Worth.NumberOr.unique {fallback x y : Binary64} {l : Option Literal}
    (h : Worth.NumberOr fallback l x) (h' : Worth.NumberOr fallback l y) : x = y := by
  have hx : Decode.numberOr l "" fallback = .ok x := Decode.numberOr_eq_ok_iff.2 h
  have hy : Decode.numberOr l "" fallback = .ok y := Decode.numberOr_eq_ok_iff.2 h'
  exact Except.ok.inj (hx.symm.trans hy)

end Playfield
