/-
  Playfield.Proofs.Scene.Made — every way to a scene leads to a sound one.

  A scene is made by applying declarations to a draft, in any number and whether or not each of
  them can be applied, and finishing the draft with the header of a parsed board; or it is
  unpacked from bytes. The first way keeps the draft sound at every step, and the header brings
  a name and finite numbers; the second checks what it has read. So no scene has a flaw
  (`made_valid`).
-/

import Playfield.Proofs.Board.Grammar
import Playfield.Proofs.Packed.Envelope
import Playfield.Proofs.Scene.Depiction
import Playfield.Proofs.Settings

namespace Playfield

open Board (Declaration Header)
open Source (Literal)

/-- The defaults are finite numbers. -/
structure Settings.Finite (settings : Settings) : Prop where
  gravity : settings.gravity.isFinite = true
  friction1 : settings.friction1.isFinite = true
  friction2 : settings.friction2.isFinite = true

namespace Scene

/-- The scene can come to be. -/
inductive Made : Scene → Prop where
  /-- Finishing a draft to which declarations were applied, from wherever they are. -/
  | built {settings : Settings} {source : String} {board : Board} {declarations : List Declaration}
      {s : Scene} : settings.Finite → Board.parse source = .ok board →
      (({} : Draft).performEach declarations).finish settings board.header = .ok s → Made s
  | unpacked {bytes : List UInt8} {s : Scene} : unpack bytes = .ok s → Made s

/-! ## Building -/

theorem finite_of_numberOr {fallback x : Binary64} {l : Option Literal}
    (hfallback : fallback.isFinite = true) (h : Worth.NumberOr fallback l x) :
    x.isFinite = true := by
  cases h with
  | omitted => exact hfallback
  | given hx =>
    obtain ⟨_, _, _, hfinite⟩ := hx
    exact hfinite

/-- A sound draft and the header of a parsed board make a sound scene. -/
theorem sound_of_finish {d : Draft} {settings : Settings} {source : String} {board : Board}
    {s : Scene} (hd : d.Sound) (hsettings : settings.Finite)
    (hboard : Board.parse source = .ok board)
    (h : d.finish settings board.header = .ok s) : s.Sound := by
  obtain ⟨hheads, hregistry, hwiring, hballs⟩ := Draft.finish_eq_ok_iff.1 h
  obtain ⟨l, hl, hname⟩ := hheads.name
  constructor
  case name => exact hname ▸ Board.name_ne_empty_of_parse hboard hl
  case gravity => exact finite_of_numberOr hsettings.gravity hheads.gravity
  case friction1 => exact finite_of_numberOr hsettings.friction1 hheads.friction1
  case friction2 => exact finite_of_numberOr hsettings.friction2 hheads.friction2
  case timeStep_finite => exact hheads.timeStep ▸ settings.timeStep_isFinite
  case timeStep_positive => exact hheads.timeStep ▸ settings.timeStep_isPositive
  case named => exact hregistry ▸ hd.named
  case sized => exact hregistry ▸ hd.sized
  case entries => rw [hregistry, hwiring]; exact hd.entries
  case targets => rw [hregistry, hwiring]; exact hd.targets
  case balls => exact hballs ▸ hd.finite

theorem Made.sound {s : Scene} (h : s.Made) : s.Sound := by
  cases h with
  | built hsettings hboard h =>
    exact sound_of_finish (Draft.performEach_sound Draft.sound_empty _) hsettings hboard h
  | unpacked h => exact (good_of_unpack h).1

/-- A scene that is built from a text at once can come to be. -/
theorem made_of_ofText {settings : Settings} {text : String} {s : Scene}
    (hsettings : settings.Finite) (h : ofText settings text = .ok s) : s.Made := by
  obtain ⟨board, hboard, h⟩ := bind_eq_ok_iff.1 h
  obtain ⟨d, hd, h⟩ := bind_eq_ok_iff.1 h
  exact .built hsettings hboard (Draft.performEach_of_applyAll hd ▸ h)

/-! ## All scenes -/

/-- However a scene is made, it is sound, what its names stand for agrees, and the check finds no
flaw in it. -/
theorem made_valid {s : Scene} (h : s.Made) :
    s.Sound ∧
      (∀ name, (s.triggeredBy? name).isSome = (s.gadget? name).isSome) ∧
      (∀ name g, s.gadget? name = some g → g.name = name ∧
        g.footprint.contains g.origin = true) ∧
      s.flaw? = none :=
  ⟨h.sound, h.sound.triggeredBy?_isSome,
    fun name g hg => ⟨h.sound.named name g hg, h.sound.footprint_contains_origin hg⟩,
    flaw?_eq_none_iff.2 h.sound⟩

/-- Past a second bumper of one name and a wiring to a name that is not there, a bumper that
triggers itself and a ball make a valid scene. So do the bytes of another one, whatever stands
behind them. -/
theorem made_valid_past_failure :
    let zero : Literal := { kind := .integer, text := "0", span := default }
    let named (text : String) : Literal := { kind := .name, text, span := default }
    let bumper : Declaration := .gadget .circleBumper (named "c") zero zero default
    let fire (action : String) : Declaration := .fire (named "c") (named action) default
    let ball : Declaration := .ball (named "o") zero zero zero zero default
    let header : Header :=
      { name := some { kind := .name, text := "b", span := ⟨11, 12, 1, 12⟩ }
        gravity := none, friction1 := none, friction2 := none, span := ⟨0, 12, 1, 1⟩ }
    let g : Gadget := { name := "c", origin := ⟨0, 0⟩, kind := .circularBumper, line := 1 }
    let s : Scene :=
      { name := "b", gravity := ⟨0x4039000000000000⟩, friction1 := ⟨0x3f9999999999999a⟩
        friction2 := ⟨0x3f9999999999999a⟩, timeStep := ⟨0x3fa999999999999a⟩
        registry := ⟨NameMap.empty.insert "c" g⟩
        wiring := ⟨NameMap.empty.insert "c" (NameSet.add .empty "c")⟩
        balls := [⟨"o", ⟨⟨0⟩, ⟨0⟩⟩, ⟨⟨0⟩, ⟨0⟩⟩, 1⟩] }
    let t : Scene := { s with name := "t" }
    let d := ({} : Draft).performEach [bumper]
    d.apply bumper = .error (.duplicate "c" 1 1) ∧
      d.apply (fire "z") = .error (.unresolved "z" 1) ∧
      Board.parse "board name=b" = .ok { header, declarations := [] } ∧
      (({} : Draft).performEach [bumper, bumper, fire "c", fire "z", ball]).finish {} header =
        .ok s ∧
      unpack (t.pack ++ [0]) = .ok t ∧
      ∀ u ∈ [s, t], u.Sound ∧ u.flaw? = none ∧ u.gadget? "c" = some g ∧
        g.footprint.contains g.origin = true ∧ (u.triggeredBy? "c").isSome = true := by
  intro zero named bumper fire ball header g s t d
  have hboard : Board.parse "board name=b" = .ok { header, declarations := [] } := by
    decide +kernel
  have hs : (({} : Draft).performEach [bumper, bumper, fire "c", fire "z", ball]).finish {} header =
      .ok s := by
    decide +kernel
  have ht : unpack (t.pack ++ [0]) = .ok t := by decide +kernel
  refine ⟨by decide +kernel, by decide +kernel, hboard, hs, ht, fun u hu => ?_⟩
  have hmade : u.Made ∧ u.gadget? "c" = some g := by
    rcases List.mem_pair.1 hu with rfl | rfl
    · exact ⟨.built ⟨by decide, by decide, by decide⟩ hboard hs, by decide +kernel⟩
    · exact ⟨.unpacked ht, by decide +kernel⟩
  obtain ⟨hsound, hnames, hgadgets, hflaw⟩ := made_valid hmade.1
  have hentry : (u.triggeredBy? "c").isSome = true := by
    rw [hnames, hmade.2]
    rfl
  exact ⟨hsound, hflaw, hmade.2, (hgadgets "c" g hmade.2).2, hentry⟩

end Scene

end Playfield
