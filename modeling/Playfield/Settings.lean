/-
  Playfield.Settings — what the surroundings of a board decide.

  A board's text never says how fast the simulation runs, and it may leave gravity and friction
  to their defaults.
-/

import Playfield.Binary64.Basic

namespace Playfield

structure Settings where
  /-- Frames in a second. -/
  frameRate : UInt32 := 20
  frameRate_pos : 0 < frameRate.toNat := by decide
  /-- Board units per second squared; 25 unless said otherwise. -/
  gravity : Binary64 := ⟨0x4039000000000000⟩
  /-- Friction per second; 0.025 unless said otherwise. -/
  friction1 : Binary64 := ⟨0x3f9999999999999a⟩
  /-- Friction per board unit; 0.025 unless said otherwise. -/
  friction2 : Binary64 := ⟨0x3f9999999999999a⟩

namespace Settings

/-- Settings with another frame rate. -/
def withFrameRate (s : Settings) (rate : UInt32) (h : 0 < rate.toNat) : Settings :=
  { s with frameRate := rate, frameRate_pos := h }

/-- Seconds in a frame. -/
def timeStep (s : Settings) : Binary64 :=
  .ofRatio false 1 s.frameRate.toNat

end Settings

end Playfield
