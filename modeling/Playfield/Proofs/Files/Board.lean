/-
  Playfield.Proofs.Files.Board — loading a UTF-8 file is decoding it and then building its scene.

  A file holds the bytes of a text, behind a byte order mark or not, or malformed bytes.
  - The bytes of a text are decoded to that text and no other, so loading the file gives the
    scene or the fault that the text has. One mark is dropped and no more: behind a mark, a text
    may begin with another one.
  - Malformed bytes are no text, so there is nothing to build a scene from.

  In each case the files stay as they are, and a fault is reported with the path that was asked
  for (`loading_decodes_then_builds`). The decoders of the legacy encodings have no part in it, so
  this is so whatever they say.
-/

import Playfield.Encoding.Scheme
import Playfield.Files.Board
import Playfield.Files.Tree
import Playfield.Proofs.Text.Utf8

namespace Playfield.Files

open Text (WellFormed ofUtf8? ofUtf8?_eq_none_iff ofUtf8?_utf8 utf8)

variable {decoders : Decoders} {contents bytes : List UInt8} {t : FileTree} {path : String}

/-! ## Decoding -/

/-- The byte order mark of UTF-8. -/
def mark : List UInt8 :=
  [0xef, 0xbb, 0xbf]

/-- The contents are the bytes behind a mark, or the bytes without one. -/
def Marks (contents bytes : List UInt8) : Prop :=
  contents = mark ++ bytes ∨ contents = bytes ∧ ¬mark <+: bytes

theorem Marks.dropMark (h : Marks contents bytes) :
    Encoding.dropMark Encoding.utf8Mark contents = bytes := by
  have hutf8 : Encoding.utf8Mark = mark := rfl
  rw [Encoding.dropMark, hutf8]
  rcases h with rfl | ⟨rfl, hmark⟩
  · rw [if_pos (List.isPrefixOf_iff_prefix.2 (List.prefix_append mark bytes))]
    rfl
  · rw [if_neg (mt List.isPrefixOf_iff_prefix.1 hmark)]

theorem decode?_utf8 (h : Marks contents bytes) :
    Encoding.utf8.decode? decoders contents = ofUtf8? bytes := by
  rw [Encoding.decode?, if_pos rfl, h.dropMark]

theorem decode_of_utf8 {s : String} (h : Marks contents (utf8 s)) :
    Encoding.utf8.decode decoders contents = .ok s := by
  rw [Encoding.decode, decode?_utf8 h, ofUtf8?_utf8]

theorem decode_of_malformed (h : Marks contents bytes) (hbytes : ¬WellFormed bytes) :
    Encoding.utf8.decode decoders contents = .error (.io "input is not valid UTF-8") := by
  rw [Encoding.decode, decode?_utf8 h, ofUtf8?_eq_none_iff.2 hbytes]
  rfl

/-! ## Loading -/

theorem exists_marks
    (h : t.read path = .ok (mark ++ bytes) ∨ ¬mark <+: bytes ∧ t.read path = .ok bytes) :
    ∃ contents, t.read path = .ok contents ∧ Marks contents bytes := by
  rcases h with hread | ⟨hmark, hread⟩
  · exact ⟨_, hread, .inl rfl⟩
  · exact ⟨_, hread, .inr ⟨rfl, hmark⟩⟩

/-- Loading a UTF-8 file is decoding it and then building the scene of its text. A text that does
not begin with a byte order mark can stand in the file with or without one. Whatever is wrong
with the text is reported with the path, and so is a file whose bytes, but for one mark, are not
well-formed UTF-8. -/
theorem loading_decodes_then_builds (decoders : Decoders) (t : FileTree) (path : String)
    (settings : Settings) :
    (∀ s : String,
      t.read path = .ok (mark ++ utf8 s) ∨
        s.toList.head? ≠ some '\uFEFF' ∧ t.read path = .ok (utf8 s) →
      (loadBoard decoders path .utf8 settings : StateM FileTree (Except Report Scene)) t =
        (match Scene.ofText settings s with
        | .ok scene => .ok scene
        | .error fault => .error { fault, origin := some { source := some path } }, t)) ∧
    (∀ bytes : List UInt8,
      t.read path = .ok (mark ++ bytes) ∨ ¬mark <+: bytes ∧ t.read path = .ok bytes →
      ¬WellFormed bytes →
      (readText decoders path .utf8 : StateM FileTree (Except Fault String)) t =
          (.error (.io "input is not valid UTF-8"), t) ∧
        (loadBoard decoders path .utf8 settings : StateM FileTree (Except Report Scene)) t =
          (.error { fault := .io "input is not valid UTF-8",
                    origin := some { source := some path } }, t)) := by
  constructor
  · intro s hfile
    obtain ⟨contents, hread, hmarks⟩ :=
      exists_marks (hfile.imp_right fun h => ⟨mt Text.head?_of_mark h.1, h.2⟩)
    have htext : textOf decoders path .utf8 (t.read path) = .ok s := by
      rw [hread]
      exact decode_of_utf8 hmarks
    show (sceneOf decoders path .utf8 settings (t.read path), t) = _
    rw [sceneOf, htext]
    dsimp only
    cases Scene.ofText settings s <;> rfl
  · intro bytes hfile hbytes
    obtain ⟨contents, hread, hmarks⟩ := exists_marks hfile
    have htext : textOf decoders path .utf8 (t.read path) =
        .error (.io "input is not valid UTF-8") := by
      rw [hread]
      exact decode_of_malformed hmarks hbytes
    show (textOf decoders path .utf8 (t.read path), t) = _ ∧
      (sceneOf decoders path .utf8 settings (t.read path), t) = _
    rw [sceneOf, htext]
    exact ⟨rfl, rfl⟩

/-- A board behind a byte order mark loads, and an overlong zero byte is no board. -/
theorem marked_board_loads :
    let board := "board name=b"
    let files (bytes : List UInt8) : FileTree :=
      FileTree.empty.set ["tmp", "boards", "b"] (.file bytes)
    (∃ scene, Scene.ofText {} board = .ok scene ∧
      (loadBoard .ofSchemes "b" .utf8 {} : StateM FileTree (Except Report Scene))
          (files (mark ++ utf8 board)) =
        (.ok scene, files (mark ++ utf8 board))) ∧
      ((loadBoard .ofSchemes "b" .utf8 {} : StateM FileTree (Except Report Scene))
          (files [0xc0, 0x80])).1 =
        .error { fault := .io "input is not valid UTF-8"
                 origin := some { source := some "b" } } := by
  intro board files
  have hmarked : (files (mark ++ utf8 board)).read "b" = .ok (mark ++ utf8 board) := by
    decide +kernel
  have hoverlong : (files [0xc0, 0x80]).read "b" = .ok [0xc0, 0x80] := by decide +kernel
  have hmalformed : ¬WellFormed ([] ++ ([0xc0, 0x80] ++ [])) :=
    Text.malformed_of_spells ⟨[], rfl, by simp⟩
      (.two (by decide) (by decide) ⟨by decide, by decide⟩)
      (.inl ⟨[0], .one (by decide), by decide⟩)
  obtain ⟨hloads, -⟩ := loading_decodes_then_builds .ofSchemes (files (mark ++ utf8 board)) "b" {}
  obtain ⟨-, hrefused⟩ := loading_decodes_then_builds .ofSchemes (files [0xc0, 0x80]) "b" {}
  have hload := hloads board (.inl hmarked)
  refine ⟨?_, congrArg Prod.fst (hrefused _ (.inr ⟨by decide, hoverlong⟩) hmalformed).2⟩
  cases hscene : Scene.ofText {} board with
  | ok scene =>
    rw [hscene] at hload
    exact ⟨scene, rfl, hload⟩
  | error fault =>
    have hok : (Scene.ofText {} board).isOk = true := by decide +kernel
    rw [hscene] at hok
    cases hok

end Playfield.Files
