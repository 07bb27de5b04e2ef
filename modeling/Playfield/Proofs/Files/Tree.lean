/-
  Playfield.Proofs.Files.Tree — what writing a file does to a tree.

  Writing fails and leaves the tree alone, or puts a file at the one place that the path leads to
  (`write_cases`); all other places keep their nodes (`node?_set`). A path is followed through
  directories only, and a file is never put where a directory is, so every path leads afterwards to
  where it led before (`locate_set`). What was written is therefore found again under the same path
  (`read_of_write`).
-/

import Playfield.Files.Tree
import Playfield.Proofs.Result

namespace Playfield.FileTree

variable {t t' : FileTree} {p q r : Place} {n : Node} {path : String} {bytes : List UInt8}

/-! ## One place -/

theorem node?_set (t : FileTree) (p q : Place) (n : Node) :
    (t.set p n).node? q = if q = p then some n else t.node? q := by
  by_cases hq : q = p
  · simp [node?, set, hq]
  · have hkeep : ∀ a : Place × Node,
        decide ((a.1 != p) = true ∧ (a.1 == q) = true) = (a.1 == q) := by
      intro a
      by_cases ha : a.1 = q
      · simp [ha, hq]
      · simp [ha]
    have hp : (p == q) = false := beq_false_of_ne (Ne.symm hq)
    rw [if_neg hq, node?, set, List.find?_cons, hp, List.find?_filter, node?, funext hkeep]

/-! ## The way to a place -/

/-- Every step is taken from a directory. -/
theorem directory_of_step {part : String} (h : t.step p part = .ok q) :
    t.node? p = some .directory := by
  unfold step at h
  split at h
  · cases h
  · assumption
  · cases h

theorem step_set {part : String} (hp : t.node? p ≠ some .directory)
    (h : t.step q part = .ok r) : (t.set p n).step q part = .ok r := by
  have hq : q ≠ p := by
    rintro rfl
    exact hp (directory_of_step h)
  unfold step at h ⊢
  rwa [node?_set, if_neg hq]

theorem foldlM_step_set {parts : List String} (hp : t.node? p ≠ some .directory)
    (h : parts.foldlM t.step q = .ok r) : parts.foldlM (t.set p n).step q = .ok r := by
  induction parts generalizing q with
  | nil => exact h
  | cons part parts ih =>
    rw [List.foldlM_cons, bind_eq_ok_iff] at h ⊢
    obtain ⟨q', hstep, hrest⟩ := h
    exact ⟨q', step_set hp hstep, ih hrest⟩

/-- A node that takes the place of no directory is in nobody's way. -/
theorem locate_set (hp : t.node? p ≠ some .directory) (h : t.locate path = .ok q) :
    (t.set p n).locate path = .ok q := by
  rw [locate, bind_eq_ok_iff] at h ⊢
  obtain ⟨first, hstart, hparts⟩ := h
  exact ⟨first, hstart, foldlM_step_set hp hparts⟩

/-- A file is created where its path leads. -/
theorem locate_of_locateNew (h : t.locateNew path = .ok p) : t.locate path = .ok p := by
  unfold locateNew at h
  split at h
  · simp only [bind_eq_ok_iff] at h
    obtain ⟨_, _, _, _, _, _, _, hthrow, _⟩ := h
    cases hthrow
  · exact h

/-! ## Writing -/

theorem write_cases (t : FileTree) (path : String) (bytes : List UInt8) :
    (∃ failure, t.write path bytes = (.error failure, t)) ∨
      ∃ p, t.locateNew path = .ok p ∧ t.node? p ≠ some .directory ∧
        t.write path bytes = (.ok (), t.set p (.file bytes)) := by
  unfold write
  split
  · exact .inl ⟨_, rfl⟩
  · next p hp =>
    split
    · exact .inl ⟨_, rfl⟩
    · exact .inl ⟨_, rfl⟩
    · next hnode => exact .inr ⟨p, hp, by rw [hnode]; simp, rfl⟩
    · next hnode => exact .inr ⟨p, hp, by rw [hnode]; simp, rfl⟩

/-- What was written is read again, under the same path. -/
theorem read_of_write (h : t.write path bytes = (.ok (), t')) : t'.read path = .ok bytes := by
  rcases t.write_cases path bytes with ⟨failure, hwrite⟩ | ⟨p, hp, hnode, hwrite⟩
  · cases h.symm.trans hwrite
  · cases h.symm.trans hwrite
    have hlocate := locate_set (n := .file bytes) hnode (locate_of_locateNew hp)
    simp only [read, hlocate, node?_set, if_true]

end Playfield.FileTree
