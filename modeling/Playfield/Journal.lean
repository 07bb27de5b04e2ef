/-
  Playfield.Journal — what is noted down while boards are read, built, loaded and saved.

  A journal is a list of notes in the order they were made. Nothing depends on it: each
  operation has a function beside it that says which notes it leaves.
-/

namespace Playfield

/-- How much detail a note gives, finest first. -/
inductive Level where
  | trace
  | debug
  | info
  deriving DecidableEq, Repr

structure Note where
  level : Level
  text : String
  deriving DecidableEq, Repr

end Playfield
