/-
  SceneMarkup/Style/Run.lean --- a text as runs of characters with the same style.
-/
import SceneMarkup.Scene.TextStyle

set_option autoImplicit false

namespace SceneMarkup

/-- Consecutive characters of a text with the same style id. -/
structure Run where
  /-- the position of the first character -/
  start : Nat
  characters : List Char
  styleId : Nat
  deriving DecidableEq, Repr, Inhabited

namespace Run

/-- The position after the last character. -/
def stop (run : Run) : Nat := run.start + run.characters.length

/-- The text of the run. -/
def text (run : Run) : String := String.ofList run.characters

/-- Characters with their style ids as runs, the first character being at `start`. -/
def ofStyled (start : Nat) : List (Char × Nat) → List Run
  | [] => []
  | (c, id) :: rest =>
      match ofStyled (start + 1) rest with
      | next :: runs =>
          if next.styleId = id then ⟨start, c :: next.characters, id⟩ :: runs
          else ⟨start, [c], id⟩ :: next :: runs
      | [] => [⟨start, [c], id⟩]

end Run

namespace TextBlock

/-- The ids of the first `length` characters: zero where none is given. -/
def ownStyles (length : Nat) (given : List Nat) : List Nat :=
  given.take length ++ List.replicate (length - given.length) 0

/-- `ids` with those of a range replaced. -/
def applyRange (ids : List Nat) (range : StyleRange) : List Nat :=
  ids.mapIdx fun i id => if range.start ≤ i ∧ i < range.stop then range.styleId else id

/-- The style id of each character. An id without a style is zero. -/
def styleIds (text : TextBlock) : List Nat :=
  let own := ownStyles text.characters.toList.length text.characterStyles
  (text.ranges.foldl applyRange own).map fun id => if text.overrides.has id then id else 0

/-- The runs of a text: as few as possible, in order. -/
def runs (text : TextBlock) : List Run :=
  Run.ofStyled 0 (text.characters.toList.zip text.styleIds)

end TextBlock

end SceneMarkup
