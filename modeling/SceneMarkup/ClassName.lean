/-
  SceneMarkup/ClassName.lean --- class names that are readable, usable and all
  different.
-/
import SceneMarkup.Text.Words

set_option autoImplicit false

namespace SceneMarkup.ClassName

/-- The class name that a name suggests: its words in small letters, or `fallback` when it has
none; a digit does not come first. -/
def suggest (name fallback : String) : String :=
  let slug := Text.kebab name.toList
  let base := if slug.isEmpty then fallback.toList else slug
  String.ofList (if base.head?.any Char.isDigit then 'n' :: '-' :: base else base)

/-- The names to try: the base, and the base with a number from two on. -/
def candidate (base : String) : Nat → String
  | 0 => base
  | k + 1 => base ++ "-" ++ toString (k + 2)

/-- The first candidate that is not in use. Of one candidate more than there are names in use, one
is free. -/
def firstFree (used : List String) (base : String) : String :=
  candidate base (((List.range (used.length + 1)).find? fun k => candidate base k ∉ used).getD 0)

/-- The names given so far, all beginning alike. -/
structure Namer where
  start : String
  used : List String
  deriving DecidableEq, Repr, Inhabited

namespace Namer

/-- The namer that has given no name. -/
def fresh (start : String) : Namer := ⟨start, []⟩

/-- A new name for something, and the namer that has given it. -/
def mint (namer : Namer) (name fallback : String) : String × Namer :=
  let given := firstFree namer.used (namer.start ++ suggest name fallback)
  (given, { namer with used := given :: namer.used })

end Namer

end SceneMarkup.ClassName
