/-
  SceneMarkup/Stylesheet.lean --- rules for classes, and their text.
-/
import SceneMarkup.Style.Record

set_option autoImplicit false

namespace SceneMarkup

/-- The declarations of a class. -/
structure Rule where
  className : String
  declarations : List Declaration
  deriving DecidableEq, Repr, Inhabited

namespace Rule

/-- The rule of a class and a record. -/
def ofRecord (className : String) (record : Record) : Rule := ⟨className, record.declarations⟩

/-- The value of the first declaration of a property. -/
def get? (rule : Rule) (property : String) : Option String :=
  Declarations.get? rule.declarations property

/-- The text of a rule: a line for each declaration between braces. -/
def css (rule : Rule) : String :=
  "." ++ rule.className ++ " \x7b\n" ++
    String.join (rule.declarations.map fun d => "  " ++ d.1 ++ ": " ++ d.2 ++ ";\n") ++ "\x7d"

end Rule

/-- Rules in the order in which their classes were made. -/
abbrev Stylesheet : Type := List Rule

namespace Stylesheet

/-- The first rule of a class. -/
def rule? (sheet : Stylesheet) (className : String) : Option Rule :=
  sheet.find? fun rule => rule.className == className

/-- The text of a stylesheet, with an empty line between rules. -/
def css (sheet : Stylesheet) : String :=
  match sheet with
  | [] => ""
  | rules => String.intercalate "\n\n" (rules.map Rule.css) ++ "\n"

end Stylesheet

end SceneMarkup
