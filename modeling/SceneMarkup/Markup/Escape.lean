/-
  SceneMarkup/Markup/Escape.lean --- the two flavors of markup, and how text and
  attribute values are written in them.
-/
set_option autoImplicit false

namespace SceneMarkup

/-- A dialect of markup. -/
inductive Flavor where
  | html
  | jsx
  deriving DecidableEq, Repr, Inhabited

namespace Flavor

/-- The name of a flavor. -/
def name : Flavor → String
  | .html => "html"
  | .jsx => "jsx"

/-- The flavor of a name. -/
def ofName? (name : String) : Option Flavor :=
  match name with
  | "html" => some .html
  | "jsx" => some .jsx
  | _ => none

/-- The flavor that a user means: letters of either case, and the names of what holds it. -/
def ofUserName (text : String) : Except String Flavor :=
  let lower := String.ofList (text.toList.map Char.toLower)
  match lower with
  | "html" => .ok .html
  | "jsx" => .ok .jsx
  | "tsx" => .ok .jsx
  | "react" => .ok .jsx
  | other => .error ("unknown markup flavor `" ++ other ++ "` (expected html or jsx)")

/-- The extension of a file that holds a module. -/
def extension : Flavor → String
  | .html => "html"
  | .jsx => "tsx"

/-- The element that stands for a line break. -/
def lineBreak : Flavor → List Char
  | .html => "<br>".toList
  | .jsx => "<br />".toList

/-- The attribute that holds the class. -/
def classAttribute : Flavor → String
  | .html => "class"
  | .jsx => "className"

end Flavor

namespace Markup

/-- A character of a text, other than a line break. -/
def textChar (flavor : Flavor) (c : Char) : List Char :=
  match c with
  | '&' => "&amp;".toList
  | '<' => "&lt;".toList
  | '>' => "&gt;".toList
  | '\x7b' => if flavor = .jsx then "\x7b'\x7b'\x7d".toList else [c]
  | '\x7d' => if flavor = .jsx then "\x7b'\x7d'\x7d".toList else [c]
  | _ => [c]

/-- The characters of a text. A line feed, a carriage return, and the two together are each one
line break. -/
def textChars (flavor : Flavor) : List Char → List Char
  | [] => []
  | '\r' :: '\n' :: rest => flavor.lineBreak ++ textChars flavor rest
  | c :: rest =>
      if c = '\n' ∨ c = '\r' then flavor.lineBreak ++ textChars flavor rest
      else textChar flavor c ++ textChars flavor rest

/-- A text in markup. -/
def escapeText (flavor : Flavor) (text : String) : String :=
  String.ofList (textChars flavor text.toList)

/-- A character of an attribute value. -/
def attributeChar (c : Char) : List Char :=
  match c with
  | '&' => "&amp;".toList
  | '"' => "&quot;".toList
  | '<' => "&lt;".toList
  | '>' => "&gt;".toList
  | _ => [c]

/-- An attribute value in markup, without its quotes. -/
def escapeAttribute (value : String) : String :=
  String.ofList (value.toList.flatMap attributeChar)

end Markup

end SceneMarkup
