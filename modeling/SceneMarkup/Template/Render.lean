/-
  SceneMarkup/Template/Render.lean --- a template filled with the fields of an object.
-/
import SceneMarkup.Json.Writer
import SceneMarkup.Template.Segment
import SceneMarkup.Text.Lines
import SceneMarkup.Text.Words

set_option autoImplicit false

namespace SceneMarkup

/-- The name that a component gets: the words of its name, each beginning with a capital. A name
without words is `Component`, and a digit does not come first. -/
def componentName (name : List Char) : List Char :=
  match Text.pascal name with
  | [] => "Component".toList
  | c :: rest => if c.isDigit then "Component".toList ++ c :: rest else c :: rest

/-- The segments of a template. -/
abbrev Template : Type := List Template.Segment

namespace Template

/-- Why a template could not be used. -/
inductive Fault where
  | malformed
  | noTemplate (name : String)
  | noField (name : String)
  | noHelper (name : String)
  deriving DecidableEq, Repr, Inhabited

/-- The template that a text describes. -/
def ofText (text : String) : Except Fault Template :=
  match segments? text.toList with
  | none => .error .malformed
  | some segments => .ok segments

/-! ## Values in text -/

mutual

/-- A value as it stands in text. -/
def shown : Json.Value → String
  | .null => ""
  | .bool b => if b then "true" else "false"
  | .number n => n.text
  | .string s => s
  | .array items => "[" ++ String.intercalate ", " (shownAll items) ++ "]"
  | .object _ => "[object]"

/-- Some values as they stand in text. -/
def shownAll : List Json.Value → List String
  | [] => []
  | v :: rest => shown v :: shownAll rest

end

/-- The value that a name stands for: a field of an object, or all of it. -/
def valueOf? (data : Json.Value) (name : String) : Option Json.Value :=
  if name = "this" then some data else data.field? name

/-- The value of an argument, if it has one. -/
def Argument.value? (data : Json.Value) : Argument → Option Json.Value
  | .field name => valueOf? data name
  | .literal value => some value

/-- The text of the first argument, which is empty if it is not a text. -/
def subject (data : Json.Value) (arguments : List Argument) : List Char :=
  ((arguments[0]?.bind (Argument.value? data)).bind Json.Value.text?).getD "" |>.toList

/-- The width that the second argument gives, which is two unless it is a natural number. -/
def width (data : Json.Value) (arguments : List Argument) : Nat :=
  match arguments[1]?.bind (Argument.value? data) with
  | some (.number (.integer (.ofNat n))) => n
  | _ => 2

/-- What a helper makes of its arguments. -/
def Helper.apply (data : Json.Value) (arguments : List Argument) : Helper → List Char
  | .pascalCase => componentName (subject data arguments)
  | .indent => Text.indent (width data arguments) (subject data arguments)

/-! ## Rendering -/

/-- What keeps a segment from being filled. -/
def Segment.fault? (data : Json.Value) : Segment → Option Fault
  | .field name => if (valueOf? data name).isSome then none else some (.noField name)
  | .unknown name => some (.noHelper name)
  | _ => none

/-- What a segment becomes; a field that is missing becomes nothing. -/
def Segment.fill (data : Json.Value) : Segment → String
  | .text content => content
  | .field name => ((valueOf? data name).map shown).getD ""
  | .call helper arguments => String.ofList (helper.apply data arguments)
  | .unknown _ => ""

/-- The text of a template whose fields an object fills, whatever is missing. -/
def fill (data : Json.Value) (template : Template) : String :=
  String.join (template.map (Segment.fill data))

/-- The text of a template whose fields an object fills, or what keeps it from being filled. -/
def render (data : Json.Value) (template : Template) : Except Fault String :=
  match template.findSome? (Segment.fault? data) with
  | some fault => .error fault
  | none => .ok (template.fill data)

end Template

end SceneMarkup
