/-
  SceneMarkup/OutputJson.lean --- compiled output as JSON.
-/
import SceneMarkup.Compile

set_option autoImplicit false

namespace SceneMarkup

open Json (Value)

/-- Two texts as a list. -/
def pairJson (pair : String × String) : Value := .array [.string pair.1, .string pair.2]

mutual

/-- A piece of markup as JSON. -/
def Markup.toJson : Markup → Value
  | .text content => .object [("type", .string "text"), ("content", .string content)]
  | .element tag children =>
      .object [("type", .string "element"), ("tag", .string tag.name),
        ("className", .ofText? tag.className),
        ("attributes", .array (tag.attributes.map pairJson)),
        ("children", .array (Markup.listToJson children))]

/-- Some pieces of markup as JSON. -/
def Markup.listToJson : List Markup → List Value
  | [] => []
  | m :: rest => m.toJson :: Markup.listToJson rest

end

/-- A rule as JSON. -/
def Rule.toJson (rule : Rule) : Value :=
  .object [("className", .string rule.className),
    ("declarations", .array (rule.declarations.map pairJson))]

/-- A remark as JSON. -/
def Diagnostic.toJson (d : Diagnostic) : Value :=
  .object [("severity", .string d.severity.name), ("node_id", .ofText? d.nodeId),
    ("message", .string d.message)]

/-- The markup, the stylesheet and the remarks of an output as JSON. -/
def Output.toJson (out : Output) : Value :=
  .object [("markup", .array (Markup.listToJson out.markup)),
    ("stylesheet", .array (out.stylesheet.map Rule.toJson)),
    ("diagnostics", .array (out.diagnostics.map Diagnostic.toJson))]

/-- The text of the output as JSON. -/
def Output.json (out : Output) : String := out.toJson.pretty 0

end SceneMarkup
