/-
  SceneMarkup/Template/Library.lean --- templates with names, and those of a module.
-/
import SceneMarkup.Template.Render

set_option autoImplicit false

namespace SceneMarkup.Template

/-- A component that imports its stylesheet. -/
def component : Template :=
  [.text "import React from 'react';\nimport './",
    .field "stylesheet",
    .text "';\n\nexport function ",
    .call .pascalCase [.field "name"],
    .text "() \x7b\n  return (\n",
    .call .indent [.field "body", .literal (.ofNat 4)],
    .text "\n  );\n\x7d\n\nexport default ",
    .call .pascalCase [.field "name"],
    .text ";\n"]

/-- A document that links its stylesheet. -/
def document : Template :=
  [.text "<!DOCTYPE html>\n<html lang=\"en\">\n<head>\n  <meta charset=\"utf-8\">\n  <title>",
    .field "name",
    .text "</title>\n  <link rel=\"stylesheet\" href=\"",
    .field "stylesheet",
    .text "\">\n</head>\n<body>\n",
    .call .indent [.field "body", .literal (.ofNat 2)],
    .text "\n</body>\n</html>\n"]

/-- The fields that the templates of a module show. -/
def moduleFields (name stylesheet body : String) : Json.Value :=
  .object [("body", .string body), ("name", .string name), ("stylesheet", .string stylesheet)]

/-- Templates by name; the first of a name counts. -/
abbrev Library : Type := List (String × Template)

namespace Library

/-- The templates of a module. -/
def builtin : Library := [("component", component), ("document", document)]

/-- Adds the template of a text under a name, in place of any other of that name. -/
def register (library : Library) (name text : String) : Except Fault Library := do
  return (name, ← ofText text) :: library

/-- The text of a named template that is filled with the fields of an object. -/
def render (library : Library) (name : String) (data : Json.Value) : Except Fault String :=
  match library.lookup name with
  | some template => template.render data
  | none => .error (.noTemplate name)

end Library

end SceneMarkup.Template
