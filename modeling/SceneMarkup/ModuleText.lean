/-
  SceneMarkup/ModuleText.lean --- compiled output as one module: a component that
  imports its stylesheet, or a document that links it.

  WHAT THIS FILE IS FOR.  The templates of a module find each of their fields in the
  object that fills them, so a module can always be written.
-/
import SceneMarkup.Compile
import SceneMarkup.Template.Library

set_option autoImplicit false

namespace SceneMarkup

/-- The text of a component with some markup. -/
def componentModule (name : String) (roots : List Markup) (stylesheet : String) : String :=
  Template.component.fill
    (Template.moduleFields name stylesheet (Markup.expression roots))

/-- The text of a document with some markup. -/
def documentModule (name : String) (roots : List Markup) (stylesheet : String) : String :=
  Template.document.fill
    (Template.moduleFields (Markup.escapeAttribute name) (Markup.escapeAttribute stylesheet)
      (Markup.render .html roots))

/-- The text of the module of an output. -/
def Output.renderModule (out : Output) : String :=
  match out.flavor with
  | .jsx => componentModule out.componentName out.markup out.stylesheetFileName
  | .html => documentModule out.componentName out.markup out.stylesheetFileName

end SceneMarkup
