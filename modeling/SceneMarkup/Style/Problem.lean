/-
  SceneMarkup/Style/Problem.lean --- what a scene asks for and a stylesheet cannot do.
-/
import SceneMarkup.Diagnostic

set_option autoImplicit false

namespace SceneMarkup.Style

/-- Why a gradient cannot be written. -/
inductive GradientProblem where
  | noStops
  | unordered
  deriving DecidableEq, Repr, Inhabited

/-- The wording of a gradient's problem. -/
def GradientProblem.message : GradientProblem → String
  | .noStops => "gradient has no color stops"
  | .unordered => "gradient stops are not in non-decreasing position order"

/-- Something of a node that is left out of its style. -/
inductive Problem where
  | gradientFill (problem : GradientProblem)
  | unsupportedFill (tag : String)
  | manyStrokes
  | gradientStroke (problem : GradientProblem)
  | gradientTextStroke
  | imageStroke
  | unsupportedStroke (tag : String)
  | innerTextShadow
  | unsupportedEffect (tag : String)
  deriving DecidableEq, Repr, Inhabited

namespace Problem

/-- The wording of a problem. -/
def message : Problem → String
  | .gradientFill problem => problem.message ++ ", layer skipped"
  | .unsupportedFill tag => "unsupported paint type `" ++ tag ++ "`, skipped"
  | .manyStrokes => "unsupported: multiple strokes"
  | .gradientStroke problem => problem.message ++ ", stroke skipped"
  | .gradientTextStroke => "unsupported: gradient text stroke"
  | .imageStroke => "unsupported: image stroke"
  | .unsupportedStroke tag => "unsupported paint type `" ++ tag ++ "`, stroke skipped"
  | .innerTextShadow => "unsupported: inner shadow on text, skipped"
  | .unsupportedEffect tag => "unsupported effect type `" ++ tag ++ "`, skipped"

/-- The warning about a node. -/
def diagnostic (nodeId : String) (problem : Problem) : Diagnostic :=
  .warning nodeId problem.message

end Problem

end SceneMarkup.Style
