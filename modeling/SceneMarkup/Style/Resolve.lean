/-
  SceneMarkup/Style/Resolve.lean --- the style of every node of a walk.

  WHAT THIS FILE IS FOR.  The declarations of a node come in groups, in this order:
  geometry, container, fills, strokes, corners, effects, text, and last what hides,
  fades or mixes the whole node.  What cannot be written is a problem of the node.
-/
import SceneMarkup.Style.Effect
import SceneMarkup.Style.Font
import SceneMarkup.Style.Run

set_option autoImplicit false

namespace SceneMarkup

/-- A run of text with the declarations by which it differs from its node. -/
structure ResolvedRun where
  run : Run
  record : Record
  deriving DecidableEq, Repr, Inhabited

/-- A node's record, and its runs if it is a text with several styles. -/
structure Resolved where
  nodeId : String
  record : Record
  runs : List ResolvedRun
  deriving DecidableEq, Repr, Inhabited

namespace Style

/-! ## Groups of declarations -/

/-- Fills, strokes, corners and effects of a node that is not a text. -/
def boxDeclarations (layer : Layer) : List Declaration :=
  fill false layer.fills ++ stroke false layer.strokeWeight layer.strokes ++ corners layer.kind ++
    effect false layer.effects

/-- What is wrong with the fills, strokes and effects of a node that is not a text. -/
def boxProblems (layer : Layer) : List Problem :=
  fillProblems layer.fills ++ strokeProblems false layer.strokeWeight layer.strokes ++
    effectProblems false layer.effects

/-- The record of the characters of a text that have the base style. -/
def baseRecord (layer : Layer) (text : TextBlock) : Record := textRecord text.style layer.fills

/-- Alignment, strokes, effects and base style of a text. -/
def textDeclarations (layer : Layer) (text : TextBlock) : List Declaration :=
  paragraph text.style ++ stroke true layer.strokeWeight layer.strokes ++
    effect true layer.effects ++ (baseRecord layer text).declarations

/-- What hides, fades or mixes a node. -/
def compositing (layer : Layer) : List Declaration :=
  declareIf (!layer.visible) "display" "none" ++
    declareIf (layer.opacity < 1) "opacity"
      (Decimal.numberText (if layer.opacity < 0 then 0 else layer.opacity)) ++
    declareSome "mix-blend-mode" layer.blendMode.keyword?

/-- The declarations that depend on what a node is. -/
def contentDeclarations (layer : Layer) : List Declaration :=
  match layer.kind with
  | .frame _ => boxDeclarations layer
  | .instanceOf .. => boxDeclarations layer
  | .shape _ => boxDeclarations layer
  | .text text => textDeclarations layer text
  | .placeholder _ => []

/-- The record of a node. -/
def record (entry : Entry) : Record :=
  .ofList (geometry entry ++ container entry.layer.kind ++ contentDeclarations entry.layer ++
    compositing entry.layer)

/-! ## Runs -/

/-- The style that overrides the base style of a run. -/
def overrideOf? (text : TextBlock) (run : Run) : Option StyleOverride :=
  if run.styleId = 0 then none else text.overrides.get? run.styleId

/-- The full record of the characters that an overriding style has. -/
def overriddenRecord (layer : Layer) (text : TextBlock) (own : StyleOverride) : Record :=
  textRecord (text.style.apply own) (own.fills.getD layer.fills)

/-- A run with the declarations by which it differs from the base style. -/
def resolveRun (layer : Layer) (text : TextBlock) (run : Run) : ResolvedRun :=
  match overrideOf? text run with
  | none => ⟨run, .empty⟩
  | some own => ⟨run, (overriddenRecord layer text own).difference (baseRecord layer text)⟩

/-- The runs of a text, none if all its characters have the base style. -/
def resolveRuns (layer : Layer) (text : TextBlock) : List ResolvedRun :=
  if text.hasOverrides then text.runs.map (resolveRun layer text) else []

/-- What is wrong with the fills that a run has of its own. -/
def runProblems (text : TextBlock) (run : Run) : List Problem :=
  match overrideOf? text run with
  | some own => (own.fills.map fillProblems).getD []
  | none => []

/-- What is wrong with a text: its fills, strokes and effects, and then its runs. -/
def textProblems (layer : Layer) (text : TextBlock) : List Problem :=
  fillProblems layer.fills ++ strokeProblems true layer.strokeWeight layer.strokes ++
    effectProblems true layer.effects ++
    if text.hasOverrides then text.runs.flatMap (runProblems text) else []

/-! ## Nodes -/

/-- What is wrong with a node. -/
def problems (layer : Layer) : List Problem :=
  match layer.kind with
  | .frame _ => boxProblems layer
  | .instanceOf .. => boxProblems layer
  | .shape _ => boxProblems layer
  | .text text => textProblems layer text
  | .placeholder _ => []

/-- The style of a node. -/
def resolveEntry (entry : Entry) : Resolved :=
  ⟨entry.id, record entry, match entry.layer.kind with
    | .text text => resolveRuns entry.layer text
    | _ => []⟩

/-- The styles of the nodes of a walk, in order. -/
def resolve (entries : List Entry) : List Resolved := entries.map resolveEntry

/-- The warnings about the nodes of a walk, in order. -/
def diagnostics (entries : List Entry) : Diagnostics :=
  entries.flatMap fun entry => (problems entry.layer).map (Problem.diagnostic entry.id)

end Style

end SceneMarkup
