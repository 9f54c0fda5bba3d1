/-
  SceneMarkup/Style/Effect.lean --- shadows and blurs.

  WHAT THIS FILE IS FOR.  Each visible effect goes to one of three properties, or is a
  problem; within a property the effects keep their order.
-/
import SceneMarkup.Style.Fill

set_option autoImplicit false

namespace SceneMarkup.Style

/-- A shadow of a box. -/
def boxShadow (inset : Bool) (shadow : Shadow) : String :=
  (if inset then "inset " else "") ++ px shadow.offset.x ++ " " ++ px shadow.offset.y ++ " " ++
    px shadow.radius ++ " " ++ px shadow.spread ++ " " ++ shadow.color.css

/-- A shadow of a text, which has no spread. -/
def textShadow (shadow : Shadow) : String :=
  px shadow.offset.x ++ " " ++ px shadow.offset.y ++ " " ++ px shadow.radius ++ " " ++
    shadow.color.css

/-- A blur. -/
def blur (radius : Float) : String := "blur(" ++ px radius ++ ")"

/-- Where an effect goes. -/
inductive EffectTarget where
  | shadow (value : String)
  | filter (value : String)
  | backdrop (value : String)
  | problem (problem : Problem)
  deriving DecidableEq, Repr, Inhabited

/-- Where an effect of a text or of a box goes. -/
def effectTarget (text : Bool) : EffectKind → EffectTarget
  | .dropShadow shadow => .shadow (if text then textShadow shadow else boxShadow false shadow)
  | .innerShadow shadow =>
      if text then .problem .innerTextShadow else .shadow (boxShadow true shadow)
  | .layerBlur radius => .filter (blur radius)
  | .backgroundBlur radius => .backdrop (blur radius)
  | .unsupported tag => .problem (.unsupportedEffect tag)

namespace EffectTarget

/-- The value of a shadow. -/
def shadow? : EffectTarget → Option String
  | .shadow value => some value
  | _ => none

/-- The value of a filter. -/
def filter? : EffectTarget → Option String
  | .filter value => some value
  | _ => none

/-- The value of a filter of what lies below. -/
def backdrop? : EffectTarget → Option String
  | .backdrop value => some value
  | _ => none

/-- The problem of an effect. -/
def problem? : EffectTarget → Option Problem
  | .problem p => some p
  | _ => none

end EffectTarget

/-- Where the visible effects go, in order. -/
def effectTargets (text : Bool) (effects : List SceneMarkup.Effect) : List EffectTarget :=
  (effects.filter (·.visible)).map fun effect => effectTarget text effect.kind

/-- A declaration of all values together, unless there is none. -/
def declareJoined (property separator : String) (values : List String) : List Declaration :=
  declareIf (!values.isEmpty) property (String.intercalate separator values)

/-- The declarations of some effects. -/
def effect (text : Bool) (effects : List SceneMarkup.Effect) : List Declaration :=
  let targets := effectTargets text effects
  declareJoined (if text then "text-shadow" else "box-shadow") ", "
      (targets.filterMap EffectTarget.shadow?) ++
    declareJoined "filter" " " (targets.filterMap EffectTarget.filter?) ++
    declareJoined "backdrop-filter" " " (targets.filterMap EffectTarget.backdrop?)

/-- What is wrong with some effects, in order. -/
def effectProblems (text : Bool) (effects : List SceneMarkup.Effect) : List Problem :=
  (effectTargets text effects).filterMap EffectTarget.problem?

end SceneMarkup.Style
