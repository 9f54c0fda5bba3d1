/-
  SceneMarkup/Style/Fill.lean --- the fills and the outline of a node.

  WHAT THIS FILE IS FOR.  Each visible fill is a layer or a problem.  Layers that are
  all of one color make one color; any other layers are listed, the topmost first.
-/
import SceneMarkup.Style.Box
import SceneMarkup.Style.Problem

set_option autoImplicit false

namespace SceneMarkup.Style

/-! ## Gradients -/

/-- The direction of a linear gradient without handles: from top to bottom. -/
def defaultAngle : Float := 180

/-- Half a turn in radians. -/
def halfTurn : Float := 3.14159265358979323846264338327950288

/-- The angle of a linear gradient from its first handle to its second, clockwise from upwards.
The vertical axis of the handles points down. -/
def linearAngle : List Point → Float
  | start :: stop :: _ =>
      let d := stop.sub start
      if d.x * d.x + d.y * d.y == 0 then defaultAngle
      else
        let angle := Float.atan2 d.x (-d.y) * (180 / halfTurn)
        if angle < 0 then angle + 360 else angle
  | _ => defaultAngle

/-- A stop of a gradient. -/
def gradientStop (opacity : Float) (stop : GradientStop) : String :=
  (stop.color.withOpacity opacity).css ++ " " ++ percent (clampUnit stop.position)

/-- A gradient as a style value. -/
def gradientValue (g : Gradient) (opacity : Float) : Except GradientProblem String :=
  if g.stops.isEmpty then .error .noStops
  else if !g.isMonotone then .error .unordered
  else
    let stops := String.intercalate ", " (g.stops.map (gradientStop opacity))
    .ok <| match g.kind with
      | .linear => "linear-gradient(" ++ deg (linearAngle g.handles) ++ ", " ++ stops ++ ")"
      | .radial => "radial-gradient(circle, " ++ stops ++ ")"
      | .diamond => "radial-gradient(circle, " ++ stops ++ ")"
      | .angular => "conic-gradient(" ++ stops ++ ")"

/-! ## Layers -/

/-- A fill that can be written. -/
inductive FillLayer where
  | color (color : Color)
  | value (text : String)
  deriving Repr, Inhabited

/-- An image as a background. -/
def imageValue (reference : String) (mode : ScaleMode) : String :=
  url reference ++ match mode with
    | .fill => " center / cover no-repeat"
    | .crop => " center / cover no-repeat"
    | .fit => " center / contain no-repeat"
    | .tile => " center / auto repeat"

/-- The layer of a paint, or what is wrong with it. -/
def fillLayer (paint : Paint) : Except Problem FillLayer :=
  match paint.ink with
  | .solid color => .ok (.color (color.withOpacity paint.opacity))
  | .gradient g =>
      match gradientValue g paint.opacity with
      | .ok text => .ok (.value text)
      | .error problem => .error (.gradientFill problem)
  | .image reference mode => .ok (.value (imageValue reference mode))
  | .unsupported tag => .error (.unsupportedFill tag)

/-- The results of the visible fills, from the bottom to the top. -/
def visibleLayers (fills : List Paint) : List (Except Problem FillLayer) :=
  (fills.filter (·.visible)).map fillLayer

/-- The value of a result. -/
def success? {ε α : Type} : Except ε α → Option α
  | .ok a => some a
  | .error _ => none

/-- The error of a result. -/
def failure? {ε α : Type} : Except ε α → Option ε
  | .ok _ => none
  | .error e => some e

/-- The layers of some fills, from the bottom to the top. -/
def fillLayers (fills : List Paint) : List FillLayer := (visibleLayers fills).filterMap success?

/-- What is wrong with some fills, in order. -/
def fillProblems (fills : List Paint) : List Problem := (visibleLayers fills).filterMap failure?

/-- The color of a layer of one color. -/
def FillLayer.color? : FillLayer → Option Color
  | .color c => some c
  | .value _ => none

/-- A layer as a background. -/
def FillLayer.background : FillLayer → String
  | .color c => "linear-gradient(" ++ c.css ++ ", " ++ c.css ++ ")"
  | .value text => text

/-- The declarations of layers, for a text or for a box. -/
def layerDeclarations (text : Bool) (layers : List FillLayer) : List Declaration :=
  if layers.isEmpty then []
  else if layers.all fun layer => layer.color?.isSome then
    let color := (Rgba.composite (layers.filterMap FillLayer.color?) : Color)
    [(if text then "color" else "background-color", color.css)]
  else
    ("background", String.intercalate ", " (layers.reverse.map FillLayer.background)) ::
      if text then [("background-clip", "text"), ("color", "transparent")] else []

/-- The declarations of some fills. -/
def fill (text : Bool) (fills : List Paint) : List Declaration :=
  layerDeclarations text (fillLayers fills)

/-! ## Strokes -/

/-- The outline of one color. -/
def solidStroke (text : Bool) (weight : Float) (color : Color) : Declaration :=
  if text then ("-webkit-text-stroke", px weight ++ " " ++ color.css)
  else ("border", px weight ++ " solid " ++ color.css)

/-- The outline that a paint draws, or what is wrong with it. -/
def strokeOf (text : Bool) (weight : Float) (paint : Paint) : Except Problem (List Declaration) :=
  match paint.ink with
  | .solid color => .ok [solidStroke text weight (color.withOpacity paint.opacity)]
  | .gradient g =>
      if text then .error .gradientTextStroke
      else match gradientValue g paint.opacity with
        | .ok value =>
            .ok [("border", px weight ++ " solid transparent"), ("border-image", value ++ " 1")]
        | .error problem => .error (.gradientStroke problem)
  | .image .. => .error .imageStroke
  | .unsupported tag => .error (.unsupportedStroke tag)

/-- The outline that the lowest of the visible strokes draws, if it has a width. -/
def lowestStroke (text : Bool) (weight : Float) (strokes : List Paint) :
    Except Problem (List Declaration) :=
  match strokes.filter (·.visible) with
  | [] => .ok []
  | first :: _ => if weight ≤ 0 then .ok [] else strokeOf text weight first

/-- The declarations of the strokes. -/
def stroke (text : Bool) (weight : Float) (strokes : List Paint) : List Declaration :=
  (success? (lowestStroke text weight strokes)).getD []

/-- What is wrong with the strokes: that there are several comes first. -/
def strokeProblems (text : Bool) (weight : Float) (strokes : List Paint) : List Problem :=
  (if 2 ≤ (strokes.filter (·.visible)).length then [.manyStrokes] else []) ++
    (failure? (lowestStroke text weight strokes)).toList

end SceneMarkup.Style
