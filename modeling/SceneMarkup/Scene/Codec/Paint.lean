/-
  SceneMarkup/Scene/Codec/Paint.lean --- codecs of boxes, colors, paints and effects.
-/
import SceneMarkup.Scene.Codec.Basic
import SceneMarkup.Scene.Node

set_option autoImplicit false

namespace SceneMarkup.Codec

/-! ## Points, boxes and colors -/

/-- A point as a list of two numbers. -/
def point : Codec Point where
  encode p := .array [float.encode p.x, float.encode p.y]
  decode v := do
    match ← (list float).decode v with
    | [x, y] => some ⟨x, y⟩
    | _ => none

/-- A box. -/
def rect : Codec Rect where
  encode r :=
    .object [("x", float.encode r.x), ("y", float.encode r.y), ("width", float.encode r.width),
      ("height", float.encode r.height)]
  decode v := do
    return ⟨← float.field v "x", ← float.field v "y", ← float.field v "width",
      ← float.field v "height"⟩

/-- A color. -/
def color : Codec Color where
  encode c :=
    .object [("r", float.encode c.r), ("g", float.encode c.g), ("b", float.encode c.b),
      ("a", float.encode c.a)]
  decode v := do
    return ⟨← float.field v "r", ← float.field v "g", ← float.field v "b", ← float.field v "a"⟩

/-- The radius of corners. -/
def cornerRadius : Codec CornerRadius where
  encode
    | .uniform r => case "Uniform" (float.encode r)
    | .perCorner a b c d => case "PerCorner" ((list float).encode [a, b, c, d])
  decode v := do
    match ← case? v with
    | ("Uniform", content) => return .uniform (← float.decode content)
    | ("PerCorner", content) =>
        match ← (list float).decode content with
        | [a, b, c, d] => some (.perCorner a b c d)
        | _ => none
    | _ => none

/-! ## Paints -/

/-- The mode in which a node is mixed with what lies below it. -/
def blendMode : Codec BlendMode := constant
  [(.passThrough, "PassThrough"), (.normal, "Normal"), (.darken, "Darken"),
    (.multiply, "Multiply"), (.linearBurn, "LinearBurn"), (.colorBurn, "ColorBurn"),
    (.lighten, "Lighten"), (.screen, "Screen"), (.linearDodge, "LinearDodge"),
    (.colorDodge, "ColorDodge"), (.overlay, "Overlay"), (.softLight, "SoftLight"),
    (.hardLight, "HardLight"), (.difference, "Difference"), (.exclusion, "Exclusion"),
    (.hue, "Hue"), (.saturation, "Saturation"), (.color, "Color"), (.luminosity, "Luminosity")]

/-- The geometry of a gradient. -/
def gradientKind : Codec GradientKind := constant
  [(.linear, "Linear"), (.radial, "Radial"), (.angular, "Angular"), (.diamond, "Diamond")]

/-- A color at a position along a gradient. -/
def gradientStop : Codec GradientStop where
  encode s := .object [("position", float.encode s.position), ("color", color.encode s.color)]
  decode v := do return ⟨← float.field v "position", ← color.field v "color"⟩

/-- A gradient. -/
def gradient : Codec Gradient where
  encode g :=
    .object [("kind", gradientKind.encode g.kind), ("stops", gradientStop.list.encode g.stops),
      ("handles", point.list.encode g.handles)]
  decode v := do
    return ⟨← gradientKind.field v "kind", ← gradientStop.list.field v "stops",
      ← point.list.field v "handles"⟩

/-- How an image is fitted into its box. -/
def scaleMode : Codec ScaleMode := constant
  [(.fill, "Fill"), (.fit, "Fit"), (.crop, "Crop"), (.tile, "Tile")]

/-- What a paint draws. -/
def ink : Codec Ink where
  encode
    | .solid c => case "Solid" (color.encode c)
    | .gradient g => case "Gradient" (gradient.encode g)
    | .image reference mode =>
        case "Image"
          (.object [("reference", .string reference), ("scale_mode", scaleMode.encode mode)])
    | .unsupported tag => case "Unsupported" (.string tag)
  decode v := do
    match ← case? v with
    | ("Solid", content) => return .solid (← color.decode content)
    | ("Gradient", content) => return .gradient (← gradient.decode content)
    | ("Image", content) =>
        return .image (← string.field content "reference") (← scaleMode.field content "scale_mode")
    | ("Unsupported", content) => return .unsupported (← content.text?)
    | _ => none

/-- A paint. -/
def paint : Codec Paint where
  encode p :=
    .object [("kind", ink.encode p.ink), ("opacity", float.encode p.opacity),
      ("visible", .bool p.visible)]
  decode v := do
    return ⟨← ink.field v "kind", ← float.field v "opacity", ← bool.field v "visible"⟩

/-! ## Effects -/

/-- A shadow. -/
def shadow : Codec Shadow where
  encode s :=
    .object [("color", color.encode s.color), ("offset", point.encode s.offset),
      ("radius", float.encode s.radius), ("spread", float.encode s.spread)]
  decode v := do
    return ⟨← color.field v "color", ← point.field v "offset", ← float.field v "radius",
      ← float.field v "spread"⟩

/-- What an effect does. -/
def effectKind : Codec EffectKind where
  encode
    | .dropShadow s => case "DropShadow" (shadow.encode s)
    | .innerShadow s => case "InnerShadow" (shadow.encode s)
    | .layerBlur r => case "LayerBlur" (.object [("radius", float.encode r)])
    | .backgroundBlur r => case "BackgroundBlur" (.object [("radius", float.encode r)])
    | .unsupported tag => case "Unsupported" (.string tag)
  decode v := do
    match ← case? v with
    | ("DropShadow", content) => return .dropShadow (← shadow.decode content)
    | ("InnerShadow", content) => return .innerShadow (← shadow.decode content)
    | ("LayerBlur", content) => return .layerBlur (← float.field content "radius")
    | ("BackgroundBlur", content) => return .backgroundBlur (← float.field content "radius")
    | ("Unsupported", content) => return .unsupported (← content.text?)
    | _ => none

/-- An effect. -/
def effect : Codec Effect where
  encode e := .object [("kind", effectKind.encode e.kind), ("visible", .bool e.visible)]
  decode v := do return ⟨← effectKind.field v "kind", ← bool.field v "visible"⟩

end SceneMarkup.Codec
