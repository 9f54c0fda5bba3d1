/-
  SceneMarkup/Document/Source.lean --- the data of a node as a document states it.

  WHAT THIS FILE IS FOR.  What a document may leave out stays optional here; defaults
  and keywords are settled when a layer is built.
-/
import SceneMarkup.Json.Decode
import SceneMarkup.Scene.Node

set_option autoImplicit false

namespace SceneMarkup.Document

open Json (Decoder Schema Value defaulted nullable required)

/-! ## Boxes, colors and points -/

/-- A box. -/
def rectSchema : Schema Rect where
  name := "RawRect"
  fields :=
    [required "x" Json.float fun v r => { r with x := v },
      required "y" Json.float fun v r => { r with y := v },
      required "width" Json.float fun v r => { r with width := v },
      required "height" Json.float fun v r => { r with height := v }]
  start := .zero

/-- A color; without an alpha it is opaque. -/
def colorSchema : Schema Color where
  name := "RawColor"
  fields :=
    [required "r" Json.float fun v c => { c with r := v },
      required "g" Json.float fun v c => { c with g := v },
      required "b" Json.float fun v c => { c with b := v },
      nullable "a" Json.float fun v c => { c with a := v.getD 1 }]
  start := .black

/-- A point. -/
def pointSchema : Schema Point where
  name := "RawVector"
  fields :=
    [required "x" Json.float fun v p => { p with x := v },
      required "y" Json.float fun v p => { p with y := v }]
  start := .zero

/-- A stop of a gradient. -/
def stopSchema : Schema GradientStop where
  name := "RawColorStop"
  fields :=
    [required "position" Json.float fun v s => { s with position := v },
      required "color" colorSchema.decode fun v s => { s with color := v }]
  start := ⟨0, .black⟩

/-! ## Paints and effects -/

/-- A paint as a document states it. -/
structure PaintSource where
  type : String
  visible : Option Bool
  opacity : Option Float
  color : Option Color
  stops : List GradientStop
  handles : List Point
  imageRef : Option String
  scaleMode : Option String
  deriving Repr, Inhabited

/-- A paint. -/
def paintSchema : Schema PaintSource where
  name := "RawPaint"
  fields :=
    [required "type" Json.string fun v p => { p with type := v },
      nullable "visible" Json.bool fun v p => { p with visible := v },
      nullable "opacity" Json.float fun v p => { p with opacity := v },
      nullable "color" colorSchema.decode fun v p => { p with color := v },
      defaulted "gradientStops" (Json.list stopSchema.decode) fun v p => { p with stops := v },
      defaulted "gradientHandlePositions" (Json.list pointSchema.decode) fun v p =>
        { p with handles := v },
      nullable "imageRef" Json.string fun v p => { p with imageRef := v },
      nullable "scaleMode" Json.string fun v p => { p with scaleMode := v }]
  start := ⟨"", none, none, none, [], [], none, none⟩

/-- An effect as a document states it. -/
structure EffectSource where
  type : String
  visible : Option Bool
  radius : Option Float
  color : Option Color
  offset : Option Point
  spread : Option Float
  deriving Repr, Inhabited

/-- An effect. -/
def effectSchema : Schema EffectSource where
  name := "RawEffect"
  fields :=
    [required "type" Json.string fun v e => { e with type := v },
      nullable "visible" Json.bool fun v e => { e with visible := v },
      nullable "radius" Json.float fun v e => { e with radius := v },
      nullable "color" colorSchema.decode fun v e => { e with color := v },
      nullable "offset" pointSchema.decode fun v e => { e with offset := v },
      nullable "spread" Json.float fun v e => { e with spread := v }]
  start := ⟨"", none, none, none, none, none⟩

/-! ## Text -/

/-- A text style as a document states it. -/
structure StyleSource where
  fontFamily : Option String
  fontWeight : Option Float
  fontSize : Option Float
  italic : Option Bool
  letterSpacing : Option Float
  lineHeightPx : Option Float
  lineHeightPercent : Option Float
  lineHeightUnit : Option String
  alignHorizontal : Option String
  alignVertical : Option String
  case : Option String
  decoration : Option String
  fills : Option (List PaintSource)
  deriving Repr, Inhabited

/-- A text style. -/
def styleSchema : Schema StyleSource where
  name := "RawTextStyle"
  fields :=
    [nullable "fontFamily" Json.string fun v s => { s with fontFamily := v },
      nullable "fontWeight" Json.float fun v s => { s with fontWeight := v },
      nullable "fontSize" Json.float fun v s => { s with fontSize := v },
      nullable "italic" Json.bool fun v s => { s with italic := v },
      nullable "letterSpacing" Json.float fun v s => { s with letterSpacing := v },
      nullable "lineHeightPx" Json.float fun v s => { s with lineHeightPx := v },
      nullable "lineHeightPercentFontSize" Json.float fun v s => { s with lineHeightPercent := v },
      nullable "lineHeightUnit" Json.string fun v s => { s with lineHeightUnit := v },
      nullable "textAlignHorizontal" Json.string fun v s => { s with alignHorizontal := v },
      nullable "textAlignVertical" Json.string fun v s => { s with alignVertical := v },
      nullable "textCase" Json.string fun v s => { s with case := v },
      nullable "textDecoration" Json.string fun v s => { s with decoration := v },
      nullable "fills" (Json.list paintSchema.decode) fun v s => { s with fills := v }]
  start :=
    ⟨none, none, none, none, none, none, none, none, none, none, none, none, none⟩

/-- A style for a range of characters. -/
def rangeSchema : Schema StyleRange where
  name := "RawStyleRange"
  fields :=
    [required "start" (Json.natural 64 "usize") fun v r => { r with start := v },
      required "end" (Json.natural 64 "usize") fun v r => { r with stop := v },
      required "styleId" (Json.natural 32 "u32") fun v r => { r with styleId := v }]
  start := ⟨0, 0, 0⟩

/-! ## Nodes -/

/-- A corner radius as a document states it: one number, or a list of numbers. -/
inductive RadiusSource where
  | uniform (radius : Float)
  | list (radii : List Float)
  deriving Repr, Inhabited

/-- Reads a corner radius. -/
def radius : Decoder RadiusSource := fun v =>
  match Json.float v with
  | .ok r => .ok (.uniform r)
  | .error _ =>
      match Json.list Json.float v with
      | .ok rs => .ok (.list rs)
      | .error _ => .error (.noVariant "RawCornerRadius")

/-- The fields of a node as a document states them, apart from its id, type and children. -/
structure NodeSource where
  name : String
  visible : Option Bool
  opacity : Option Float
  blendMode : Option String
  bounds : Option Rect
  fills : List PaintSource
  strokes : List PaintSource
  strokeWeight : Option Float
  effects : List EffectSource
  layoutGrow : Option Float
  layoutMode : Option String
  mainSizing : Option String
  crossSizing : Option String
  mainAlign : Option String
  crossAlign : Option String
  padding : Option Float
  paddingTop : Option Float
  paddingRight : Option Float
  paddingBottom : Option Float
  paddingLeft : Option Float
  itemSpacing : Option Float
  cornerRadius : Option RadiusSource
  cornerRadii : Option (List Float)
  clipsContent : Option Bool
  componentId : Option String
  characters : Option String
  style : Option StyleSource
  characterStyles : List Nat
  overrides : List (String × StyleSource)
  ranges : List StyleRange
  deriving Repr, Inhabited

/-- The node without fields. -/
def NodeSource.empty : NodeSource :=
  ⟨"", none, none, none, none, [], [], none, [], none, none, none, none, none, none, none, none,
    none, none, none, none, none, none, none, none, none, none, [], [], []⟩

/-- A node. -/
def nodeSchema : Schema NodeSource where
  name := "RawNode"
  fields :=
    [defaulted "name" Json.string fun v n => { n with name := v },
      nullable "visible" Json.bool fun v n => { n with visible := v },
      nullable "opacity" Json.float fun v n => { n with opacity := v },
      nullable "blendMode" Json.string fun v n => { n with blendMode := v },
      nullable "absoluteBoundingBox" rectSchema.decode fun v n => { n with bounds := v },
      defaulted "fills" (Json.list paintSchema.decode) fun v n => { n with fills := v },
      defaulted "strokes" (Json.list paintSchema.decode) fun v n => { n with strokes := v },
      nullable "strokeWeight" Json.float fun v n => { n with strokeWeight := v },
      defaulted "effects" (Json.list effectSchema.decode) fun v n => { n with effects := v },
      nullable "layoutGrow" Json.float fun v n => { n with layoutGrow := v },
      nullable "layoutMode" Json.string fun v n => { n with layoutMode := v },
      nullable "primaryAxisSizingMode" Json.string fun v n => { n with mainSizing := v },
      nullable "counterAxisSizingMode" Json.string fun v n => { n with crossSizing := v },
      nullable "primaryAxisAlignItems" Json.string fun v n => { n with mainAlign := v },
      nullable "counterAxisAlignItems" Json.string fun v n => { n with crossAlign := v },
      nullable "padding" Json.float fun v n => { n with padding := v },
      nullable "paddingTop" Json.float fun v n => { n with paddingTop := v },
      nullable "paddingRight" Json.float fun v n => { n with paddingRight := v },
      nullable "paddingBottom" Json.float fun v n => { n with paddingBottom := v },
      nullable "paddingLeft" Json.float fun v n => { n with paddingLeft := v },
      nullable "itemSpacing" Json.float fun v n => { n with itemSpacing := v },
      nullable "cornerRadius" radius fun v n => { n with cornerRadius := v },
      nullable "rectangleCornerRadii" (Json.list Json.float) fun v n => { n with cornerRadii := v },
      nullable "clipsContent" Json.bool fun v n => { n with clipsContent := v },
      nullable "componentId" Json.string fun v n => { n with componentId := v },
      nullable "characters" Json.string fun v n => { n with characters := v },
      nullable "style" styleSchema.decode fun v n => { n with style := v },
      defaulted "characterStyleOverrides" (Json.list (Json.natural 32 "u32")) fun v n =>
        { n with characterStyles := v },
      defaulted "styleOverrideTable" (Json.mapping styleSchema.decode) fun v n =>
        { n with overrides := v },
      defaulted "styleOverrideRanges" (Json.list rangeSchema.decode) fun v n =>
        { n with ranges := v }]
  start := .empty

end SceneMarkup.Document
