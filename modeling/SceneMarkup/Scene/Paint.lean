/-
  SceneMarkup/Scene/Paint.lean --- what fills and outlines a node: solid colors,
  gradients, images, and effects such as shadows.
-/
import SceneMarkup.Scene.Color

set_option autoImplicit false

namespace SceneMarkup

/-- A point or an offset. -/
structure Point where
  x : Float
  y : Float
  deriving Repr, Inhabited

namespace Point

/-- The origin. -/
def zero : Point := ⟨0, 0⟩

/-- The offset from `q` to `p`. -/
def sub (p q : Point) : Point := ⟨p.x - q.x, p.y - q.y⟩

end Point

/-! ## Blend modes -/

/-- How a node is mixed with what lies below it. -/
inductive BlendMode where
  | passThrough
  | normal
  | darken
  | multiply
  | linearBurn
  | colorBurn
  | lighten
  | screen
  | linearDodge
  | colorDodge
  | overlay
  | softLight
  | hardLight
  | difference
  | exclusion
  | hue
  | saturation
  | color
  | luminosity
  deriving DecidableEq, Repr, Inhabited

namespace BlendMode

/-- The mode that a document calls `tag`. -/
def ofTag? (tag : String) : Option BlendMode :=
  match tag with
  | "PASS_THROUGH" => some .passThrough
  | "NORMAL" => some .normal
  | "DARKEN" => some .darken
  | "MULTIPLY" => some .multiply
  | "LINEAR_BURN" => some .linearBurn
  | "COLOR_BURN" => some .colorBurn
  | "LIGHTEN" => some .lighten
  | "SCREEN" => some .screen
  | "LINEAR_DODGE" => some .linearDodge
  | "COLOR_DODGE" => some .colorDodge
  | "OVERLAY" => some .overlay
  | "SOFT_LIGHT" => some .softLight
  | "HARD_LIGHT" => some .hardLight
  | "DIFFERENCE" => some .difference
  | "EXCLUSION" => some .exclusion
  | "HUE" => some .hue
  | "SATURATION" => some .saturation
  | "COLOR" => some .color
  | "LUMINOSITY" => some .luminosity
  | _ => none

/-- The style keyword of a mode, unless it needs no declaration. Linear burn and dodge have no
keyword of their own and take their nearest relative's. -/
def keyword? : BlendMode → Option String
  | .passThrough => none
  | .normal => none
  | .darken => some "darken"
  | .multiply => some "multiply"
  | .linearBurn => some "color-burn"
  | .colorBurn => some "color-burn"
  | .lighten => some "lighten"
  | .screen => some "screen"
  | .linearDodge => some "color-dodge"
  | .colorDodge => some "color-dodge"
  | .overlay => some "overlay"
  | .softLight => some "soft-light"
  | .hardLight => some "hard-light"
  | .difference => some "difference"
  | .exclusion => some "exclusion"
  | .hue => some "hue"
  | .saturation => some "saturation"
  | .color => some "color"
  | .luminosity => some "luminosity"

end BlendMode

/-! ## Gradients -/

/-- A color at a position along a gradient. -/
structure GradientStop where
  position : Float
  color : Color
  deriving Repr, Inhabited

/-- The geometry of a gradient. -/
inductive GradientKind where
  | linear
  | radial
  | angular
  | diamond
  deriving DecidableEq, Repr, Inhabited

/-- A gradient: its stops in document order, and its handles in the unit square of the node, with
`y` pointing down. -/
structure Gradient where
  kind : GradientKind
  stops : List GradientStop
  handles : List Point
  deriving Repr, Inhabited

/-- Whether no number of the list is followed by one that it does not precede or equal. -/
def nonDecreasing : List Float → Bool
  | a :: b :: rest => decide (a ≤ b) && nonDecreasing (b :: rest)
  | _ => true

/-- Whether the positions of the stops never decrease. -/
def Gradient.isMonotone (g : Gradient) : Bool := nonDecreasing (g.stops.map (·.position))

/-! ## Paints -/

/-- How an image is fitted into its box. -/
inductive ScaleMode where
  | fill
  | fit
  | crop
  | tile
  deriving DecidableEq, Repr, Inhabited

/-- The scale mode that a document calls `tag`. -/
def ScaleMode.ofTag? (tag : String) : Option ScaleMode :=
  match tag with
  | "FILL" => some .fill
  | "FIT" => some .fit
  | "CROP" => some .crop
  | "TILE" => some .tile
  | _ => none

/-- What a paint draws. -/
inductive Ink where
  | solid (color : Color)
  | gradient (gradient : Gradient)
  | image (reference : String) (scaleMode : ScaleMode)
  /-- a paint that has no style -/
  | unsupported (tag : String)
  deriving Repr, Inhabited

/-- One of the paints of a node, which are listed from the bottom to the top. -/
structure Paint where
  ink : Ink
  opacity : Float
  visible : Bool
  deriving Repr, Inhabited

namespace Paint

/-- The visible, opaque paint of one color. -/
def solid (color : Color) : Paint := ⟨.solid color, 1, true⟩

/-- `p` with another opacity. -/
def withOpacity (p : Paint) (opacity : Float) : Paint := { p with opacity }

/-- The color of a solid paint, its opacity included. -/
def solidColor? (p : Paint) : Option Color :=
  match p.ink with
  | .solid color => some (color.withOpacity p.opacity)
  | _ => none

/-- Whether `p` is of one color. -/
def isSolid (p : Paint) : Bool := p.solidColor?.isSome

/-- The solid paints laid over each other. -/
def compositeSolids (paints : List Paint) : Color := .composite (paints.filterMap solidColor?)

end Paint

/-! ## Effects -/

/-- A shadow. -/
structure Shadow where
  color : Color
  offset : Point
  radius : Float
  spread : Float
  deriving Repr, Inhabited

/-- What an effect does. -/
inductive EffectKind where
  | dropShadow (shadow : Shadow)
  | innerShadow (shadow : Shadow)
  | layerBlur (radius : Float)
  | backgroundBlur (radius : Float)
  /-- an effect that has no style -/
  | unsupported (tag : String)
  deriving Repr, Inhabited

/-- One of the effects of a node, in document order. -/
structure Effect where
  kind : EffectKind
  visible : Bool
  deriving Repr, Inhabited

end SceneMarkup
