/-
  SceneMarkup/Style/Box.lean --- placing and sizing a node, and laying out the
  children of a frame.
-/
import SceneMarkup.Style.Record
import SceneMarkup.Style.Value
import SceneMarkup.Walk

set_option autoImplicit false

namespace SceneMarkup.Style

/-- A declaration that is there under a condition. -/
def declareIf (condition : Bool) (property value : String) : List Declaration :=
  if condition then [(property, value)] else []

/-- A declaration of a value that may be missing. -/
def declareSome (property : String) : Option String → List Declaration
  | some value => [(property, value)]
  | none => []

/-! ## Geometry -/

/-- Whether the width has a size of its own. -/
def hasFixedWidth (kind : NodeKind) : Bool :=
  match kind.frame? with
  | some frame => frame.horizontalSizing == .fixed
  | none => true

/-- Whether the height has a size of its own. -/
def hasFixedHeight (kind : NodeKind) : Bool :=
  match kind.frame? with
  | some frame => frame.verticalSizing == .fixed
  | none => true

/-- The sizes that a node has of its own. -/
def fixedSize (layer : Layer) : List Declaration :=
  declareIf (hasFixedWidth layer.kind) "width" (px layer.bounds.width) ++
    declareIf (hasFixedHeight layer.kind) "height" (px layer.bounds.height)

/-- Whether a node is a frame that places its children at offsets. -/
def placesAbsolutely (kind : NodeKind) : Bool :=
  match kind.frame? with
  | some frame => frame.layoutMode == .none
  | none => false

/-- Whether a node is a text. -/
def isText (kind : NodeKind) : Bool := kind.text?.isSome

/-- How much of the free space a laid out node takes. -/
def growth (layer : Layer) : Declaration :=
  if layer.layoutGrow > 0 then ("flex-grow", Decimal.numberText layer.layoutGrow)
  else ("flex-shrink", "0")

/-- Position and size. A laid out text takes the size of its content; a laid out frame whose
children are at offsets is what these offsets refer to. -/
def geometry (entry : Entry) : List Declaration :=
  let layer := entry.layer
  match entry.placement with
  | .root => ("position", "relative") :: fixedSize layer
  | .flow _ =>
      growth layer :: (if isText layer.kind then [] else fixedSize layer) ++
        declareIf (placesAbsolutely layer.kind && !entry.node.children.isEmpty)
          "position" "relative"
  | .absolute offset =>
      [("position", "absolute"), ("left", px offset.x), ("top", px offset.y),
        ("width", px layer.bounds.width), ("height", px layer.bounds.height)]

/-! ## Containers -/

/-- The keyword for spreading children. -/
def justifyContent? : MainAlign → Option String
  | .min => none
  | .center => some "center"
  | .max => some "flex-end"
  | .spaceBetween => some "space-between"

/-- The keyword for aligning children. -/
def alignItems? : CrossAlign → Option String
  | .min => none
  | .center => some "center"
  | .max => some "flex-end"
  | .baseline => some "baseline"

/-- How a frame lays out its children. -/
def layout (frame : Frame) : List Declaration :=
  match FlowDirection.ofLayoutMode? frame.layoutMode with
  | none => []
  | some direction =>
      [("display", "flex"), ("flex-direction", direction.keyword)] ++
        declareIf (frame.itemSpacing != 0) "gap" (px frame.itemSpacing) ++
        declareIf (!frame.padding.isZero) "padding" (padding frame.padding) ++
        declareSome "justify-content" (justifyContent? frame.mainAlign) ++
        declareSome "align-items" (alignItems? frame.crossAlign)

/-- What a frame does with its children. -/
def container (kind : NodeKind) : List Declaration :=
  match kind.frame? with
  | none => []
  | some frame => layout frame ++ declareIf frame.clipsContent "overflow" "hidden"

/-! ## Corners -/

/-- The radius of corners that are rounded. -/
def roundedCorners (corners : CornerRadius) : List Declaration :=
  declareIf (!corners.isZero) "border-radius" (radius corners)

/-- The corners of a node; an ellipse is a box whose corners are all rounding. -/
def corners : NodeKind → List Declaration
  | .frame frame => roundedCorners frame.cornerRadius
  | .instanceOf _ frame => roundedCorners frame.cornerRadius
  | .shape shape =>
      if shape.kind == .ellipse then [("border-radius", "50%")]
      else roundedCorners shape.cornerRadius
  | .text _ => []
  | .placeholder _ => []

end SceneMarkup.Style
