/-
  SceneMarkup/Scene/Codec/Node.lean --- codecs of nodes and scene trees.
-/
import SceneMarkup.Scene.Codec.TextStyle

set_option autoImplicit false

namespace SceneMarkup.Codec

open Json (Value)

/-! ## Frames and shapes -/

/-- How a frame lays out its children. -/
def layoutMode : Codec LayoutMode := constant
  [(.none, "None"), (.horizontal, "Horizontal"), (.vertical, "Vertical")]

/-- Whether an axis of a frame has a size of its own. -/
def sizing : Codec Sizing := constant [(.fixed, "Fixed"), (.auto, "Auto")]

/-- How children are spread along the layout axis. -/
def mainAlign : Codec MainAlign := constant
  [(.min, "Min"), (.center, "Center"), (.max, "Max"), (.spaceBetween, "SpaceBetween")]

/-- How children are aligned across the layout axis. -/
def crossAlign : Codec CrossAlign := constant
  [(.min, "Min"), (.center, "Center"), (.max, "Max"), (.baseline, "Baseline")]

/-- The space between a frame and its children. -/
def padding : Codec Padding where
  encode p :=
    .object [("top", float.encode p.top), ("right", float.encode p.right),
      ("bottom", float.encode p.bottom), ("left", float.encode p.left)]
  decode v := do
    return ⟨← float.field v "top", ← float.field v "right", ← float.field v "bottom",
      ← float.field v "left"⟩

/-- A frame. -/
def frame : Codec Frame where
  encode f :=
    .object [("layout_mode", layoutMode.encode f.layoutMode),
      ("primary_sizing", sizing.encode f.mainSizing),
      ("counter_sizing", sizing.encode f.crossSizing),
      ("primary_align", mainAlign.encode f.mainAlign),
      ("counter_align", crossAlign.encode f.crossAlign), ("padding", padding.encode f.padding),
      ("item_spacing", float.encode f.itemSpacing),
      ("corner_radius", cornerRadius.encode f.cornerRadius),
      ("clips_content", .bool f.clipsContent)]
  decode v := do
    return {
      layoutMode := ← layoutMode.field v "layout_mode"
      mainSizing := ← sizing.field v "primary_sizing"
      crossSizing := ← sizing.field v "counter_sizing"
      mainAlign := ← mainAlign.field v "primary_align"
      crossAlign := ← crossAlign.field v "counter_align"
      padding := ← padding.field v "padding"
      itemSpacing := ← float.field v "item_spacing"
      cornerRadius := ← cornerRadius.field v "corner_radius"
      clipsContent := ← bool.field v "clips_content" }

/-- The family of a shape. -/
def shapeKind : Codec ShapeKind := constant
  [(.vector, "Vector"), (.rectangle, "Rectangle"), (.ellipse, "Ellipse"), (.line, "Line"),
    (.star, "Star"), (.polygon, "Polygon"), (.booleanOperation, "BooleanOperation")]

/-- A shape. -/
def shape : Codec Shape where
  encode s :=
    .object [("shape", shapeKind.encode s.kind),
      ("corner_radius", cornerRadius.encode s.cornerRadius)]
  decode v := do return ⟨← shapeKind.field v "shape", ← cornerRadius.field v "corner_radius"⟩

/-! ## Nodes -/

/-- What a node is. -/
def nodeKind : Codec NodeKind where
  encode
    | .frame f => case "Frame" (frame.encode f)
    | .instanceOf id f =>
        case "Instance" (.object [("component_id", .ofText? id), ("frame", frame.encode f)])
    | .text t => case "Text" (textBlock.encode t)
    | .shape s => case "Shape" (shape.encode s)
    | .placeholder tag => case "Placeholder" (.object [("type_tag", .string tag)])
  decode v := do
    match ← case? v with
    | ("Frame", content) => return .frame (← frame.decode content)
    | ("Instance", content) =>
        return .instanceOf (← string.fieldOrNone content "component_id")
          (← frame.field content "frame")
    | ("Text", content) => return .text (← textBlock.decode content)
    | ("Shape", content) => return .shape (← shape.decode content)
    | ("Placeholder", content) => return .placeholder (← string.field content "type_tag")
    | _ => none

/-- The fields of a node, apart from its children. -/
def layerFields (l : Layer) : Json.Fields :=
  [("id", .string l.id), ("name", .string l.name), ("bounds", rect.encode l.bounds),
    ("opacity", float.encode l.opacity), ("visible", .bool l.visible),
    ("blend_mode", blendMode.encode l.blendMode), ("fills", paint.list.encode l.fills),
    ("strokes", paint.list.encode l.strokes), ("stroke_weight", float.encode l.strokeWeight),
    ("effects", effect.list.encode l.effects), ("layout_grow", float.encode l.layoutGrow),
    ("kind", nodeKind.encode l.kind)]

/-- What a node holds, apart from its children. -/
def layer? (v : Value) : Option Layer := do
  return {
    id := ← string.field v "id"
    name := ← string.field v "name"
    bounds := ← rect.field v "bounds"
    opacity := ← float.field v "opacity"
    visible := ← bool.field v "visible"
    blendMode := ← blendMode.field v "blend_mode"
    fills := ← paint.list.field v "fills"
    strokes := ← paint.list.field v "strokes"
    strokeWeight := ← float.field v "stroke_weight"
    effects := ← effect.list.field v "effects"
    layoutGrow := ← float.field v "layout_grow"
    kind := ← nodeKind.field v "kind" }

mutual

/-- A node as JSON. -/
def encodeNode : Node → Value
  | ⟨layer, children⟩ =>
      .object (layerFields layer ++ [("children", .array (encodeNodes children))])

/-- Some nodes as JSON. -/
def encodeNodes : List Node → List Value
  | [] => []
  | node :: rest => encodeNode node :: encodeNodes rest

end

/-- A node that is at most `depth` levels deep. -/
def decodeNode : Nat → Value → Option Node
  | 0, _ => none
  | depth + 1, v => do
      match ← v.field? "children" with
      | .array items => return ⟨← layer? v, ← items.mapM (decodeNode depth)⟩
      | _ => none

mutual

/-- How deep the lists and objects of a value are nested. -/
def nesting : Value → Nat
  | .array items => nestingOfItems items + 1
  | .object fields => nestingOfFields fields + 1
  | _ => 0

/-- How deep the deepest of some values is nested. -/
def nestingOfItems : List Value → Nat
  | [] => 0
  | v :: rest => max (nesting v) (nestingOfItems rest)

/-- How deep the deepest value of some fields is nested. -/
def nestingOfFields : List (String × Value) → Nat
  | [] => 0
  | (_, v) :: rest => max (nesting v) (nestingOfFields rest)

end

/-- A node. -/
def node : Codec Node := ⟨encodeNode, fun v => decodeNode (nesting v) v⟩

/-- A scene tree; its name may be absent. -/
def sceneTree : Codec SceneTree where
  encode tree :=
    .object [("name", .ofText? tree.name), ("roots", .array (encodeNodes tree.roots))]
  decode v := do return ⟨← string.fieldOrNone v "name", ← node.list.field v "roots"⟩

end SceneMarkup.Codec
