/-
  SceneMarkup/Scene/Node.lean --- scene nodes and scene trees.

  WHAT THIS FILE IS FOR.  A node is a layer, which holds all of the node's own data,
  and a list of children.  Searching and counting are recursion on that tree.
-/
import SceneMarkup.Scene.TextStyle

set_option autoImplicit false

namespace SceneMarkup

/-! ## Boxes and frames -/

/-- A box in the coordinates of the document. -/
structure Rect where
  x : Float
  y : Float
  width : Float
  height : Float
  deriving Repr, Inhabited

namespace Rect

/-- The empty box at the origin. -/
def zero : Rect := ⟨0, 0, 0, 0⟩

/-- The top left corner. -/
def origin (r : Rect) : Point := ⟨r.x, r.y⟩

/-- Width and height. -/
def size (r : Rect) : Point := ⟨r.width, r.height⟩

/-- Where `r` begins, seen from where `outer` begins. -/
def offsetFrom (r outer : Rect) : Point := r.origin.sub outer.origin

end Rect

/-- The radius of the corners of a box. -/
inductive CornerRadius where
  | uniform (radius : Float)
  /-- clockwise from the top left -/
  | perCorner (topLeft topRight bottomRight bottomLeft : Float)
  deriving Repr, Inhabited

/-- Whether no corner is rounded. -/
def CornerRadius.isZero : CornerRadius → Bool
  | .uniform r => r == 0
  | .perCorner a b c d => a == 0 && b == 0 && c == 0 && d == 0

/-- How a frame lays out its children. -/
inductive LayoutMode where
  | none
  | horizontal
  | vertical
  deriving DecidableEq, Repr, Inhabited

/-- Whether an axis of a frame has a size of its own. -/
inductive Sizing where
  | fixed
  | auto
  deriving DecidableEq, Repr, Inhabited

/-- How children are spread along the layout axis. -/
inductive MainAlign where
  | min
  | center
  | max
  | spaceBetween
  deriving DecidableEq, Repr, Inhabited

/-- How children are aligned across the layout axis. -/
inductive CrossAlign where
  | min
  | center
  | max
  | baseline
  deriving DecidableEq, Repr, Inhabited

/-- The space between a frame and its children. -/
structure Padding where
  top : Float
  right : Float
  bottom : Float
  left : Float
  deriving Repr, Inhabited

namespace Padding

/-- The same space on all sides. -/
def uniform (value : Float) : Padding := ⟨value, value, value, value⟩

/-- Whether all sides have the same space. -/
def isUniform (p : Padding) : Bool := p.top == p.right && p.right == p.bottom && p.bottom == p.left

/-- Whether no side has space. -/
def isZero (p : Padding) : Bool := p.isUniform && p.top == 0

end Padding

/-- How a container lays out and clips its children. -/
structure Frame where
  layoutMode : LayoutMode
  mainSizing : Sizing
  crossSizing : Sizing
  mainAlign : MainAlign
  crossAlign : CrossAlign
  padding : Padding
  itemSpacing : Float
  cornerRadius : CornerRadius
  clipsContent : Bool
  deriving Repr, Inhabited

namespace Frame

/-- The frame that lays out nothing. -/
def plain : Frame :=
  ⟨.none, .fixed, .fixed, .min, .min, .uniform 0, 0, .uniform 0, false⟩

/-- The sizing from left to right. -/
def horizontalSizing (frame : Frame) : Sizing :=
  match frame.layoutMode with
  | .none => .fixed
  | .horizontal => frame.mainSizing
  | .vertical => frame.crossSizing

/-- The sizing from top to bottom. -/
def verticalSizing (frame : Frame) : Sizing :=
  match frame.layoutMode with
  | .none => .fixed
  | .horizontal => frame.crossSizing
  | .vertical => frame.mainSizing

end Frame

/-! ## Shapes -/

/-- The family of a shape; its outline is not kept. -/
inductive ShapeKind where
  | vector
  | rectangle
  | ellipse
  | line
  | star
  | polygon
  | booleanOperation
  deriving DecidableEq, Repr, Inhabited

namespace ShapeKind

/-- The shape that a document calls `tag`. -/
def ofTag? (tag : String) : Option ShapeKind :=
  match tag with
  | "VECTOR" => some .vector
  | "RECTANGLE" => some .rectangle
  | "ELLIPSE" => some .ellipse
  | "LINE" => some .line
  | "STAR" => some .star
  | "POLYGON" => some .polygon
  | "REGULAR_POLYGON" => some .polygon
  | "BOOLEAN_OPERATION" => some .booleanOperation
  | _ => none

/-- The name of a shape in markup. -/
def name : ShapeKind → String
  | .vector => "vector"
  | .rectangle => "rectangle"
  | .ellipse => "ellipse"
  | .line => "line"
  | .star => "star"
  | .polygon => "polygon"
  | .booleanOperation => "boolean-operation"

end ShapeKind

/-- A shape. -/
structure Shape where
  kind : ShapeKind
  cornerRadius : CornerRadius
  deriving Repr, Inhabited

/-! ## Nodes -/

/-- What a node is. -/
inductive NodeKind where
  | frame (frame : Frame)
  /-- a frame that is a copy of a component -/
  | instanceOf (componentId : Option String) (frame : Frame)
  | text (text : TextBlock)
  | shape (shape : Shape)
  /-- a node of an unknown type, shown as an empty box -/
  | placeholder (typeTag : String)
  deriving Repr, Inhabited

namespace NodeKind

/-- The name of a kind, which also names nodes that have no usable name. -/
def label : NodeKind → String
  | .frame _ => "frame"
  | .instanceOf .. => "instance"
  | .text _ => "text"
  | .shape _ => "shape"
  | .placeholder _ => "placeholder"

/-- The frame of a frame or an instance. -/
def frame? : NodeKind → Option Frame
  | .frame f => some f
  | .instanceOf _ f => some f
  | _ => none

/-- The text of a text. -/
def text? : NodeKind → Option TextBlock
  | .text t => some t
  | _ => none

end NodeKind

/-- All that a node holds, apart from its children. -/
structure Layer where
  id : String
  name : String
  bounds : Rect
  opacity : Float
  visible : Bool
  blendMode : BlendMode
  fills : List Paint
  strokes : List Paint
  strokeWeight : Float
  effects : List Effect
  /-- the share of free space that the node takes in a laid out frame -/
  layoutGrow : Float
  kind : NodeKind
  deriving Repr, Inhabited

/-- The layer with an id and a kind, and nothing else. -/
def Layer.ofKind (id : String) (kind : NodeKind) : Layer :=
  ⟨id, "", .zero, 1, true, .passThrough, [], [], 1, [], 0, kind⟩

/-- A node of a scene. -/
structure Node where
  layer : Layer
  children : List Node
  deriving Repr, Inhabited

/-- The id of a node. -/
abbrev Node.id (node : Node) : String := node.layer.id

mutual

/-- The first node with an id, a node coming before its children. -/
def Node.find? (id : String) : Node → Option Node
  | ⟨layer, children⟩ =>
      if layer.id = id then some ⟨layer, children⟩ else findIn? id children

/-- The first node of a forest with an id. -/
def findIn? (id : String) : List Node → Option Node
  | [] => none
  | node :: rest => (node.find? id).or (findIn? id rest)

end

mutual

/-- The number of nodes of a tree. -/
def Node.count : Node → Nat
  | ⟨_, children⟩ => 1 + countIn children

/-- The number of nodes of a forest. -/
def countIn : List Node → Nat
  | [] => 0
  | node :: rest => node.count + countIn rest

end

/-- The scene of a document: its name, where it has one, and the top-level nodes of all pages. -/
structure SceneTree where
  name : Option String
  roots : List Node
  deriving Repr, Inhabited

namespace SceneTree

/-- The first node with an id. -/
def find? (tree : SceneTree) (id : String) : Option Node := findIn? id tree.roots

/-- The number of nodes. -/
def nodeCount (tree : SceneTree) : Nat := countIn tree.roots

end SceneTree

end SceneMarkup
