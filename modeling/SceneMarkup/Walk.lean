/-
  SceneMarkup/Walk.lean --- the nodes of a forest in order, each with its place.

  WHAT THIS FILE IS FOR.  The listing is said twice.  `Node.entries` is recursion on
  the tree: a node, then its children.  `Walker` is a machine with a stack of nodes
  still to come, which can be stopped, copied and begun again.
-/
import SceneMarkup.Scene.Node

set_option autoImplicit false

namespace SceneMarkup

/-! ## Placement -/

/-- The axis along which a frame lays out its children. -/
inductive FlowDirection where
  /-- from left to right -/
  | row
  /-- from top to bottom -/
  | column
  deriving DecidableEq, Repr, Inhabited

namespace FlowDirection

/-- The direction of a layout, if it has one. -/
def ofLayoutMode? : LayoutMode → Option FlowDirection
  | .none => none
  | .horizontal => some .row
  | .vertical => some .column

/-- The style keyword of a direction. -/
def keyword : FlowDirection → String
  | .row => "row"
  | .column => "column"

end FlowDirection

/-- How a node is placed. -/
inductive Placement where
  /-- as a top-level node -/
  | root
  /-- one after the other, by a parent that lays out its children -/
  | flow (direction : FlowDirection)
  /-- at an offset from the parent's corner -/
  | absolute (offset : Point)
  deriving Repr, Inhabited

namespace Placement

/-- The direction in which a node lays out its children. -/
def direction? (parent : Layer) : Option FlowDirection :=
  parent.kind.frame?.bind fun frame => FlowDirection.ofLayoutMode? frame.layoutMode

/-- How `parent` places `child`. -/
def inside (parent child : Layer) : Placement :=
  match direction? parent with
  | some direction => .flow direction
  | none => .absolute (child.bounds.offsetFrom parent.bounds)

/-- How a node is placed that may have a parent. -/
def of (parent : Option Layer) (child : Layer) : Placement :=
  match parent with
  | some parent => inside parent child
  | none => .root

/-- Whether a node is placed as a top-level node. -/
def isRoot : Placement → Bool
  | .root => true
  | _ => false

/-- Whether a node is laid out by its parent. -/
def isFlow : Placement → Bool
  | .flow _ => true
  | _ => false

end Placement

/-! ## The listing -/

/-- A node with its place in the forest. -/
structure Entry where
  node : Node
  /-- how many ancestors the node has in the forest -/
  depth : Nat
  parentId : Option String
  placement : Placement
  /-- the position among the parent's children, or among the roots -/
  index : Nat
  deriving Repr, Inhabited

namespace Entry

/-- The node's own data. -/
abbrev layer (entry : Entry) : Layer := entry.node.layer

/-- The id of the node. -/
abbrev id (entry : Entry) : String := entry.node.layer.id

/-- The entry of a node under `parent`. -/
def ofNode (parent : Option Layer) (depth index : Nat) (node : Node) : Entry :=
  ⟨node, depth, parent.map (·.id), .of parent node.layer, index⟩

end Entry

mutual

/-- The entries of a node and all that is below it, in order. -/
def Node.entries (parent : Option Layer) (depth index : Nat) : Node → List Entry
  | ⟨layer, children⟩ =>
      .ofNode parent depth index ⟨layer, children⟩ :: entriesIn (some layer) (depth + 1) 0 children

/-- The entries of siblings and all that is below them, the first sibling being at `index`. -/
def entriesIn (parent : Option Layer) (depth index : Nat) : List Node → List Entry
  | [] => []
  | node :: rest => node.entries parent depth index ++ entriesIn parent depth (index + 1) rest

end

/-- The entries of a forest, in order. -/
def preorder (roots : List Node) : List Entry := entriesIn none 0 0 roots

/-! ## The walker -/

/-- A node that a walker has still to visit. -/
structure Pending where
  node : Node
  parent : Option Layer
  depth : Nat
  index : Nat
  deriving Repr, Inhabited

namespace Pending

/-- The entry of the node. -/
def entry (p : Pending) : Entry := .ofNode p.parent p.depth p.index p.node

/-- Siblings to visit, the first of them at `index`. -/
def siblings (parent : Option Layer) (depth index : Nat) : List Node → List Pending
  | [] => []
  | node :: rest => ⟨node, parent, depth, index⟩ :: siblings parent depth (index + 1) rest

/-- The children of the node. -/
def children (p : Pending) : List Pending :=
  siblings (some p.node.layer) (p.depth + 1) 0 p.node.children

/-- The number of nodes that are in a list of trees to visit. -/
def total : List Pending → Nat
  | [] => 0
  | p :: rest => p.node.count + total rest

end Pending

/-- A walk through a forest: the roots, and the nodes to visit next. -/
structure Walker where
  roots : List Node
  stack : List Pending
  deriving Repr, Inhabited

namespace Walker

/-- The walk that is about to visit the first root. -/
def start (roots : List Node) : Walker := ⟨roots, Pending.siblings none 0 0 roots⟩

/-- The walk begun again. -/
def restart (w : Walker) : Walker := start w.roots

/-- The next entry and the walk after it. -/
def next (w : Walker) : Option (Entry × Walker) :=
  match w.stack with
  | [] => none
  | p :: rest => some (p.entry, { w with stack := p.children ++ rest })

/-- The next `n` entries, or all if there are fewer. -/
def take : Nat → Walker → List Entry
  | 0, _ => []
  | n + 1, w =>
      match w.next with
      | none => []
      | some (entry, w) => entry :: take n w

/-- All entries that are still to come: a walk visits each node once. -/
def rest (w : Walker) : List Entry := w.take (Pending.total w.stack)

/-- The walk with nothing to come. -/
def finish (w : Walker) : Walker := { w with stack := [] }

end Walker

end SceneMarkup
