/-
  SceneMarkup/Proofs/Places.lean --- what an entry of the listing says of its node.

  WHAT THIS FILE IS FOR.  A place in a forest is a path: the number of a root, of one of
  its children, and so on.  Paths know nothing of a traversal, so they can say what the
  listing has to say: there is one entry for each place, the places come in lexical
  order, and the depth, the index, the parent and the placement of an entry are those of
  its place (`isPreorder_preorder`).
-/
import Mathlib.Data.List.Forall2
import SceneMarkup.Proofs.Walk

set_option autoImplicit false

namespace SceneMarkup

/-! ## Places -/

/-- The node at a place: one of the nodes, one of its children, and so on. -/
def nodeAt? : List Node → List Nat → Option Node
  | _, [] => none
  | nodes, [i] => nodes[i]?
  | nodes, i :: j :: path => nodes[i]?.bind fun node => nodeAt? node.children (j :: path)

/-- A child is at the place of its parent, and then at its own number. -/
theorem nodeAt?_concat {nodes : List Node} {path : List Nat} {node : Node}
    (h : nodeAt? nodes path = some node) (i : Nat) :
    nodeAt? nodes (path ++ [i]) = node.children[i]? := by
  induction path generalizing nodes with
  | nil => simp [nodeAt?] at h
  | cons j path ih =>
      cases path with
      | nil =>
          rw [nodeAt?] at h
          rw [List.singleton_append, nodeAt?, h, Option.bind_some, nodeAt?]
      | cons k path =>
          rw [nodeAt?] at h
          obtain ⟨above, habove, hbelow⟩ := Option.bind_eq_some_iff.1 h
          rw [List.cons_append, List.cons_append, nodeAt?, habove, Option.bind_some]
          exact ih hbelow

/-! ## Entries at places -/

/-- How a node is placed below another: by a parent that lays out its children, along its
direction; by any other parent, at the offset of the node's corner from the parent's corner. -/
inductive Placed : Option Node → Node → Placement → Prop where
  | root (node : Node) : Placed none node .root
  | row {parent : Node} {frame : Frame} (node : Node)
      (hframe : parent.layer.kind.frame? = some frame) (hmode : frame.layoutMode = .horizontal) :
      Placed (some parent) node (.flow .row)
  | column {parent : Node} {frame : Frame} (node : Node)
      (hframe : parent.layer.kind.frame? = some frame) (hmode : frame.layoutMode = .vertical) :
      Placed (some parent) node (.flow .column)
  | offset {parent : Node} (node : Node)
      (h : ∀ frame ∈ parent.layer.kind.frame?, frame.layoutMode = .none) :
      Placed (some parent) node (.absolute
        ⟨node.layer.bounds.x - parent.layer.bounds.x, node.layer.bounds.y - parent.layer.bounds.y⟩)

/-- An entry says where its node is in a forest and how its parent places it. -/
structure Entry.StandsAt (roots : List Node) (path : List Nat) (entry : Entry) : Prop where
  node : nodeAt? roots path = some entry.node
  /-- a root has a path of one number and no ancestors -/
  depth : entry.depth + 1 = path.length
  index : path.getLast? = some entry.index
  parentId : entry.parentId = (nodeAt? roots path.dropLast).map Node.id
  placement : Placed (nodeAt? roots path.dropLast) entry.node entry.placement

/-- A listing of a forest with one entry for each place, the places being in lexical order: a node
comes before its descendants, and all of these before the next sibling. -/
def IsPreorder (roots : List Node) (listing : List Entry) : Prop :=
  ∃ places : List (List Nat), places.Pairwise (· < ·) ∧
    (∀ path, path ∈ places ↔ (nodeAt? roots path).isSome = true) ∧
    List.Forall₂ (Entry.StandsAt roots) places listing

theorem placed_of (parent : Option Node) (node : Node) :
    Placed parent node (.of (parent.map Node.layer) node.layer) := by
  cases parent with
  | none => exact .root node
  | some parent =>
      rw [Option.map_some, Placement.of, Placement.inside, Placement.direction?]
      cases hframe : parent.layer.kind.frame? with
      | none => exact .offset node (by simp [hframe])
      | some frame =>
          rw [Option.bind_some]
          cases hmode : frame.layoutMode with
          | none => exact .offset node (by simpa [hframe] using hmode)
          | horizontal => exact .row node hframe hmode
          | vertical => exact .column node hframe hmode

/-! ## The places of a forest -/

mutual

/-- The places of the nodes of a tree, the tree itself being at `index`. -/
def Node.places (index : Nat) : Node → List (List Nat)
  | ⟨_, children⟩ => [index] :: (placesIn 0 children).map (index :: ·)

/-- The places of the nodes of siblings, the first sibling being at `index`. -/
def placesIn (index : Nat) : List Node → List (List Nat)
  | [] => []
  | node :: rest => node.places index ++ placesIn (index + 1) rest

end

theorem placesIn_cons (index : Nat) (layer : Layer) (children rest : List Node) :
    placesIn index (⟨layer, children⟩ :: rest) =
      [index] :: ((placesIn 0 children).map (index :: ·) ++ placesIn (index + 1) rest) := by
  rw [placesIn, Node.places, List.cons_append]

theorem mem_placesIn_iff {index : Nat} {nodes : List Node} {path : List Nat} :
    path ∈ placesIn index nodes ↔
      ∃ i tail, path = (index + i) :: tail ∧ (nodeAt? nodes (i :: tail)).isSome = true := by
  induction nodes using forest_induction generalizing index path with
  | nil =>
      constructor
      · intro h
        simp [placesIn] at h
      · rintro ⟨i, tail, -, h⟩
        cases tail <;> simp [nodeAt?] at h
  | cons layer children rest ihChildren ihRest =>
      rw [placesIn_cons, List.mem_cons, List.mem_append, List.mem_map, ihRest]
      constructor
      · rintro (rfl | ⟨tail, htail, rfl⟩ | ⟨i, tail, rfl, h⟩)
        · exact ⟨0, [], rfl, rfl⟩
        · obtain ⟨i, tail, rfl, h⟩ := ihChildren.1 htail
          rw [Nat.zero_add]
          exact ⟨0, i :: tail, rfl, h⟩
        · refine ⟨i + 1, tail, by rw [Nat.add_right_comm, Nat.add_assoc], ?_⟩
          cases tail with
          | nil => simpa [nodeAt?] using h
          | cons j tail => simpa [nodeAt?] using h
      · rintro ⟨i, tail, rfl, h⟩
        cases i with
        | zero =>
            cases tail with
            | nil => exact Or.inl rfl
            | cons j tail =>
                refine Or.inr (Or.inl ⟨j :: tail, ihChildren.2 ⟨j, tail, ?_, h⟩, rfl⟩)
                rw [Nat.zero_add]
        | succ i =>
            refine Or.inr (Or.inr ⟨i, tail, by rw [Nat.add_right_comm, Nat.add_assoc], ?_⟩)
            cases tail with
            | nil => simpa [nodeAt?] using h
            | cons j tail => simpa [nodeAt?] using h

theorem ne_nil_of_mem_placesIn {index : Nat} {nodes : List Node} {path : List Nat}
    (h : path ∈ placesIn index nodes) : path ≠ [] := by
  obtain ⟨i, tail, rfl, -⟩ := mem_placesIn_iff.1 h
  exact List.cons_ne_nil _ _

/-- Places are listed in lexical order: a node before its descendants, and siblings one after the
other with all that is below them. -/
theorem pairwise_placesIn (index : Nat) (nodes : List Node) :
    (placesIn index nodes).Pairwise (· < ·) := by
  induction nodes using forest_induction generalizing index with
  | nil => exact List.Pairwise.nil
  | cons layer children rest ihChildren ihRest =>
      have hlater :
          ∀ path ∈ placesIn (index + 1) rest, ∀ tail : List Nat, index :: tail < path := by
        intro path hpath tail
        obtain ⟨i, tail', rfl, -⟩ := mem_placesIn_iff.1 hpath
        exact List.cons_lt_cons_iff.2 (Or.inl (by omega))
      rw [placesIn_cons, List.pairwise_cons, List.pairwise_append, List.pairwise_map]
      refine ⟨?_, ?_, ihRest (index + 1), ?_⟩
      · intro path hpath
        rcases List.mem_append.1 hpath with hpath | hpath
        · obtain ⟨tail, htail, rfl⟩ := List.mem_map.1 hpath
          obtain ⟨i, tail, rfl⟩ := List.exists_cons_of_ne_nil (ne_nil_of_mem_placesIn htail)
          exact List.cons_lt_cons_iff.2 (Or.inr ⟨rfl, List.nil_lt_cons _ _⟩)
        · exact hlater path hpath []
      · exact (ihChildren 0).imp fun h => List.cons_lt_cons_iff.2 (Or.inr ⟨rfl, h⟩)
      · intro first hfirst path hpath
        obtain ⟨tail, -, rfl⟩ := List.mem_map.1 hfirst
        exact hlater path hpath tail

/-! ## The listing -/

/-- The entries of siblings stand at their places below `start`. -/
theorem forall₂_standsAt {roots : List Node} {start : List Nat} {parent : Option Node}
    (hparent : nodeAt? roots start = parent) (index : Nat) (nodes : List Node)
    (hnodes : ∀ i, nodeAt? roots (start ++ [index + i]) = nodes[i]?) :
    List.Forall₂ (Entry.StandsAt roots) ((placesIn index nodes).map (start ++ ·))
      (entriesIn (parent.map Node.layer) start.length index nodes) := by
  induction nodes using forest_induction generalizing start parent index with
  | nil => exact List.Forall₂.nil
  | cons layer children rest ihChildren ihRest =>
      have hnode : nodeAt? roots (start ++ [index]) = some ⟨layer, children⟩ := hnodes 0
      rw [placesIn_cons, entriesIn_cons, List.map_cons, List.map_append, List.map_map]
      refine .cons ?_ (List.rel_append ?_ ?_)
      · refine ⟨hnode, by simp [Entry.ofNode], by simp [Entry.ofNode], ?_, ?_⟩
        · rw [List.dropLast_concat, hparent, Entry.ofNode, Option.map_map]
          rfl
        · rw [List.dropLast_concat, hparent]
          exact placed_of parent ⟨layer, children⟩
      · have hbelow := ihChildren hnode 0 fun i => by
          rw [Nat.zero_add]
          exact nodeAt?_concat hnode i
        simpa [Function.comp_def] using hbelow
      · refine ihRest hparent (index + 1) fun i => ?_
        rw [Nat.add_right_comm, Nat.add_assoc, hnodes (i + 1), List.getElem?_cons_succ]

theorem isPreorder_preorder (roots : List Node) : IsPreorder roots (preorder roots) := by
  refine ⟨placesIn 0 roots, pairwise_placesIn 0 roots, fun path => ?_, ?_⟩
  · rw [mem_placesIn_iff]
    constructor
    · rintro ⟨i, tail, rfl, h⟩
      rwa [Nat.zero_add]
    · intro h
      cases path with
      | nil => simp [nodeAt?] at h
      | cons i tail => exact ⟨i, tail, by rw [Nat.zero_add], h⟩
  · have hlisting := @forall₂_standsAt roots [] none (by rw [nodeAt?]) 0 roots fun i => by
      rw [List.nil_append, Nat.zero_add, nodeAt?]
    simpa [preorder] using hlisting

end SceneMarkup
