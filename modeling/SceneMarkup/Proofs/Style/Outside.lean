/-
  SceneMarkup/Proofs/Style/Outside.lean --- the styles of the nodes outside of a subtree.

  WHAT THIS FILE IS FOR.  The style of a node depends on its own layer, on the layer of
  its parent and on whether it has children, and on nothing else of the scene.  So if
  one subtree is put in the place of another, the styles of all other nodes and the
  warnings about them are the same (`resolve_outside`, `diagnostics_outside`).
-/
import SceneMarkup.Proofs.RoseTree
import SceneMarkup.Proofs.Walk
import SceneMarkup.Style.Resolve

set_option autoImplicit false

namespace SceneMarkup

open RoseTree (Replaced labelsIn)

/-- Whether a remark is about one of some nodes. -/
def Diagnostic.namesOneOf (d : Diagnostic) (ids : List String) : Bool :=
  d.nodeId.any (ids.contains ·)

theorem Diagnostic.namesOneOf_of_nodeId {d : Diagnostic} {id : String} (h : d.nodeId = some id)
    (ids : List String) : d.namesOneOf ids = ids.contains id := by
  rw [namesOneOf, h, Option.any_some]

/-! ## Trees of layers as nodes -/

mutual

/-- A tree of layers as a node. -/
def RoseTree.node : RoseTree Layer → Node
  | ⟨layer, branches⟩ => ⟨layer, nodesIn branches⟩

/-- Trees of layers as nodes. -/
def nodesIn : List (RoseTree Layer) → List Node
  | [] => []
  | tree :: rest => tree.node :: nodesIn rest

end

theorem nodesIn_treesIn (nodes : List Node) : nodesIn (treesIn nodes) = nodes := by
  induction nodes using forest_induction with
  | nil => rfl
  | cons layer children rest ihChildren ihRest =>
      rw [treesIn_cons, nodesIn, RoseTree.node, ihChildren, ihRest]

theorem treesIn_nodesIn (trees : List (RoseTree Layer)) : treesIn (nodesIn trees) = trees := by
  induction trees using RoseTree.forest_induction with
  | nil => rfl
  | cons layer branches rest ihBranches ihRest =>
      rw [nodesIn, RoseTree.node, treesIn_cons, ihBranches, ihRest]

theorem isEmpty_nodesIn (trees : List (RoseTree Layer)) :
    (nodesIn trees).isEmpty = trees.isEmpty := by
  cases trees with
  | nil => rfl
  | cons tree rest => rw [nodesIn, List.isEmpty_cons, List.isEmpty_cons]

namespace Style

/-! ## Styles -/

theorem geometry_congr {parent : Option Layer} {depth index : Nat} {layer : Layer}
    {children children' : List Node} (h : children.isEmpty = children'.isEmpty) :
    geometry (.ofNode parent depth index ⟨layer, children⟩) =
      geometry (.ofNode parent depth index ⟨layer, children'⟩) := by
  unfold geometry Entry.ofNode Entry.layer
  dsimp only
  rw [h]

/-- Of the children of a node its style depends on whether there are any. -/
theorem resolveEntry_congr {parent : Option Layer} {depth index : Nat} {layer : Layer}
    {children children' : List Node} (h : children.isEmpty = children'.isEmpty) :
    resolveEntry (.ofNode parent depth index ⟨layer, children⟩) =
      resolveEntry (.ofNode parent depth index ⟨layer, children'⟩) := by
  rw [resolveEntry, resolveEntry, record, record, geometry_congr h]
  rfl

theorem resolve_append (entries others : List Entry) :
    resolve (entries ++ others) = resolve entries ++ resolve others := List.map_append

theorem resolve_entriesIn_cons (parent : Option Layer) (depth index : Nat) (layer : Layer)
    (branches rest : List (RoseTree Layer)) :
    resolve (entriesIn parent depth index (nodesIn (⟨layer, branches⟩ :: rest))) =
      resolveEntry (.ofNode parent depth index ⟨layer, nodesIn branches⟩) ::
        (resolve (entriesIn (some layer) (depth + 1) 0 (nodesIn branches)) ++
          resolve (entriesIn parent depth (index + 1) (nodesIn rest))) := by
  rw [nodesIn, RoseTree.node, entriesIn_cons, ← resolve_append]
  rfl

/-- If a subtree is replaced, the styles before and after those of its nodes stay. -/
theorem resolve_replaced {old new : RoseTree Layer} {trees trees' : List (RoseTree Layer)}
    (h : Replaced old new trees trees') (parent : Option Layer) (depth index : Nat) :
    ∃ before after place level position,
      resolve (entriesIn parent depth index (nodesIn trees)) =
        before ++ resolve (old.node.entries place level position) ++ after ∧
      resolve (entriesIn parent depth index (nodesIn trees')) =
        before ++ resolve (new.node.entries place level position) ++ after := by
  induction h generalizing parent depth index with
  | here rest =>
      refine ⟨[], resolve (entriesIn parent depth (index + 1) (nodesIn rest)), parent, depth, index,
        ?_, ?_⟩
      · rw [nodesIn, entriesIn, resolve_append, List.nil_append]
      · rw [nodesIn, entriesIn, resolve_append, List.nil_append]
  | @inside layer branches branches' rest hbranches ih =>
      obtain ⟨before, after, place, level, position, hold, hnew⟩ := ih (some layer) (depth + 1) 0
      have hempty : (nodesIn branches').isEmpty = (nodesIn branches).isEmpty := by
        rw [isEmpty_nodesIn, isEmpty_nodesIn, hbranches.isEmpty_eq]
      refine ⟨resolveEntry (.ofNode parent depth index ⟨layer, nodesIn branches⟩) :: before,
        after ++ resolve (entriesIn parent depth (index + 1) (nodesIn rest)), place, level,
        position, ?_, ?_⟩
      · rw [resolve_entriesIn_cons, hold]
        simp only [List.cons_append, List.append_assoc]
      · rw [resolve_entriesIn_cons, hnew, resolveEntry_congr hempty]
        simp only [List.cons_append, List.append_assoc]
  | later tree _ ih =>
      obtain ⟨before, after, place, level, position, hold, hnew⟩ := ih parent depth (index + 1)
      refine ⟨resolve (tree.node.entries parent depth index) ++ before, after, place, level,
        position, ?_, ?_⟩
      · rw [nodesIn, entriesIn, resolve_append, hold]
        simp only [List.append_assoc]
      · rw [nodesIn, entriesIn, resolve_append, hnew]
        simp only [List.append_assoc]

/-! ## Nodes outside of a subtree -/

theorem filter_middle {α : Type} {p : α → Bool} {middle : List α} (h : ∀ a ∈ middle, p a = false)
    (before after : List α) :
    (before ++ middle ++ after).filter p = before.filter p ++ after.filter p := by
  have hmiddle : middle.filter p = [] :=
    List.filter_eq_nil_iff.2 fun a ha => by rw [h a ha]; exact Bool.false_ne_true
  rw [List.filter_append, List.filter_append, hmiddle, List.append_nil]

theorem map_nodeId_resolve (parent : Option Layer) (depth index : Nat) (nodes : List Node) :
    (resolve (entriesIn parent depth index nodes)).map Resolved.nodeId =
      (labelsIn (treesIn nodes)).map Layer.id := by
  rw [← map_layer_entriesIn parent depth index, resolve, List.map_map, List.map_map]
  rfl

theorem contains_of_mem_resolve_entries {tree : RoseTree Layer} {parent : Option Layer}
    {depth index : Nat} : ∀ style ∈ resolve (tree.node.entries parent depth index),
      tree.ids.contains style.nodeId = true := by
  intro style hstyle
  have hentries : tree.node.entries parent depth index =
      entriesIn parent depth index (nodesIn [tree]) := by
    rw [nodesIn, nodesIn, entriesIn, entriesIn, List.append_nil]
  rw [List.contains_eq_mem, decide_eq_true_eq, RoseTree.ids, ← treesIn_nodesIn [tree],
    ← map_nodeId_resolve parent depth index, ← hentries]
  exact List.mem_map_of_mem hstyle

/-- The warnings about a node. -/
def warningsAbout (layer : Layer) : Diagnostics :=
  (problems layer).map (Problem.diagnostic layer.id)

theorem diagnostics_preorder (nodes : List Node) :
    diagnostics (preorder nodes) = (labelsIn (treesIn nodes)).flatMap warningsAbout := by
  rw [← map_layer_entriesIn none 0 0, List.flatMap_map]
  rfl

theorem namesOneOf_warningsAbout {tree : RoseTree Layer} {ids : List String}
    (h : tree.ids ⊆ ids) : ∀ d ∈ (labelsIn [tree]).flatMap warningsAbout,
      (!d.namesOneOf ids) = false := by
  intro d hd
  obtain ⟨layer, hlayer, hd⟩ := List.mem_flatMap.1 hd
  obtain ⟨problem, _, rfl⟩ := List.mem_map.1 hd
  have hmem : layer.id ∈ ids := h (List.mem_map_of_mem hlayer)
  rw [Diagnostic.namesOneOf_of_nodeId rfl, List.contains_eq_mem, decide_eq_true hmem]
  rfl

section

variable {old new : RoseTree Layer} {nodes nodes' : List Node}
  (h : Replaced old new (treesIn nodes) (treesIn nodes')) (hids : new.ids ⊆ old.ids)

include h hids

/-- If a subtree is replaced by one with no other ids, the styles of all other nodes stay. -/
theorem resolve_outside :
    (resolve (preorder nodes')).filter (fun style => !old.ids.contains style.nodeId) =
      (resolve (preorder nodes)).filter fun style => !old.ids.contains style.nodeId := by
  obtain ⟨before, after, place, level, position, hold, hnew⟩ := resolve_replaced h none 0 0
  rw [nodesIn_treesIn] at hold hnew
  rw [preorder, preorder, hold, hnew, filter_middle, filter_middle]
  · intro style hstyle
    rw [contains_of_mem_resolve_entries style hstyle]
    rfl
  · intro style hstyle
    have hmem := contains_of_mem_resolve_entries style hstyle
    rw [List.contains_eq_mem, decide_eq_true_eq] at hmem
    rw [List.contains_eq_mem, decide_eq_true (hids hmem)]
    rfl

/-- If a subtree is replaced by one with no other ids, the warnings about all other nodes stay. -/
theorem diagnostics_outside :
    (diagnostics (preorder nodes')).filter (fun d => !d.namesOneOf old.ids) =
      (diagnostics (preorder nodes)).filter fun d => !d.namesOneOf old.ids := by
  obtain ⟨before, after, hold, hnew⟩ := h.labelsIn_eq
  rw [diagnostics_preorder, diagnostics_preorder, hold, hnew]
  simp only [List.flatMap_append]
  rw [filter_middle (namesOneOf_warningsAbout (List.Subset.refl _)),
    filter_middle (namesOneOf_warningsAbout hids)]

end

end Style

end SceneMarkup
