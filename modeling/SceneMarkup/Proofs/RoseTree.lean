/-
  SceneMarkup/Proofs/RoseTree.lean --- trees with labels.

  WHAT THIS FILE IS FOR.  A document, the scene that is read from it and the ids of
  either have one shape, and differ in what stands at each place.  A rose tree keeps the
  shape apart: what holds place by place is said of labels, and what moves a whole
  subtree is said once (`Replaced`).  A scene node is such a tree of layers
  (`Node.tree`), and the walk lists its subtrees in order.
-/
import SceneMarkup.Walk

set_option autoImplicit false

namespace SceneMarkup

/-- A tree with a label at each place. -/
structure RoseTree (α : Type) where
  label : α
  branches : List (RoseTree α)
  deriving Repr, Inhabited

namespace RoseTree

variable {α β γ : Type}

/-- Induction on a forest: the first tree is a label over a forest, and the other trees are a
forest as well. -/
@[elab_as_elim]
theorem forest_induction {motive : List (RoseTree α) → Prop} (nil : motive [])
    (cons : ∀ a branches rest, motive branches → motive rest → motive (⟨a, branches⟩ :: rest)) :
    ∀ trees, motive trees
  | [] => nil
  | ⟨a, branches⟩ :: rest =>
      cons a branches rest (forest_induction nil cons branches) (forest_induction nil cons rest)

/-! ## Labels -/

mutual

/-- A tree with other labels at the same places. -/
def map (f : α → β) : RoseTree α → RoseTree β
  | ⟨a, branches⟩ => ⟨f a, mapIn f branches⟩

/-- A forest with other labels at the same places. -/
def mapIn (f : α → β) : List (RoseTree α) → List (RoseTree β)
  | [] => []
  | tree :: rest => tree.map f :: mapIn f rest

end

mutual

/-- The subtrees of a tree: the tree itself, then those of what is below its label, in order. -/
def subtrees : RoseTree α → List (RoseTree α)
  | ⟨a, branches⟩ => ⟨a, branches⟩ :: subtreesIn branches

/-- The subtrees of a forest, in order. -/
def subtreesIn : List (RoseTree α) → List (RoseTree α)
  | [] => []
  | tree :: rest => tree.subtrees ++ subtreesIn rest

end

/-- The labels of a forest, a label coming before those below it. -/
def labelsIn (trees : List (RoseTree α)) : List α := (subtreesIn trees).map (·.label)

theorem mapIn_cons (f : α → β) (a : α) (branches rest : List (RoseTree α)) :
    mapIn f (⟨a, branches⟩ :: rest) = ⟨f a, mapIn f branches⟩ :: mapIn f rest := by
  rw [mapIn, map]

theorem mapIn_append (f : α → β) (first others : List (RoseTree α)) :
    mapIn f (first ++ others) = mapIn f first ++ mapIn f others := by
  induction first with
  | nil => rfl
  | cons tree rest ih => rw [List.cons_append, mapIn, ih, mapIn, List.cons_append]

theorem mapIn_mapIn (g : β → γ) (f : α → β) (trees : List (RoseTree α)) :
    mapIn g (mapIn f trees) = mapIn (g ∘ f) trees := by
  induction trees using forest_induction with
  | nil => rfl
  | cons a branches rest ihBranches ihRest =>
      rw [mapIn_cons, mapIn_cons, mapIn_cons, ihBranches, ihRest, Function.comp_apply]

theorem map_map (g : β → γ) (f : α → β) (tree : RoseTree α) :
    (tree.map f).map g = tree.map (g ∘ f) := by
  obtain ⟨a, branches⟩ := tree
  rw [map, map, map, mapIn_mapIn, Function.comp_apply]

theorem subtreesIn_cons (a : α) (branches rest : List (RoseTree α)) :
    subtreesIn (⟨a, branches⟩ :: rest) =
      ⟨a, branches⟩ :: (subtreesIn branches ++ subtreesIn rest) := by
  rw [subtreesIn, subtrees, List.cons_append]

theorem subtreesIn_singleton (a : α) (branches : List (RoseTree α)) :
    subtreesIn [⟨a, branches⟩] = ⟨a, branches⟩ :: subtreesIn branches := by
  rw [subtreesIn_cons, subtreesIn, List.append_nil]

theorem subtreesIn_append (first others : List (RoseTree α)) :
    subtreesIn (first ++ others) = subtreesIn first ++ subtreesIn others := by
  induction first with
  | nil => rfl
  | cons tree rest ih => rw [List.cons_append, subtreesIn, ih, subtreesIn, List.append_assoc]

theorem subtreesIn_mapIn (f : α → β) (trees : List (RoseTree α)) :
    subtreesIn (mapIn f trees) = (subtreesIn trees).map (map f) := by
  induction trees using forest_induction with
  | nil => rfl
  | cons a branches rest ihBranches ihRest =>
      rw [mapIn_cons, subtreesIn_cons, subtreesIn_cons, ihBranches, ihRest, List.map_cons,
        List.map_append, map]

theorem exists_mem_of_mem_subtreesIn {trees : List (RoseTree α)} {tree : RoseTree α}
    (h : tree ∈ subtreesIn trees) : ∃ root ∈ trees, tree ∈ subtreesIn [root] := by
  induction trees with
  | nil => cases h
  | cons root rest ih =>
      rw [← List.singleton_append, subtreesIn_append, List.mem_append] at h
      rcases h with h | h
      · exact ⟨root, List.mem_cons_self, h⟩
      · obtain ⟨other, hother, hmem⟩ := ih h
        exact ⟨other, List.mem_cons_of_mem _ hother, hmem⟩

theorem labelsIn_nil : labelsIn ([] : List (RoseTree α)) = [] := rfl

theorem labelsIn_cons (a : α) (branches rest : List (RoseTree α)) :
    labelsIn (⟨a, branches⟩ :: rest) = a :: (labelsIn branches ++ labelsIn rest) := by
  rw [labelsIn, subtreesIn_cons, List.map_cons, List.map_append, labelsIn, labelsIn]

theorem labelsIn_singleton (a : α) (branches : List (RoseTree α)) :
    labelsIn [⟨a, branches⟩] = a :: labelsIn branches := by
  rw [labelsIn_cons, labelsIn_nil, List.append_nil]

theorem labelsIn_append (first others : List (RoseTree α)) :
    labelsIn (first ++ others) = labelsIn first ++ labelsIn others := by
  rw [labelsIn, subtreesIn_append, List.map_append, labelsIn, labelsIn]

theorem label_mem_labelsIn {trees : List (RoseTree α)} {tree : RoseTree α} (h : tree ∈ trees) :
    tree.label ∈ labelsIn trees := by
  induction trees with
  | nil => cases h
  | cons first rest ih =>
      obtain ⟨a, branches⟩ := first
      rw [labelsIn_cons]
      rcases List.mem_cons.1 h with rfl | h
      · exact List.mem_cons_self
      · exact List.mem_cons_of_mem _ (List.mem_append_right _ (ih h))

theorem labelsIn_mapIn (f : α → β) (trees : List (RoseTree α)) :
    labelsIn (mapIn f trees) = (labelsIn trees).map f := by
  rw [labelsIn, subtreesIn_mapIn, labelsIn, List.map_map, List.map_map]
  refine List.map_congr_left fun tree _ => ?_
  obtain ⟨a, branches⟩ := tree
  rw [Function.comp_apply, Function.comp_apply, map]

theorem mapIn_congr {f g : α → β} {trees : List (RoseTree α)}
    (h : ∀ a ∈ labelsIn trees, f a = g a) : mapIn f trees = mapIn g trees := by
  induction trees using forest_induction with
  | nil => rfl
  | cons a branches rest ihBranches ihRest =>
      rw [labelsIn_cons, List.forall_mem_cons, List.forall_mem_append] at h
      rw [mapIn_cons, mapIn_cons, h.1, ihBranches h.2.1, ihRest h.2.2]

/-- The labels of a subtree are labels of the forest. -/
theorem labelsIn_subset {trees : List (RoseTree α)} {tree : RoseTree α}
    (h : tree ∈ subtreesIn trees) : labelsIn [tree] ⊆ labelsIn trees := by
  induction trees using forest_induction with
  | nil => cases h
  | cons a branches rest ihBranches ihRest =>
      intro b hb
      rw [subtreesIn_cons, List.mem_cons, List.mem_append] at h
      rw [labelsIn_cons, List.mem_cons, List.mem_append]
      rcases h with rfl | h | h
      · rw [labelsIn_singleton, List.mem_cons] at hb
        exact hb.imp_right .inl
      · exact .inr (.inl (ihBranches h hb))
      · exact .inr (.inr (ihRest h hb))

/-! ## Putting a tree in the place of another -/

/-- The second forest is the first one with `new` in the place of one subtree `old`. -/
inductive Replaced (old new : RoseTree α) : List (RoseTree α) → List (RoseTree α) → Prop
  | here (rest : List (RoseTree α)) : Replaced old new (old :: rest) (new :: rest)
  | inside (a : α) {branches branches' : List (RoseTree α)} (rest : List (RoseTree α))
      (h : Replaced old new branches branches') :
      Replaced old new (⟨a, branches⟩ :: rest) (⟨a, branches'⟩ :: rest)
  | later (tree : RoseTree α) {rest rest' : List (RoseTree α)} (h : Replaced old new rest rest') :
      Replaced old new (tree :: rest) (tree :: rest')

namespace Replaced

variable {old new : RoseTree α} {trees trees' : List (RoseTree α)}

theorem map (h : Replaced old new trees trees') (f : α → β) :
    Replaced (old.map f) (new.map f) (mapIn f trees) (mapIn f trees') := by
  induction h with
  | here rest => exact .here _
  | inside a rest _ ih => rw [mapIn_cons, mapIn_cons]; exact .inside _ _ ih
  | later tree _ ih => exact .later _ ih

theorem append (h : Replaced old new trees trees') (others : List (RoseTree α)) :
    Replaced old new (trees ++ others) (trees' ++ others) := by
  induction h with
  | here rest => exact .here _
  | inside a rest h _ => exact .inside a _ h
  | later tree _ ih => exact .later tree ih

theorem isEmpty_eq (h : Replaced old new trees trees') : trees.isEmpty = trees'.isEmpty := by
  cases h <;> rfl

/-- The labels of the subtree are replaced, and the labels before and after it stay. -/
theorem labelsIn_eq (h : Replaced old new trees trees') :
    ∃ before after, labelsIn trees = before ++ labelsIn [old] ++ after ∧
      labelsIn trees' = before ++ labelsIn [new] ++ after := by
  induction h with
  | here rest =>
      refine ⟨[], labelsIn rest, ?_, ?_⟩ <;>
        rw [List.nil_append, ← labelsIn_append, List.singleton_append]
  | inside a rest _ ih =>
      obtain ⟨before, after, hbranches, hbranches'⟩ := ih
      refine ⟨a :: before, after ++ labelsIn rest, ?_, ?_⟩
      · rw [labelsIn_cons, hbranches]
        simp only [List.cons_append, List.append_assoc]
      · rw [labelsIn_cons, hbranches']
        simp only [List.cons_append, List.append_assoc]
  | later tree _ ih =>
      obtain ⟨before, after, hrest, hrest'⟩ := ih
      refine ⟨labelsIn [tree] ++ before, after, ?_, ?_⟩
      · rw [← List.singleton_append, labelsIn_append, hrest]
        simp only [List.append_assoc]
      · rw [← List.singleton_append, labelsIn_append, hrest']
        simp only [List.append_assoc]

end Replaced

end RoseTree

/-! ## Scene nodes -/

mutual

/-- A node as a tree of layers. -/
def Node.tree : Node → RoseTree Layer
  | ⟨layer, children⟩ => ⟨layer, treesIn children⟩

/-- Nodes as trees of layers. -/
def treesIn : List Node → List (RoseTree Layer)
  | [] => []
  | node :: rest => node.tree :: treesIn rest

end

/-- The ids of the nodes of a tree, in order. -/
def RoseTree.ids (tree : RoseTree Layer) : List String := (RoseTree.labelsIn [tree]).map Layer.id

theorem treesIn_cons (layer : Layer) (children rest : List Node) :
    treesIn (⟨layer, children⟩ :: rest) = ⟨layer, treesIn children⟩ :: treesIn rest := by
  rw [treesIn, Node.tree]

theorem treesIn_append (first others : List Node) :
    treesIn (first ++ others) = treesIn first ++ treesIn others := by
  induction first with
  | nil => rfl
  | cons node rest ih => rw [List.cons_append, treesIn, ih, treesIn, List.cons_append]

open RoseTree in
/-- The walk lists the subtrees of a forest in order. -/
theorem map_tree_entriesIn (parent : Option Layer) (depth index : Nat) :
    ∀ nodes : List Node,
      (entriesIn parent depth index nodes).map (·.node.tree) = subtreesIn (treesIn nodes)
  | [] => rfl
  | ⟨layer, children⟩ :: rest => by
      rw [entriesIn, Node.entries, treesIn_cons, subtreesIn_cons, List.cons_append, List.map_cons,
        List.map_append, map_tree_entriesIn (some layer) (depth + 1) 0 children,
        map_tree_entriesIn parent depth (index + 1) rest]
      rfl

/-- The walk lists the layers of a forest in order. -/
theorem map_layer_entriesIn (parent : Option Layer) (depth index : Nat) (nodes : List Node) :
    (entriesIn parent depth index nodes).map Entry.layer = RoseTree.labelsIn (treesIn nodes) := by
  rw [RoseTree.labelsIn, ← map_tree_entriesIn parent depth index nodes, List.map_map]
  refine List.map_congr_left fun entry _ => ?_
  obtain ⟨⟨layer, children⟩, _⟩ := entry
  rfl

end SceneMarkup
