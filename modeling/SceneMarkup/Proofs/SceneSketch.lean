/-
  SceneMarkup/Proofs/SceneSketch.lean --- the elements of a scene, by recursion on its
  forest alone.

  WHAT THIS FILE IS FOR.  A sketch takes the styles of its nodes from a list.  The list
  that belongs to a scene is the resolved walk, and with it the sketch of a forest is
  made of the sketches of its children and of its other trees, each under its own walk
  (`sketchesIn_cons`).  What holds of every element of a scene is then an induction on
  the forest.
-/
import SceneMarkup.Proofs.Compile

set_option autoImplicit false

namespace SceneMarkup

/-- Styles behind those of the nodes of a forest are not used. -/
theorem Sketch.ofForest_append_styles (options : EmitOptions) {styles : List Resolved}
    {nodes : List Node} (h : countIn nodes ≤ styles.length) (others : List Resolved) :
    ofForest options (styles ++ others) nodes = ofForest options styles nodes := by
  induction nodes using forest_induction generalizing styles others with
  | nil => rfl
  | cons layer children rest ihChildren ihRest =>
      rw [countIn_cons] at h
      obtain ⟨style, styles, rfl⟩ : ∃ style rest, styles = style :: rest :=
        List.exists_cons_of_ne_nil (by rintro rfl; simp at h)
      rw [List.length_cons] at h
      have hdrop : (styles ++ others).drop (countIn children) =
          styles.drop (countIn children) ++ others := List.drop_append_of_le_length (by omega)
      have hrest : countIn rest ≤ (styles.drop (countIn children)).length := by
        rw [List.length_drop]
        omega
      rw [List.cons_append]
      cases hhidden : (!layer.visible && !options.includeHidden) with
      | true =>
          rw [ofForest_cons_omitted options hhidden, ofForest_cons_omitted options hhidden, hdrop,
            ihRest hrest]
      | false =>
          rw [ofForest_cons_kept options hhidden, ofForest_cons_kept options hhidden, hdrop,
            ihRest hrest, ihChildren (by omega)]

/-- The elements of siblings, the first of them at `index` below `parent`, with the styles that
their entries are given. -/
def sketchesWith (style : Entry → Resolved) (options : EmitOptions) (parent : Option Layer)
    (depth index : Nat) (nodes : List Node) : List Sketch :=
  Sketch.ofForest options ((entriesIn parent depth index nodes).map style) nodes

/-- The element of a node, unless the node is left out, holds the elements of its children. -/
theorem sketchesWith_cons (style : Entry → Resolved) (options : EmitOptions)
    (parent : Option Layer) (depth index : Nat) (layer : Layer) (children rest : List Node) :
    sketchesWith style options parent depth index (⟨layer, children⟩ :: rest) =
      (if !layer.visible && !options.includeHidden then []
        else [Sketch.nodeElement options layer
          (style (.ofNode parent depth index ⟨layer, children⟩))
          (sketchesWith style options (some layer) (depth + 1) 0 children)]) ++
        sketchesWith style options parent depth (index + 1) rest := by
  have hlength : countIn children =
      ((entriesIn (some layer) (depth + 1) 0 children).map style).length := by
    rw [List.length_map, length_entriesIn]
  have hstyles : (entriesIn parent depth index (⟨layer, children⟩ :: rest)).map style =
      style (.ofNode parent depth index ⟨layer, children⟩) ::
        ((entriesIn (some layer) (depth + 1) 0 children).map style ++
          (entriesIn parent depth (index + 1) rest).map style) := by
    rw [entriesIn_cons, List.map_cons, List.map_append]
  rw [sketchesWith, hstyles]
  split
  · rename_i hhidden
    rw [Sketch.ofForest_cons_omitted options hhidden, hlength, List.drop_left]
    rfl
  · rename_i hshown
    rw [Sketch.ofForest_cons_kept options (by simpa using hshown), hlength, List.drop_left,
      Sketch.ofForest_append_styles options (Nat.le_of_eq hlength)]
    rfl

/-- Styles that make the same elements of all nodes make the same elements of a forest. -/
theorem sketchesWith_congr {style style' : Entry → Resolved} {options : EmitOptions}
    (h : ∀ entry below, Sketch.nodeElement options entry.layer (style entry) below =
      Sketch.nodeElement options entry.layer (style' entry) below)
    (parent : Option Layer) (depth index : Nat) (nodes : List Node) :
    sketchesWith style options parent depth index nodes =
      sketchesWith style' options parent depth index nodes := by
  induction nodes using forest_induction generalizing parent depth index with
  | nil => rfl
  | cons layer children rest ihChildren ihRest =>
      have hnode := h (.ofNode parent depth index ⟨layer, children⟩)
        (sketchesWith style options (some layer) (depth + 1) 0 children)
      rw [sketchesWith_cons, sketchesWith_cons, ← ihChildren, ← ihRest]
      exact congrArg (fun element => (if !layer.visible && !options.includeHidden then []
        else [element]) ++ _) hnode

/-- The elements of siblings, the first of them at `index` below `parent`. -/
def sketchesIn (options : EmitOptions) (parent : Option Layer) (depth index : Nat)
    (nodes : List Node) : List Sketch :=
  Sketch.ofForest options (Style.resolve (entriesIn parent depth index nodes)) nodes

theorem sketchesIn_cons (options : EmitOptions) (parent : Option Layer) (depth index : Nat)
    (layer : Layer) (children rest : List Node) :
    sketchesIn options parent depth index (⟨layer, children⟩ :: rest) =
      (if !layer.visible && !options.includeHidden then []
        else [Sketch.nodeElement options layer
          (Style.resolveEntry (.ofNode parent depth index ⟨layer, children⟩))
          (sketchesIn options (some layer) (depth + 1) 0 children)]) ++
        sketchesIn options parent depth (index + 1) rest :=
  sketchesWith_cons Style.resolveEntry options parent depth index layer children rest

end SceneMarkup
