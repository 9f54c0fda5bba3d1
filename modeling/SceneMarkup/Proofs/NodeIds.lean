/-
  SceneMarkup/Proofs/NodeIds.lean --- markup that carries the ids of its nodes.

  WHAT THIS FILE IS FOR.  Elements may carry the ids of their nodes.  Two pieces of markup
  that differ in nothing else are put side by side, together with the ids in the order of
  the text (`Markup.Identified`), and the elements of a forest are of this kind with the
  ids of the nodes that are shown (`identified_sketchesIn`).  Ids ask for no classes, so
  both emissions give the same ones.
-/
import SceneMarkup.Proofs.ClassPrefix
import SceneMarkup.Proofs.TextContent

set_option autoImplicit false

namespace SceneMarkup

/-! ## Markup with ids -/

namespace Markup

/-- The same markup without ids and with them: the elements of nodes get the ids one after the
other, each as a last attribute that the element did not have, and what belongs to texts stays as it
is. -/
inductive Identified : List String → List Markup → List Markup → Prop where
  | nil : Identified [] [] []
  | ofText {ids : List String} {m : Markup} {before after : List Markup}
      (hofText : m.isOfText = true) (hrest : Identified ids before after) :
      Identified ids (m :: before) (m :: after)
  | node {id : String} {tag : Tag} {ids ids' : List String}
      {children children' before after : List Markup} (hname : tag.name ≠ "span")
      (hnone : ∀ a ∈ tag.attributes, a.1 ≠ "data-node-id")
      (hchildren : Identified ids children children') (hrest : Identified ids' before after) :
      Identified (id :: (ids ++ ids')) (.element tag children :: before)
        (.element { tag with attributes := tag.attributes ++ [("data-node-id", id)] } children' ::
          after)

namespace Identified

theorem append {ids ids' : List String} {before before' after after' : List Markup}
    (h : Identified ids before after) (h' : Identified ids' before' after') :
    Identified (ids ++ ids') (before ++ before') (after ++ after') := by
  induction h with
  | nil => exact h'
  | ofText hofText _ ih => exact .ofText hofText ih
  | node hname hnone hchildren _ _ ihRest =>
      rw [List.cons_append, List.append_assoc]
      exact .node hname hnone hchildren ihRest

/-- The content of a text may stand in front. -/
theorem content_append {ids : List String} {content before after : List Markup}
    (hcontent : ∀ m ∈ content, m.isOfText = true) (h : Identified ids before after) :
    Identified ids (content ++ before) (content ++ after) := by
  induction content with
  | nil => exact h
  | cons m rest ih =>
      rw [List.forall_mem_cons] at hcontent
      exact .ofText hcontent.1 (ih hcontent.2)

end Identified

end Markup

/-! ## Elements with ids -/

namespace Sketch

theorem nodeAttributes_true (layer : Layer) :
    nodeAttributes true layer = nodeAttributes false layer ++ [("data-node-id", layer.id)] := by
  rw [nodeAttributes, nodeAttributes, if_pos rfl, if_neg Bool.false_ne_true, List.append_nil]

theorem ne_of_mem_nodeAttributes {layer : Layer} {a : String × String}
    (h : a ∈ nodeAttributes false layer) : a.1 ≠ "data-node-id" := by
  rw [nodeAttributes, if_neg Bool.false_ne_true, List.append_nil] at h
  split at h
  · rw [List.mem_singleton.1 h]
    exact (by decide : "data-shape" ≠ "data-node-id")
  · rw [List.mem_singleton.1 h]
    exact (by decide : "data-placeholder" ≠ "data-node-id")
  · simp at h

/-- The element of a node gets the id of the node, and those below it get theirs. -/
theorem identified_nodeElement (classOf : Record → Option String) (options : EmitOptions)
    (layer : Layer) (style : Resolved) {ids : List String} {below below' : List Sketch}
    (h : Markup.Identified ids (markupIn classOf below) (markupIn classOf below')) :
    Markup.Identified (layer.id :: ids)
      [(nodeElement { options with emitNodeIds := false } layer style below).markup classOf]
      [(nodeElement { options with emitNodeIds := true } layer style below').markup classOf] := by
  have hcontent := Markup.Identified.content_append
    (isOfText_markup_ownContent classOf layer style) h
  rw [← markupIn_append, ← markupIn_append] at hcontent
  rw [nodeElement, nodeElement, markup, markup, nodeAttributes_true, ← List.append_nil ids]
  exact .node (nodeName_ne_span layer.kind) (fun _ h => ne_of_mem_nodeAttributes h) hcontent .nil

end Sketch

/-- The elements of a forest differ in the ids of the nodes that are shown. -/
theorem identified_sketchesIn (classOf : Record → Option String) (options : EmitOptions)
    (parent : Option Layer) (depth index : Nat) (nodes : List Node) :
    Markup.Identified ((shownIn options.includeHidden nodes).map Layer.id)
      (Sketch.markupIn classOf
        (sketchesIn { options with emitNodeIds := false } parent depth index nodes))
      (Sketch.markupIn classOf
        (sketchesIn { options with emitNodeIds := true } parent depth index nodes)) := by
  induction nodes using forest_induction generalizing parent depth index with
  | nil => exact .nil
  | cons layer children rest ihChildren ihRest =>
      rw [sketchesIn_cons, sketchesIn_cons, Sketch.markupIn_append, Sketch.markupIn_append,
        shownIn_cons, List.map_append]
      refine Markup.Identified.append ?_ (ihRest parent depth (index + 1))
      dsimp only
      cases hhidden : (!layer.visible && !options.includeHidden) with
      | true => exact .nil
      | false =>
          exact Sketch.identified_nodeElement classOf options layer _
            (ihChildren (some layer) (depth + 1) 0)

/-- Ids ask for no classes. -/
theorem requestsIn_sketchesIn_emitNodeIds (options : EmitOptions) (emitNodeIds : Bool)
    (parent : Option Layer) (depth index : Nat) (nodes : List Node) :
    Sketch.requestsIn
        (sketchesIn { options with emitNodeIds := emitNodeIds } parent depth index nodes) =
      Sketch.requestsIn (sketchesIn options parent depth index nodes) := by
  induction nodes using forest_induction generalizing parent depth index with
  | nil => rfl
  | cons layer children rest ihChildren ihRest =>
      rw [sketchesIn_cons, sketchesIn_cons, Sketch.requestsIn_append, Sketch.requestsIn_append,
        ihRest]
      refine congrArg (· ++ _) ?_
      dsimp only
      split
      · rfl
      · simp only [Sketch.requestsIn, Sketch.nodeElement, Sketch.requests,
          Sketch.requestsIn_append, ihChildren]

theorem classesOf_emitNodeIds (options : EmitOptions) (emitNodeIds : Bool) (roots : List Node) :
    Emission.classesOf { options with emitNodeIds := emitNodeIds }
        (sketchesOf { options with emitNodeIds := emitNodeIds } roots) =
      Emission.classesOf options (sketchesOf options roots) :=
  congrArg (Emission.Classes.fresh options.classStart).serve
    (requestsIn_sketchesIn_emitNodeIds options emitNodeIds none 0 0 roots)

/-- Outputs with and without ids differ in the markup only, and there in the ids of the nodes that
are shown. -/
theorem exists_outputOf_emitNodeIds (earlier : Diagnostics) (options : Options)
    (roots : List Node) :
    ∃ markup, outputOf earlier { options with emitNodeIds := true } roots =
        { outputOf earlier { options with emitNodeIds := false } roots with markup := markup } ∧
      Markup.Identified ((shownIn options.includeHidden roots).map Layer.id)
        (outputOf earlier { options with emitNodeIds := false } roots).markup markup := by
  let common : EmitOptions := options.emitOptions
  let classes := Emission.classesOf common (sketchesOf common roots)
  have hclasses : ∀ emitNodeIds, Emission.classesOf { common with emitNodeIds := emitNodeIds }
      (sketchesOf { common with emitNodeIds := emitNodeIds } roots) = classes :=
    fun emitNodeIds => classesOf_emitNodeIds common emitNodeIds roots
  have hout : ∀ emitNodeIds,
      outputOf earlier { options with emitNodeIds := emitNodeIds } roots =
        ⟨Sketch.markupIn classes.classOf
            (sketchesOf { common with emitNodeIds := emitNodeIds } roots),
          classes.rules,
          earlier ++ Style.diagnostics (preorder roots) ++ Emission.omissions common roots,
          options.flavor, options.componentName⟩ := by
    intro emitNodeIds
    rw [← hclasses emitNodeIds]
    rfl
  rw [hout true, hout false]
  exact ⟨_, rfl, identified_sketchesIn classes.classOf common none 0 0 roots⟩

/-! ## Compiling -/

/-- A beginning of class names and ids in the markup change only what they name. With a beginning,
every class has it in front of the name that it has without one, in the markup and in the
stylesheet. With ids, every element of a node has one more attribute, the id of the node, and spans
and texts, the stylesheet and all remarks are the same. Either way the same scenes are compiled. -/
theorem naming_options_only_name (tree : SceneTree) (options : Options) :
    (∀ start, compileTree tree { options with classStart := some start } =
      (compileTree tree { options with classStart := none }).map
        (Output.mapClasses (start ++ ·))) ∧
    (∀ error, compileTree tree { options with emitNodeIds := true } = .error error ↔
      compileTree tree { options with emitNodeIds := false } = .error error) ∧
    ∀ out, compileTree tree { options with emitNodeIds := false } = .ok out →
      ∃ roots markup, rootsOf tree options = .ok roots ∧
        compileTree tree { options with emitNodeIds := true } =
          .ok { out with markup := markup } ∧
        Markup.Identified ((shownIn options.includeHidden roots).map Layer.id) out.markup
          markup := by
  have hstart : ∀ classStart, compileTree tree { options with classStart := classStart } =
      (rootsOf tree options).map (outputOf [] { options with classStart := classStart }) :=
    fun _ => compileParsed_eq tree [] _
  have hids : ∀ emitNodeIds, compileTree tree { options with emitNodeIds := emitNodeIds } =
      (rootsOf tree options).map (outputOf [] { options with emitNodeIds := emitNodeIds }) :=
    fun _ => compileParsed_eq tree [] _
  refine ⟨?_, ?_⟩
  · intro start
    rw [hstart (some start), hstart none]
    cases rootsOf tree options with
    | error error => rfl
    | ok roots => exact congrArg Except.ok (outputOf_classStart [] options start roots)
  · rw [hids true, hids false]
    cases rootsOf tree options with
    | error error => exact ⟨fun _ => Iff.rfl, by rintro out ⟨⟩⟩
    | ok roots =>
        refine ⟨fun error => ⟨by rintro ⟨⟩, by rintro ⟨⟩⟩, ?_⟩
        rintro out ⟨⟩
        obtain ⟨markup, hmarkup, hidentified⟩ := exists_outputOf_emitNodeIds [] options roots
        exact ⟨roots, markup, rfl, congrArg Except.ok hmarkup, hidentified⟩

/-- A text with a run in a font of its own stands next to a hidden frame, which is left out, and all
three nodes have the same name. -/
theorem naming_options_only_name_hidden_frame :
    let own : StyleOverride := ⟨some "Serif", none, none, none, none, none, none, none, none⟩
    let text : TextBlock := ⟨"Hi you", .ofFont "Inter" 400 16, [], [(1, own)], [⟨3, 6, 1⟩]⟩
    let named (id : String) (kind : NodeKind) : Layer :=
      { Layer.ofKind id kind with name := "Card" }
    let tree : SceneTree := ⟨none, [⟨named "page" (.frame .plain),
      [⟨{ named "ghost" (.frame .plain) with visible := false }, []⟩,
        ⟨named "note" (.text text), []⟩]⟩]⟩
    let options : Options := { Options.default with includeHidden := false }
    ∃ out markup, compileTree tree options = .ok out ∧
      compileTree tree { options with emitNodeIds := true } = .ok { out with markup := markup } ∧
      Markup.Identified ["page", "note"] out.markup markup ∧
      compileTree tree { options with classStart := some "x-" } =
        .ok (out.mapClasses ("x-" ++ ·)) := by
  intro own text named tree options
  have hcompiles : compileTree tree options = .ok (outputOf [] options tree.roots) :=
    compileParsed_eq tree [] options
  obtain ⟨hstart, -, hids⟩ := naming_options_only_name tree options
  obtain ⟨roots, markup, hroots, hmarkup, hidentified⟩ := hids _ hcompiles
  obtain rfl : tree.roots = roots := Except.ok.inj hroots
  refine ⟨_, markup, hcompiles, hmarkup, hidentified, ?_⟩
  have hplain : compileTree tree { options with classStart := none } =
      .ok (outputOf [] options tree.roots) := hcompiles
  rw [hstart, hplain]
  rfl

end SceneMarkup
