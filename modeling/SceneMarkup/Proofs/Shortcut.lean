/-
  SceneMarkup/Proofs/Shortcut.lean --- texts that are not looked at for runs.

  WHAT THIS FILE IS FOR.  A text that gives its characters no id other than zero is not
  split into runs.  Splitting every text gives the same output: such a text is one run in
  the base style, and emission does not tell it from no runs at all.  Which texts are
  splits is made a condition here (`compileWhere`), so that the two can be compared.  The
  last part is about overriding styles with the id zero, which no character can have.
-/
import SceneMarkup.Proofs.SceneSketch
import SceneMarkup.Proofs.Style.Outside
import SceneMarkup.Proofs.Style.Reports

set_option autoImplicit false

namespace SceneMarkup

/-! ## Texts without overrides -/

namespace TextBlock

variable {text : TextBlock}

theorem styled_eq_of_no_overrides (h : text.hasOverrides = false) :
    text.styled = text.characters.toList.map fun c => (c, 0) := by
  refine List.ext_getElem? fun i => ?_
  rw [getElem?_styled, List.getElem?_map, styleAt_eq_zero h]

/-- A text without overrides is one run in the base style, or none if there are no characters. -/
theorem runs_of_no_overrides (h : text.hasOverrides = false) :
    text.runs =
      if text.characters.isEmpty then [] else [⟨0, text.characters.toList, 0⟩] := by
  rw [runs_eq, styled_eq_of_no_overrides h]
  split
  · rename_i hempty
    rw [String.isEmpty_iff.1 hempty]
    rfl
  · rename_i hnonempty
    have hne : text.characters.toList ≠ [] := by
      simpa [String.isEmpty_iff] using hnonempty
    have hrun := Run.ofStyled_styled_append 0 0 text.characters.toList hne []
    rw [List.append_nil] at hrun
    rw [hrun]
    rfl

end TextBlock

/-- Runs without declarations of their own make the content that no runs make. -/
theorem Sketch.ofText_of_empty {runs : List ResolvedRun} (h : ∀ run ∈ runs, run.record = .empty)
    (layer : Layer) (characters : String) :
    ofText layer characters runs = ofText layer characters [] := by
  have hall : (runs.all fun run => run.record.isEmpty) = true :=
    List.all_eq_true.2 fun run hrun => by rw [h run hrun]; rfl
  rw [ofText, ofText, if_pos hall]
  rfl

namespace Style

theorem record_resolveRun_eq_empty {text : TextBlock} (h : text.hasOverrides = false) {run : Run}
    (hrun : run ∈ text.runs) (layer : Layer) : (resolveRun layer text run).record = .empty := by
  rw [resolveRun, overrideOf?, if_pos (TextBlock.styleId_eq_zero h hrun)]

/-! ## Compiling under a condition -/

/-- The runs of a text, none if the text is not one of those that are split. -/
def resolveRunsWhere (splits : TextBlock → Bool) (layer : Layer) (text : TextBlock) :
    List ResolvedRun :=
  if splits text then text.runs.map (resolveRun layer text) else []

/-- What is wrong with a text, its runs being looked at if it is one of those that are split. -/
def textProblemsWhere (splits : TextBlock → Bool) (layer : Layer) (text : TextBlock) :
    List Problem :=
  fillProblems layer.fills ++ strokeProblems true layer.strokeWeight layer.strokes ++
    effectProblems true layer.effects ++
    if splits text then text.runs.flatMap (runProblems text) else []

/-- What is wrong with a node if some texts are split. -/
def problemsWhere (splits : TextBlock → Bool) (layer : Layer) : List Problem :=
  match layer.kind with
  | .text text => textProblemsWhere splits layer text
  | _ => problems layer

/-- The style of a node if some texts are split. -/
def resolveEntryWhere (splits : TextBlock → Bool) (entry : Entry) : Resolved :=
  ⟨entry.id, record entry, match entry.layer.kind with
    | .text text => resolveRunsWhere splits entry.layer text
    | _ => []⟩

/-- The warnings about the nodes of a walk if some texts are split. -/
def diagnosticsWhere (splits : TextBlock → Bool) (entries : List Entry) : Diagnostics :=
  entries.flatMap fun entry =>
    (problemsWhere splits entry.layer).map (Problem.diagnostic entry.id)

end Style

/-- Compiles a scene, of whose texts some are split into runs. -/
def compileWhere (splits : TextBlock → Bool) (tree : SceneTree) (options : Options) :
    Except CompileError Output := do
  let walker ← walkOf tree options
  let entries := walker.rest
  match emit options.emitOptions entries (entries.map (Style.resolveEntryWhere splits)) with
  | .error mismatch => .error (.mismatch mismatch)
  | .ok emission =>
      .ok ⟨emission.markup, emission.stylesheet,
        Style.diagnosticsWhere splits entries ++ emission.diagnostics, options.flavor,
        options.componentName⟩

namespace Style

variable {splits : TextBlock → Bool}

theorem record_of_mem_resolveRunsWhere {text : TextBlock} (h : text.hasOverrides = false)
    {layer : Layer} : ∀ run ∈ resolveRunsWhere splits layer text, run.record = .empty := by
  unfold resolveRunsWhere
  split
  · rw [List.forall_mem_map]
    exact fun run hrun => record_resolveRun_eq_empty h hrun layer
  · exact List.forall_mem_nil _

/-- If all texts with overrides are split, the content of no text depends on which others are. -/
theorem ownContent_resolveEntryWhere (h : ∀ text, text.hasOverrides = true → splits text = true)
    (entry : Entry) :
    Sketch.ownContent entry.layer (resolveEntryWhere splits entry) =
      Sketch.ownContent entry.layer (resolveEntry entry) := by
  unfold Sketch.ownContent resolveEntryWhere resolveEntry
  cases entry.layer.kind with
  | text text =>
      dsimp only
      cases hoverrides : text.hasOverrides with
      | true =>
          rw [resolveRunsWhere, resolveRuns, if_pos (h text hoverrides), if_pos hoverrides]
      | false =>
          rw [resolveRuns, if_neg (ne_true_of_eq_false hoverrides)]
          exact Sketch.ofText_of_empty (record_of_mem_resolveRunsWhere hoverrides) _ _
  | _ => rfl

theorem problemsWhere_eq (h : ∀ text, text.hasOverrides = true → splits text = true)
    (layer : Layer) : problemsWhere splits layer = problems layer := by
  unfold problemsWhere problems
  cases layer.kind with
  | text text =>
      dsimp only
      rw [textProblemsWhere, textProblems, List.append_cancel_left_eq]
      cases hoverrides : text.hasOverrides with
      | true => rw [if_pos (h text hoverrides), if_pos rfl]
      | false =>
          rw [if_neg Bool.false_ne_true]
          split
          · refine List.flatMap_eq_nil_iff.2 fun run hrun => ?_
            rw [runProblems, overrideOf?, if_pos (TextBlock.styleId_eq_zero hoverrides hrun)]
          · rfl
  | _ => rfl

theorem diagnosticsWhere_eq (h : ∀ text, text.hasOverrides = true → splits text = true)
    (entries : List Entry) : diagnosticsWhere splits entries = diagnostics entries :=
  List.flatMap_congr fun entry _ => by rw [problemsWhere_eq h]

end Style

theorem emit_resolveEntryWhere {splits : TextBlock → Bool}
    (h : ∀ text, text.hasOverrides = true → splits text = true) (options : EmitOptions)
    (roots : List Node) :
    emit options (preorder roots) ((preorder roots).map (Style.resolveEntryWhere splits)) =
      emit options (preorder roots) (Style.resolve (preorder roots)) := by
  have hids : ((preorder roots).map (Style.resolveEntryWhere splits)).map (·.nodeId) =
      (preorder roots).map (·.id) := by
    rw [List.map_map]
    rfl
  have hsketches : Sketch.ofForest options
      ((preorder roots).map (Style.resolveEntryWhere splits)) roots = sketchesOf options roots :=
    sketchesWith_congr (fun entry below => by
      rw [Sketch.nodeElement, Style.ownContent_resolveEntryWhere h]
      rfl) none 0 0 roots
  rw [Emission.emit_of_ids_eq options hids, emit_resolve, hsketches]

/-- If all texts with overrides are split, the output does not depend on which others are. -/
theorem compileWhere_eq {splits : TextBlock → Bool}
    (h : ∀ text, text.hasOverrides = true → splits text = true) (tree : SceneTree)
    (options : Options) : compileWhere splits tree options = compileTree tree options := by
  rw [compileTree, compileParsed, compileWhere, walkOf_eq]
  cases rootsOf tree options with
  | error error => rfl
  | ok roots =>
      simp only [Except.map, bind, Except.bind, Walker.rest_start, emit_resolveEntryWhere h,
        Style.diagnosticsWhere_eq h]
      rfl

/-! ## Layers of a forest changed one by one -/

mutual

/-- A node with each layer changed. -/
def Node.mapLayers (f : Layer → Layer) : Node → Node
  | ⟨layer, children⟩ => ⟨f layer, mapLayersIn f children⟩

/-- A forest with each layer changed. -/
def mapLayersIn (f : Layer → Layer) : List Node → List Node
  | [] => []
  | node :: rest => node.mapLayers f :: mapLayersIn f rest

end

section

variable {f : Layer → Layer}

theorem mapLayersIn_cons (layer : Layer) (children rest : List Node) :
    mapLayersIn f (⟨layer, children⟩ :: rest) =
      ⟨f layer, mapLayersIn f children⟩ :: mapLayersIn f rest := by
  rw [mapLayersIn, Node.mapLayers]

theorem isEmpty_mapLayersIn (nodes : List Node) :
    (mapLayersIn f nodes).isEmpty = nodes.isEmpty := by
  cases nodes with
  | nil => rfl
  | cons node rest => rw [mapLayersIn, List.isEmpty_cons, List.isEmpty_cons]

theorem treesIn_mapLayersIn (nodes : List Node) :
    treesIn (mapLayersIn f nodes) = RoseTree.mapIn f (treesIn nodes) := by
  induction nodes using forest_induction with
  | nil => rfl
  | cons layer children rest ihChildren ihRest =>
      rw [mapLayersIn_cons, treesIn_cons, treesIn_cons, RoseTree.mapIn_cons, ihChildren, ihRest]

theorem findIn?_mapLayersIn (h : ∀ layer, (f layer).id = layer.id) (id : String)
    (nodes : List Node) :
    findIn? id (mapLayersIn f nodes) = (findIn? id nodes).map (Node.mapLayers f) := by
  induction nodes using forest_induction with
  | nil => rfl
  | cons layer children rest ihChildren ihRest =>
      rw [mapLayersIn_cons, findIn?, findIn?, Node.find?, Node.find?, h, ihChildren, ihRest,
        Option.map_or]
      by_cases hid : layer.id = id
      · rw [if_pos hid, if_pos hid, Option.map_some, Node.mapLayers]
      · rw [if_neg hid, if_neg hid]

theorem outermostHiddenIn_mapLayersIn (h : ∀ layer, (f layer).visible = layer.visible)
    (nodes : List Node) :
    outermostHiddenIn (mapLayersIn f nodes) = (outermostHiddenIn nodes).map f := by
  induction nodes using forest_induction with
  | nil => rfl
  | cons layer children rest ihChildren ihRest =>
      rw [mapLayersIn_cons, outermostHiddenIn_cons, outermostHiddenIn_cons, h, ihChildren, ihRest,
        List.map_append]
      split
      · rfl
      · rfl

end

/-! ## Overriding styles with the id zero -/

/-- The styles of a table that characters can have: the id zero stands for the base style. -/
def OverrideTable.proper (table : OverrideTable) : OverrideTable :=
  table.filter fun entry => entry.1 != 0

theorem OverrideTable.bne_zero_and_beq {id : Nat} (h : id ≠ 0) (entry : Nat × StyleOverride) :
    (entry.1 != 0 && entry.1 == id) = (entry.1 == id) := by
  by_cases heq : entry.1 = id
  · rw [heq, bne_iff_ne.2 h, Bool.true_and]
  · rw [beq_false_of_ne heq, Bool.and_false]

theorem OverrideTable.get?_proper (table : OverrideTable) {id : Nat} (h : id ≠ 0) :
    table.proper.get? id = table.get? id := by
  rw [get?, get?, proper, List.find?_filter]
  simp only [Bool.decide_and, Bool.decide_eq_true, bne_zero_and_beq h]

theorem OverrideTable.has_proper (table : OverrideTable) {id : Nat} (h : id ≠ 0) :
    table.proper.has id = table.has id := by
  rw [has, has, proper, List.any_filter]
  simp only [bne_zero_and_beq h]

/-- A text without overriding styles that no character can have. -/
def TextBlock.proper (text : TextBlock) : TextBlock :=
  { text with overrides := text.overrides.proper }

/-- What a node is, without overriding styles that no character can have. -/
def NodeKind.proper : NodeKind → NodeKind
  | .text block => .text block.proper
  | kind => kind

/-- A layer without overriding styles that no character can have. -/
def Layer.proper (layer : Layer) : Layer := { layer with kind := layer.kind.proper }

/-- A layer is that of a text, or has no overriding styles. -/
@[elab_as_elim]
theorem Layer.proper_cases {motive : Layer → Prop}
    (text : ∀ (layer : Layer) (block : TextBlock), motive { layer with kind := .text block })
    (other : ∀ layer : Layer, layer.proper = layer → motive layer) (layer : Layer) :
    motive layer := by
  cases hkind : layer.kind with
  | text block =>
      have htext := text layer block
      rwa [← hkind] at htext
  | _ =>
      have hkept : layer.kind.proper = layer.kind := by
        rw [hkind]
        rfl
      exact other layer (by rw [proper, hkept])

/-- A scene without overriding styles that no character can have. -/
def SceneTree.proper (tree : SceneTree) : SceneTree :=
  { tree with roots := mapLayersIn Layer.proper tree.roots }

/-- A style that no character can have has no part in the runs. -/
theorem TextBlock.runs_proper (text : TextBlock) : text.proper.runs = text.runs := by
  refine runs_congr rfl fun i _ => ?_
  have hchosen : ∀ id, (if text.overrides.proper.has id then id else 0) =
      if text.overrides.has id then id else 0 := by
    intro id
    by_cases hid : id = 0
    · rw [hid, ite_self, ite_self]
    · rw [OverrideTable.has_proper _ hid]
  exact hchosen _

namespace Style

theorem overrideOf?_proper (text : TextBlock) (run : Run) :
    overrideOf? text.proper run = overrideOf? text run := by
  unfold overrideOf?
  split
  · rfl
  · rename_i hid
    exact OverrideTable.get?_proper _ hid

theorem resolveRuns_proper (layer : Layer) (text : TextBlock) :
    resolveRuns layer.proper text.proper = resolveRuns layer text := by
  have hrun : resolveRun layer.proper text.proper = resolveRun layer text := by
    funext run
    rw [resolveRun, resolveRun, overrideOf?_proper]
    rfl
  rw [resolveRuns, resolveRuns, TextBlock.runs_proper, hrun]
  rfl

theorem textProblems_proper (layer : Layer) (text : TextBlock) :
    textProblems layer.proper text.proper = textProblems layer text := by
  have hrun : runProblems text.proper = runProblems text := by
    funext run
    rw [runProblems, runProblems, overrideOf?_proper]
  rw [textProblems, textProblems, TextBlock.runs_proper, hrun]
  rfl

theorem problems_proper (layer : Layer) : problems layer.proper = problems layer := by
  cases layer using Layer.proper_cases with
  | text layer block => exact textProblems_proper _ block
  | other layer h => rw [h]

theorem placement_proper (parent : Option Layer) (layer : Layer) :
    Placement.of (parent.map Layer.proper) layer.proper = Placement.of parent layer := by
  cases parent with
  | none => rfl
  | some parent =>
      cases parent using Layer.proper_cases with
      | text parent block => rfl
      | other parent h =>
          rw [Option.map_some, h]
          rfl

theorem record_proper (parent : Option Layer) (depth index : Nat) (layer : Layer)
    (children : List Node) :
    record (.ofNode (parent.map Layer.proper) depth index
        ⟨layer.proper, mapLayersIn Layer.proper children⟩) =
      record (.ofNode parent depth index ⟨layer, children⟩) := by
  have hplacement := placement_proper parent layer
  have hgeometry : geometry (.ofNode (parent.map Layer.proper) depth index
      ⟨layer.proper, mapLayersIn Layer.proper children⟩) =
        geometry (.ofNode parent depth index ⟨layer, children⟩) := by
    rw [geometry_congr (isEmpty_mapLayersIn children)]
    unfold geometry Entry.ofNode
    dsimp only
    rw [hplacement]
    cases layer using Layer.proper_cases with
    | text layer block => rfl
    | other layer h => rw [h]
  rw [record, record, hgeometry]
  cases layer using Layer.proper_cases with
  | text layer block => rfl
  | other layer h =>
      rw [h]
      rfl

/-- A style that no character can have has no part in the style of a node. -/
theorem resolveEntry_proper (parent : Option Layer) (depth index : Nat) (layer : Layer)
    (children : List Node) :
    resolveEntry (.ofNode (parent.map Layer.proper) depth index
        ⟨layer.proper, mapLayersIn Layer.proper children⟩) =
      resolveEntry (.ofNode parent depth index ⟨layer, children⟩) := by
  rw [resolveEntry, resolveEntry, record_proper]
  cases layer using Layer.proper_cases with
  | text layer block => exact congrArg (Resolved.mk layer.id _) (resolveRuns_proper _ block)
  | other layer h =>
      rw [h]
      rfl

theorem diagnostics_eq_flatMap_layers (entries : List Entry) :
    diagnostics entries = (entries.map Entry.layer).flatMap fun layer =>
      (problems layer).map (Problem.diagnostic layer.id) := by
  rw [diagnostics, List.flatMap_map]

theorem diagnostics_proper (roots : List Node) :
    diagnostics (preorder (mapLayersIn Layer.proper roots)) = diagnostics (preorder roots) := by
  rw [diagnostics_eq_flatMap_layers, diagnostics_eq_flatMap_layers, preorder, preorder,
    map_layer_entriesIn, map_layer_entriesIn, treesIn_mapLayersIn, RoseTree.labelsIn_mapIn,
    List.flatMap_map]
  exact List.flatMap_congr fun layer _ => by rw [problems_proper]; rfl

end Style

theorem Sketch.nodeElement_proper (options : EmitOptions) (layer : Layer) (style : Resolved)
    (below : List Sketch) :
    nodeElement options layer.proper style below = nodeElement options layer style below := by
  cases layer using Layer.proper_cases with
  | text layer block => rfl
  | other layer h => rw [h]

theorem sketchesIn_proper (options : EmitOptions) (parent : Option Layer) (depth index : Nat)
    (nodes : List Node) :
    sketchesIn options (parent.map Layer.proper) depth index (mapLayersIn Layer.proper nodes) =
      sketchesIn options parent depth index nodes := by
  induction nodes using forest_induction generalizing parent depth index with
  | nil => rfl
  | cons layer children rest ihChildren ihRest =>
      have hchildren := ihChildren (some layer) (depth + 1) 0
      rw [Option.map_some] at hchildren
      rw [mapLayersIn_cons, sketchesIn_cons, sketchesIn_cons, Style.resolveEntry_proper,
        Sketch.nodeElement_proper, hchildren, ihRest]
      rfl

theorem omissions_proper (options : EmitOptions) (roots : List Node) :
    Emission.omissions options (mapLayersIn Layer.proper roots) =
      Emission.omissions options roots := by
  have hvisible : ∀ layer : Layer, layer.proper.visible = layer.visible := fun _ => rfl
  rw [Emission.omissions, Emission.omissions, outermostHiddenIn_mapLayersIn hvisible, List.map_map]
  rfl

theorem rootsOf_proper (tree : SceneTree) (options : Options) :
    rootsOf tree.proper options = (rootsOf tree options).map (mapLayersIn Layer.proper) := by
  have hid : ∀ layer : Layer, layer.proper.id = layer.id := fun _ => rfl
  unfold rootsOf
  cases options.rootNode with
  | none => rfl
  | some id =>
      have hfind : tree.proper.find? id = (tree.find? id).map (Node.mapLayers Layer.proper) :=
        findIn?_mapLayersIn hid id tree.roots
      dsimp only
      rw [hfind]
      cases tree.find? id <;> rfl

theorem outputOf_proper (options : Options) (roots : List Node) :
    outputOf [] options (mapLayersIn Layer.proper roots) = outputOf [] options roots := by
  have hsketches : sketchesOf options.emitOptions (mapLayersIn Layer.proper roots) =
      sketchesOf options.emitOptions roots := sketchesIn_proper _ none 0 0 roots
  rw [outputOf, outputOf, hsketches, Style.diagnostics_proper, omissions_proper]

/-- Overriding styles that no character can have have no part in the output. -/
theorem compileTree_proper (tree : SceneTree) (options : Options) :
    compileTree tree.proper options = compileTree tree options := by
  rw [compileTree, compileTree, compileParsed_eq, compileParsed_eq, rootsOf_proper]
  cases rootsOf tree options with
  | error error => rfl
  | ok roots => exact congrArg Except.ok (outputOf_proper options roots)

/-! ## The shortcut -/

/-- A text that gives its characters no id other than zero is one run in the base style, or none if
it is empty. Splitting such texts into runs as well as the others, which a scene's compilation does
not do, changes nothing of the output; and scenes that differ in overriding styles with the id zero
alone have the same output. -/
theorem override_shortcut_invisible :
    (∀ text : TextBlock, text.hasOverrides = false →
      text.runs = if text.characters.isEmpty then [] else [⟨0, text.characters.toList, 0⟩]) ∧
    (∀ tree options, compileWhere TextBlock.hasOverrides tree options = compileTree tree options) ∧
    (∀ tree options, compileWhere (fun _ => true) tree options = compileTree tree options) ∧
    ∀ tree tree' : SceneTree, tree.proper = tree'.proper →
      ∀ options, compileTree tree options = compileTree tree' options := by
  refine ⟨fun text => text.runs_of_no_overrides, compileWhere_eq fun _ h => h,
    compileWhere_eq fun _ _ => rfl, fun tree tree' h options => ?_⟩
  rw [← compileTree_proper tree, h, compileTree_proper tree']

/-- A text whose one range is empty, with a style for the id zero whose fill cannot be drawn. -/
theorem override_shortcut_invisible_zero_style :
    let video : Paint := ⟨.unsupported "VIDEO", 1, true⟩
    let own : StyleOverride := ⟨none, none, none, none, none, none, none, none, some [video]⟩
    let text : TextBlock := ⟨"Hi", .ofFont "Inter" 400 16, [0], [(0, own)], [⟨1, 1, 7⟩]⟩
    let scene (text : TextBlock) : SceneTree := ⟨none, [⟨Layer.ofKind "t" (.text text), []⟩]⟩
    text.hasOverrides = false ∧ text.runs = [⟨0, ['H', 'i'], 0⟩] ∧
      compileWhere (fun _ => true) (scene text) .default = compileTree (scene text) .default ∧
      (scene text).proper = (scene { text with overrides := [] }).proper ∧
      compileTree (scene text) .default =
        compileTree (scene { text with overrides := [] }) .default := by
  intro video own text scene
  obtain ⟨hruns, -, hsplit, hzero⟩ := override_shortcut_invisible
  have hnone : text.hasOverrides = false := by decide
  have hproper : (scene text).proper = (scene { text with overrides := [] }).proper := rfl
  have hone : text.runs = [⟨0, ['H', 'i'], 0⟩] := (hruns text hnone).trans (by decide)
  exact ⟨hnone, hone, hsplit (scene text) .default, hproper, hzero _ _ hproper .default⟩

end SceneMarkup
