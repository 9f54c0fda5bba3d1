/-
  SceneMarkup/Proofs/Markup/Lossless.lean --- documents are rendered without loss.

  WHAT THIS FILE IS FOR.  The markup of a document is made of blocks: a node holds either
  a text of its own or other nodes, since in an accepted document only frames have
  children.  So its text is read back, whatever the ids, type tags, class prefixes and
  texts of the document are.
-/
import SceneMarkup.Proofs.Markup.Rendered
import SceneMarkup.Proofs.Selection
import SceneMarkup.Proofs.TextContent

set_option autoImplicit false

namespace SceneMarkup

open Markup (Inline Block)

/-! ## Nodes with children -/

mutual

/-- Only frames have children, in a tree. -/
def Node.Framed : Node → Prop
  | ⟨layer, children⟩ =>
      (children ≠ [] → layer.kind.frame?.isSome = true) ∧ FramedIn children

/-- Only frames have children, in a forest. -/
def FramedIn : List Node → Prop
  | [] => True
  | node :: rest => node.Framed ∧ FramedIn rest

end

theorem framedIn_of_entriesIn {parent : Option Layer} {depth index : Nat} {nodes : List Node}
    (h : ∀ entry ∈ entriesIn parent depth index nodes,
      entry.node.children ≠ [] → entry.layer.kind.frame?.isSome = true) : FramedIn nodes := by
  induction nodes using forest_induction generalizing parent depth index with
  | nil => exact trivial
  | cons layer children rest ihChildren ihRest =>
      rw [entriesIn_cons, List.forall_mem_cons, List.forall_mem_append] at h
      exact ⟨⟨h.1, ihChildren h.2.1⟩, ihRest h.2.2⟩

theorem framedIn_of_rootsOf {tree : SceneTree} (h : tree.WellFormed) {options : Options}
    {roots : List Node} (hroots : rootsOf tree options = .ok roots) : FramedIn roots :=
  framedIn_of_entriesIn (h.of_rootsOf hroots none).isSome_frame?

/-! ## Blocks -/

/-- The names of the attributes that tell of a node. -/
def attributeNames : List String := ["data-shape", "data-placeholder", "data-node-id"]

theorem mem_attributeNames {layer : Layer} {emitNodeIds : Bool} :
    ∀ a ∈ Sketch.nodeAttributes emitNodeIds layer, a.1 ∈ attributeNames := by
  unfold Sketch.nodeAttributes
  rw [List.forall_mem_append]
  refine ⟨?_, ?_⟩
  · split <;> simp [attributeNames]
  · split <;> simp [attributeNames]

theorem isName_nodeName (kind : NodeKind) :
    Style.IsName (Sketch.nodeName kind) ∧ Sketch.nodeName kind ≠ "br" := by
  unfold Sketch.nodeName
  split <;> decide

/-- The tag of a node can be read, whatever its class and the values of its attributes are. -/
theorem readable_nodeTag (layer : Layer) (emitNodeIds : Bool) (given : Option String) :
    Tag.Readable ⟨Sketch.nodeName layer.kind, given, Sketch.nodeAttributes emitNodeIds layer⟩ := by
  have hnames : ∀ name ∈ attributeNames,
      Style.IsName name ∧ name ≠ Markup.classKey .html ∧ name ≠ Markup.classKey .jsx := by
    decide
  refine ⟨(isName_nodeName layer.kind).1, (isName_nodeName layer.kind).2, ?_, ?_⟩
  · intro a ha
    exact (hnames a.1 (mem_attributeNames a ha)).1
  · intro a ha flavor
    obtain ⟨-, hhtml, hjsx⟩ := hnames a.1 (mem_attributeNames a ha)
    cases flavor with
    | html => exact hhtml
    | jsx => exact hjsx

theorem readable_spanTag (given : Option String) : Tag.Readable ⟨"span", given, []⟩ where
  isName := (by decide : Style.IsName "span")
  ne_break := (by decide : "span" ≠ "br")
  isName_of_mem := by simp
  ne_class_of_mem := by simp

section

variable (classOf : Record → Option String)

theorem inline_markup_ofRun (layer : Layer) {resolved : ResolvedRun}
    (h : resolved.run.text ≠ "") : Inline ((Sketch.ofRun layer resolved).markup classOf) := by
  rw [Sketch.ofRun]
  split
  · exact .text h
  · refine .span (readable_spanTag _) rfl ?_
    simpa [Sketch.markupIn, Sketch.markup] using Inline.text h

/-- What a node holds of its own is rendered within a line. -/
theorem inline_markup_ownContent (entry : Entry) :
    ∀ m ∈ Sketch.markupIn classOf (Sketch.ownContent entry.layer (Style.resolveEntry entry)),
      Inline m := by
  cases hkind : entry.layer.kind with
  | text text =>
      rw [Sketch.ownContent_resolveEntry hkind]
      refine Sketch.forall_markup_ofText classOf _ .text fun resolved hresolved => ?_
      refine inline_markup_ofRun classOf _ ?_
      have hrun : resolved.run ∈ text.runs := by
        rw [← Style.map_run_resolveRuns (List.ne_nil_of_mem hresolved)]
        exact List.mem_map_of_mem hresolved
      have hne := TextBlock.characters_ne_nil_of_mem_runs hrun
      simpa [Run.text] using hne
  | _ => simp [Sketch.ownContent, hkind, Sketch.markupIn]

/-- A frame holds nothing of its own. -/
theorem ownContent_of_frame {layer : Layer} (h : layer.kind.frame?.isSome = true)
    (style : Resolved) : Sketch.ownContent layer style = [] := by
  unfold Sketch.ownContent
  split
  · rename_i hkind
    rw [hkind] at h
    cases h
  · rfl

/-- The markup of a forest is made of blocks, if only frames have children. -/
theorem block_markup_sketchesIn (options : EmitOptions) {nodes : List Node} (h : FramedIn nodes)
    (parent : Option Layer) (depth index : Nat) :
    ∀ m ∈ Sketch.markupIn classOf (sketchesIn options parent depth index nodes), Block m := by
  induction nodes using forest_induction generalizing parent depth index with
  | nil => simp [sketchesIn, Sketch.ofForest, Sketch.markupIn]
  | cons layer children rest ihChildren ihRest =>
      obtain ⟨⟨hframe, hchildren⟩, hrest⟩ := h
      rw [sketchesIn_cons, Sketch.markupIn_append, List.forall_mem_append]
      refine ⟨?_, ihRest hrest parent depth (index + 1)⟩
      split
      · simp [Sketch.markupIn]
      · rw [Sketch.markupIn, Sketch.markupIn, List.forall_mem_singleton, Sketch.nodeElement,
          Sketch.markup, Sketch.markupIn_append]
        cases children with
        | nil =>
            rw [sketchesIn, Sketch.ofForest, Sketch.markupIn, List.append_nil]
            exact .line (readable_nodeTag _ _ _) (Sketch.nodeName_ne_span _)
              (inline_markup_ownContent classOf (.ofNode parent depth index ⟨layer, []⟩))
        | cons child others =>
            rw [ownContent_of_frame (hframe (List.cons_ne_nil child others)), Sketch.markupIn,
              List.nil_append]
            exact .box (readable_nodeTag _ _ _) (Sketch.nodeName_ne_span _)
              (ihChildren hchildren (some layer) (depth + 1) 0)

end

/-! ## Documents -/

/-- The markup of an accepted document is made of blocks. -/
theorem block_of_compileValue {v : Json.Value} {options : Options} {out : Output}
    (h : compileValue v options = .ok out) : ∀ m ∈ out.markup, Block m := by
  rw [compileValue] at h
  cases hparsed : Document.ofValue v with
  | error error =>
      rw [hparsed] at h
      cases h
  | ok parsed =>
      rw [hparsed] at h
      obtain ⟨roots, hroots, rfl⟩ := exists_roots_of_compileParsed h
      have hframed := framedIn_of_rootsOf (Document.accepted_of_ofValue hparsed).wellFormed hroots
      exact block_markup_sketchesIn _ options.emitOptions hframed none 0 0

/-- Nothing is lost when a document is rendered, in either flavor and whatever its ids, type tags,
class prefixes and texts are: the text is read as the markup, up to how its texts are cut, with the
tags that the markup has. Hence outputs that differ by more are not rendered alike. -/
theorem render_lossless (v : Json.Value) (options : Options) (out : Output)
    (h : compileValue v options = .ok out) (flavor : Flavor) :
    Markup.read flavor (Markup.render flavor out.markup) = some (Markup.merged out.markup) ∧
      Markup.tagsIn (Markup.merged out.markup) = Markup.tagsIn out.markup ∧
      ∀ v' options' out', compileValue v' options' = .ok out' →
        Markup.render flavor out'.markup = Markup.render flavor out.markup →
          Markup.merged out'.markup = Markup.merged out.markup := by
  have hread := Markup.read_render flavor (block_of_compileValue h)
  refine ⟨hread, Markup.tagsIn_merged _, ?_⟩
  intro v' options' out' h' hsame
  have hread' := Markup.read_render flavor (block_of_compileValue h')
  rw [hsame, hread, Option.some.injEq] at hread'
  exact hread'.symm

/-- A frame with a text and a gadget, whose ids, type tag and characters look like markup. -/
def hostile : Json.Value :=
  .object [("children", .array
    [.object [("absoluteBoundingBox", Document.boxOf 80 40),
      ("children", .array
        [.object [("absoluteBoundingBox", Document.boxOf 30 10),
            ("characters", .string "</p>\r\n&lt;\x7b\r"),
            ("characterStyleOverrides", .array [.ofInt 1, .ofInt 1, .ofInt 1]),
            ("id", .string "\"><br>"),
            ("style", .object [("fontFamily", .string "Inter"), ("fontSize", .ofInt 16),
              ("fontWeight", .ofInt 400)]),
            ("styleOverrideTable", .object [("1", .object [("italic", .bool true)])]),
            ("type", .string "TEXT")],
          .object [("absoluteBoundingBox", Document.boxOf 5 5), ("id", .string "&quot;"),
            ("type", .string "</div>\n<div>")]]),
      ("id", .string "frame"), ("type", .string "FRAME")]]),
    ("type", .string "DOCUMENT")]

theorem render_lossless_hostile :
    let options : Options :=
      { Options.default with classStart := some "x\">", emitNodeIds := true }
    ∃ out, compileValue hostile options = .ok out ∧ ∃ roots,
      Markup.read .jsx (Markup.render .jsx out.markup) = some roots ∧
        Markup.tagsIn roots = [⟨"div", some "x\">frame", [("data-node-id", "frame")]⟩,
          ⟨"p", some "x\">text", [("data-node-id", "\"><br>")]⟩,
          ⟨"span", some "x\">run", []⟩,
          ⟨"div", some "x\">placeholder",
            [("data-placeholder", "</div>\n<div>"), ("data-node-id", "&quot;")]⟩] ∧
        Markup.textContentIn roots = "</p>\n&lt;\x7b\n" := by
  intro options
  obtain ⟨hread, -, -⟩ := render_lossless hostile options _ rfl .jsx
  refine ⟨_, rfl, _, hread, ?_⟩
  decide +kernel

end SceneMarkup
