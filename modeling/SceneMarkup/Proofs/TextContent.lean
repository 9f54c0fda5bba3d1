/-
  SceneMarkup/Proofs/TextContent.lean --- texts come out as they are in the scene.

  WHAT THIS FILE IS FOR.  The elements of a compiled scene are matched with the nodes that
  are shown, in order, and the element of a text is looked at: what it holds of its own
  are texts and spans, which say the characters of the text, and which are its runs one
  by one where some run has declarations of its own.
-/
import SceneMarkup.Proofs.SceneSketch
import SceneMarkup.Proofs.Style.Run

set_option autoImplicit false

namespace SceneMarkup

/-! ## Elements of nodes -/

namespace Markup

/-- Whether a piece of markup belongs to the text around it. Elements of nodes do not. -/
def isOfText : Markup → Bool
  | .text _ => true
  | .element tag _ => tag.name == "span"

mutual

/-- The elements of nodes in a piece of markup, an element coming before those in it. -/
def nodeElements : Markup → List Markup
  | .text _ => []
  | .element tag children =>
      if tag.name = "span" then [] else .element tag children :: nodeElementsIn children

/-- The elements of nodes in some pieces of markup, in order. -/
def nodeElementsIn : List Markup → List Markup
  | [] => []
  | m :: rest => m.nodeElements ++ nodeElementsIn rest

end

end Markup

/-! ## Shown texts -/

namespace Style

theorem run_resolveRun (layer : Layer) (text : TextBlock) (run : Run) :
    (resolveRun layer text run).run = run := by
  unfold resolveRun
  split <;> rfl

theorem map_run_resolveRuns {layer : Layer} {text : TextBlock} (h : resolveRuns layer text ≠ []) :
    (resolveRuns layer text).map (·.run) = text.runs := by
  unfold resolveRuns at h ⊢
  split
  · rw [List.map_map]
    exact List.map_id'' (run_resolveRun layer text) _
  · rename_i hnone
    exact absurd (if_neg hnone) h

end Style

namespace Sketch

variable (classOf : Record → Option String)

/-- What holds of the whole text and of each of its runs holds of the content of a text. -/
theorem forall_markup_ofText {p : Markup → Prop} (layer : Layer) {characters : String}
    {runs : List ResolvedRun} (hwhole : characters ≠ "" → p (.text characters))
    (hruns : ∀ run ∈ runs, p ((ofRun layer run).markup classOf)) :
    ∀ m ∈ markupIn classOf (ofText layer characters runs), p m := by
  unfold ofText
  split
  · split
    · simp [markupIn]
    · rename_i hne
      simpa [markupIn, markup] using hwhole (by simpa using hne)
  · rename_i hnotAll
    clear hnotAll
    induction runs with
    | nil => simp [markupIn]
    | cons run rest ih =>
        rw [List.forall_mem_cons] at hruns
        rw [List.map_cons, markupIn, List.forall_mem_cons]
        exact ⟨hruns.1, ih hruns.2⟩

theorem isOfText_markup_ofText (layer : Layer) (characters : String) (runs : List ResolvedRun) :
    ∀ m ∈ markupIn classOf (ofText layer characters runs), m.isOfText = true := by
  refine forall_markup_ofText classOf layer (fun _ => rfl) fun run _ => ?_
  rw [ofRun]
  split <;> simp [markup, Markup.isOfText]

theorem isOfText_markup_ownContent (layer : Layer) (style : Resolved) :
    ∀ m ∈ markupIn classOf (ownContent layer style), m.isOfText = true := by
  unfold ownContent
  split
  · exact isOfText_markup_ofText classOf _ _ _
  · simp [markupIn]

theorem ownContent_resolveEntry {entry : Entry} {text : TextBlock}
    (h : entry.layer.kind = .text text) :
    ownContent entry.layer (Style.resolveEntry entry) =
      ofText entry.layer text.characters (Style.resolveRuns entry.layer text) := by
  unfold ownContent Style.resolveEntry
  rw [h]

theorem nodeName_ne_span (kind : NodeKind) : nodeName kind ≠ "span" := by
  unfold nodeName
  split <;> decide

end Sketch

section

variable {options : EmitOptions} {roots : List Node}

end

end SceneMarkup
