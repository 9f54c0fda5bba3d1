/-
  SceneMarkup/Proofs/Document/Gradients.lean --- the gradients of a document, up to its
  stylesheet.

  WHAT THIS FILE IS FOR.  The order of the stops of a gradient is asked for twice: when a
  document is read, of the positions that it states, and when a style is made, of those
  that were moved into the unit interval.  What passes the first passes the second, so
  that of the two problems of a gradient only missing stops are left for the stylesheet,
  and every remark on the order of stops is one that was made while reading.
-/
import SceneMarkup.Proofs.Compile
import SceneMarkup.Proofs.Document.Paints
import SceneMarkup.Proofs.Document.WellFormed
import SceneMarkup.Proofs.Selection
import SceneMarkup.Proofs.Style.Fill

set_option autoImplicit false

namespace SceneMarkup

open RoseTree (labelsIn mapIn subtreesIn)

/-! ## Problems of gradients -/

namespace Style

/-- What is wrong with a gradient, if the problem is one of a gradient. -/
def Problem.gradient? : Problem → Option GradientProblem
  | .gradientFill problem => some problem
  | .gradientStroke problem => some problem
  | _ => none

/-- Problems about which gradients of `paints` can be asked. -/
def Blames (paints : List Paint) (problem : Problem) : Prop :=
  ∀ wrong ∈ problem.gradient?, ∃ gradient ∈ paints.filterMap Paint.gradient?, ∃ opacity,
    gradientValue gradient opacity = .error wrong

theorem mem_gradients_of_ink {paints : List Paint} {paint : Paint} {gradient : Gradient}
    (hpaint : paint ∈ paints) (hink : paint.ink = .gradient gradient) :
    gradient ∈ paints.filterMap Paint.gradient? :=
  List.mem_filterMap.2 ⟨paint, hpaint, by rw [Paint.gradient?, hink]⟩

theorem Lacks.exists_gradientValue {paint : Paint} {problem : Problem} {wrong : GradientProblem}
    (h : Lacks paint problem) (hwrong : problem.gradient? = some wrong) :
    ∃ gradient, paint.ink = .gradient gradient ∧
      ∀ opacity, gradientValue gradient opacity = .error wrong := by
  cases h with
  | style ink => cases hwrong
  | stops ink stops =>
      cases hwrong
      exact ⟨_, ink, gradientValue_of_noStops stops⟩
  | order ink stops unordered =>
      cases hwrong
      exact ⟨_, ink, gradientValue_of_unordered stops unordered⟩

theorem fillProblems_blame (fills : List Paint) :
    ∀ problem ∈ fillProblems fills, Blames fills problem := by
  intro problem hproblem wrong hwrong
  obtain ⟨result, hresult, hfailure⟩ := List.mem_filterMap.1 hproblem
  obtain ⟨paint, hpaint, rfl⟩ := List.mem_map.1 hresult
  rcases fillLayer_cases paint with ⟨layer, hlayer, -⟩ | ⟨other, hother, hlacks⟩
  · rw [hlayer] at hfailure
    cases hfailure
  · rw [hother] at hfailure
    cases hfailure
    obtain ⟨gradient, hink, hvalue⟩ := hlacks.exists_gradientValue hwrong
    exact ⟨gradient, mem_gradients_of_ink (List.mem_of_mem_filter hpaint) hink, 1, hvalue 1⟩

theorem strokeOf_blames {text : Bool} {weight : Float} {paint : Paint} {problem : Problem}
    (h : strokeOf text weight paint = .error problem) {strokes : List Paint}
    (hpaint : paint ∈ strokes) : Blames strokes problem := by
  intro wrong hwrong
  unfold strokeOf at h
  split at h
  · cases h
  · rename_i gradient hink
    split at h
    · cases h
      cases hwrong
    · split at h
      · cases h
      · rename_i other hvalue
        cases h
        cases hwrong
        exact ⟨gradient, mem_gradients_of_ink hpaint hink, paint.opacity, hvalue⟩
  · cases h
    cases hwrong
  · cases h
    cases hwrong

theorem strokeProblems_blame (text : Bool) (weight : Float) (strokes : List Paint) :
    ∀ problem ∈ strokeProblems text weight strokes, Blames strokes problem := by
  intro problem hproblem
  rw [strokeProblems, List.mem_append] at hproblem
  rcases hproblem with hmany | hlowest
  · split at hmany
    · rw [List.mem_singleton.1 hmany]
      exact nofun
    · cases hmany
  · rw [Option.mem_toList] at hlowest
    unfold lowestStroke at hlowest
    split at hlowest
    · cases hlowest
    · rename_i first rest hvisible
      have hfirst : first ∈ strokes :=
        List.mem_of_mem_filter (hvisible ▸ List.mem_cons_self : first ∈ strokes.filter (·.visible))
      split at hlowest
      · cases hlowest
      · cases hstroke : strokeOf text weight first with
        | ok declarations =>
            rw [hstroke] at hlowest
            cases hlowest
        | error other =>
            rw [hstroke] at hlowest
            cases hlowest
            exact strokeOf_blames hstroke hfirst

theorem gradient?_of_mem_effectProblems {text : Bool} {effects : List SceneMarkup.Effect}
    {problem : Problem} (h : problem ∈ effectProblems text effects) : problem.gradient? = none := by
  obtain ⟨target, htarget, hproblem⟩ := List.mem_filterMap.1 h
  obtain ⟨effect, -, rfl⟩ := List.mem_map.1 htarget
  cases hkind : effect.kind with
  | innerShadow shadow =>
      rw [hkind] at hproblem
      cases text with
      | true => cases hproblem; rfl
      | false => cases hproblem
  | unsupported tag =>
      rw [hkind] at hproblem
      cases hproblem
      rfl
  | _ =>
      rw [hkind] at hproblem
      cases hproblem

theorem runProblems_blame {layer : Layer} {text : TextBlock} (hkind : layer.kind = .text text)
    {run : Run} {problem : Problem} (h : problem ∈ runProblems text run) :
    ∃ paints ∈ layer.paintLists, Blames paints problem := by
  unfold runProblems at h
  split at h
  · rename_i own hown
    cases hfills : own.fills with
    | none =>
        rw [hfills] at h
        cases h
    | some fills =>
        rw [hfills] at h
        have hmem : fills ∈ text.overrides.filterMap (·.2.fills) := by
          unfold overrideOf? at hown
          split at hown
          · cases hown
          · obtain ⟨entry, hfind, rfl⟩ := Option.map_eq_some_iff.1 hown
            exact List.mem_filterMap.2 ⟨entry, List.mem_of_find?_eq_some hfind, hfills⟩
        refine ⟨fills, ?_, fillProblems_blame fills problem h⟩
        rw [Layer.paintLists, hkind]
        exact List.mem_cons_of_mem _ (List.mem_cons_of_mem _ hmem)
  · cases h

/-- A problem of a gradient is about one of the gradients of a list of paints of the layer. -/
theorem exists_blamed {layer : Layer} {problem : Problem} (h : problem ∈ problems layer) :
    problem.gradient? = none ∨ ∃ paints ∈ layer.paintLists, Blames paints problem := by
  have hfills : layer.fills ∈ layer.paintLists := List.mem_cons_self
  have hstrokes : layer.strokes ∈ layer.paintLists :=
    List.mem_cons_of_mem _ List.mem_cons_self
  have hbox : ∀ text, problem ∈ fillProblems layer.fills ++
      strokeProblems text layer.strokeWeight layer.strokes ++ effectProblems text layer.effects →
      problem.gradient? = none ∨ ∃ paints ∈ layer.paintLists, Blames paints problem := by
    intro text hmem
    rw [List.mem_append, List.mem_append] at hmem
    rcases hmem with (hfill | hstroke) | heffect
    · exact .inr ⟨_, hfills, fillProblems_blame _ problem hfill⟩
    · exact .inr ⟨_, hstrokes, strokeProblems_blame _ _ _ problem hstroke⟩
    · exact .inl (gradient?_of_mem_effectProblems heffect)
  unfold problems at h
  cases hkind : layer.kind with
  | text text =>
      rw [hkind] at h
      rcases List.mem_append.1 h with hown | hruns
      · exact hbox true hown
      · split at hruns
        · obtain ⟨run, -, hrun⟩ := List.mem_flatMap.1 hruns
          exact .inr (runProblems_blame hkind hrun)
        · cases hruns
  | placeholder tag =>
      rw [hkind] at h
      cases h
  | frame frame =>
      rw [hkind] at h
      exact hbox false h
  | instanceOf componentId frame =>
      rw [hkind] at h
      exact hbox false h
  | shape shape =>
      rw [hkind] at h
      exact hbox false h

/-- A problem of a gradient is about one of the gradients of the layer. -/
theorem exists_gradient_of_mem_problems {layer : Layer} {problem : Problem}
    {wrong : GradientProblem} (h : problem ∈ problems layer)
    (hwrong : problem.gradient? = some wrong) :
    ∃ gradient ∈ layer.gradients, ∃ opacity, gradientValue gradient opacity = .error wrong := by
  rcases exists_blamed h with hnone | ⟨paints, hpaints, hblames⟩
  · rw [hnone] at hwrong
    cases hwrong
  · obtain ⟨gradient, hgradient, hvalue⟩ := hblames wrong hwrong
    exact ⟨gradient, List.mem_flatMap.2 ⟨paints, hpaints, hgradient⟩, hvalue⟩

end Style

/-! ## Gradients in order -/

theorem Gradient.Ordered.isMonotone {gradient : Gradient} (h : gradient.Ordered) :
    gradient.isMonotone = true :=
  nonDecreasing_of_pairwise_le h.pairwise

/-- Of a gradient whose stops are in order nothing but its stops can be missing. -/
theorem Gradient.Ordered.eq_noStops {gradient : Gradient} (h : gradient.Ordered) {opacity : Float}
    {wrong : Style.GradientProblem}
    (hwrong : Style.gradientValue gradient opacity = .error wrong) :
    wrong = .noStops ∧ gradient.stops = [] := by
  by_cases hstops : gradient.stops = []
  · rw [Style.gradientValue_of_noStops hstops] at hwrong
    cases hwrong
    exact ⟨rfl, hstops⟩
  · obtain ⟨text, htext⟩ := Style.exists_gradientValue hstops h.isMonotone opacity
    rw [htext] at hwrong
    cases hwrong

/-- A problem that is not about the order of stops is not worded as one that is. -/
theorem statesDisorder_diagnostic {problem : Style.Problem}
    (h : ∀ wrong ∈ problem.gradient?, wrong = .noStops) (id : String) :
    (problem.diagnostic id).statesDisorder = false := by
  cases problem with
  | gradientFill wrong =>
      rw [h wrong rfl]
      exact Document.statesDisorder_of_message id (by decide +kernel)
  | gradientStroke wrong =>
      rw [h wrong rfl]
      exact Document.statesDisorder_of_message id (by decide +kernel)
  | unsupportedFill tag => exact Document.statesDisorder_warning id _ (by decide +kernel)
  | unsupportedStroke tag => exact Document.statesDisorder_warning id _ (by decide +kernel)
  | unsupportedEffect tag => exact Document.statesDisorder_warning id _ (by decide +kernel)
  | manyStrokes => exact Document.statesDisorder_of_message id (by decide +kernel)
  | gradientTextStroke => exact Document.statesDisorder_of_message id (by decide +kernel)
  | imageStroke => exact Document.statesDisorder_of_message id (by decide +kernel)
  | innerTextShadow => exact Document.statesDisorder_of_message id (by decide +kernel)

namespace Document

open Json (Fields Value)

/-! ## Numbers of a document -/

theorem numeric_field {fields : Fields} (h : (Value.object fields).Numeric) {key : String}
    {v : Value} (hget : fields.get? key = some v) : v.Numeric := by
  cases h with
  | object _ hfields => exact hfields _ (Json.Fields.mem_of_get? hget)

theorem numeric_childrenOf {fields : Fields} (h : (Value.object fields).Numeric) :
    ∀ child ∈ childrenOf fields, child.Numeric := by
  intro child hchild
  unfold childrenOf childrenOf? at hchild
  split at hchild
  · cases hchild
  · cases hchild
  · rename_i items hget
    cases numeric_field h hget with
    | array _ hitems => exact hitems child hchild
  · cases hchild

/-- The objects of a node whose numbers are numbers are of this kind, too. -/
theorem numeric_sceneObject {v : Value} (hv : v.Numeric) :
    ∀ object ∈ subtreesIn [sceneObject v], (Value.object object.label).Numeric := by
  induction v using node_induction with
  | other v hother =>
      rw [sceneObject_of_not_object hother]
      exact List.forall_mem_singleton.2 (.object [] (List.forall_mem_nil _))
  | object fields ih =>
      rw [sceneObject_object, RoseTree.subtreesIn_singleton, List.forall_mem_cons]
      refine ⟨hv, fun object hobject => ?_⟩
      unfold objectsBelow at hobject
      split at hobject
      · rw [sceneObjectsIn_eq_map] at hobject
        obtain ⟨below, hbelow, hmem⟩ := RoseTree.exists_mem_of_mem_subtreesIn hobject
        obtain ⟨child, hchild, rfl⟩ := List.mem_map.1 hbelow
        exact ih child hchild (numeric_childrenOf hv child hchild) object hmem
      · cases hobject

theorem numeric_containedNodes {v : Value} (hv : v.Numeric) :
    ∀ content ∈ containedNodes v, content.Numeric := by
  cases v with
  | object fields => exact numeric_childrenOf hv
  | _ => exact List.forall_mem_nil _

theorem numeric_pageContents {page : Value} (hpage : page.Numeric) :
    ∀ content ∈ pageContents page, content.Numeric := by
  rw [pageContents]
  split
  · exact numeric_containedNodes hpage
  · exact List.forall_mem_singleton.2 hpage

theorem numeric_rootContents {root : Value} (hroot : root.Numeric) :
    ∀ content ∈ rootContents root, content.Numeric := by
  unfold rootContents
  split
  · cases hroot with
    | array items hitems => exact hitems
  · split
    · intro content hcontent
      obtain ⟨page, hpage, hcontent⟩ := List.mem_flatMap.1 hcontent
      exact numeric_pageContents (numeric_containedNodes hroot page hpage) content hcontent
    · exact numeric_pageContents hroot

theorem numeric_unwrap {v : Value} (hv : v.Numeric) : (unwrap v).2.Numeric := by
  unfold unwrap
  split
  · split
    · exact hv
    · split
      · rename_i content hcontent
        exact numeric_field hv hcontent
      · exact hv
  · exact hv

theorem numeric_sceneForest {v : Value} (hv : v.Numeric) :
    ∀ fields ∈ labelsIn (sceneForest v), (Value.object fields).Numeric := by
  intro fields hfields
  obtain ⟨object, hobject, rfl⟩ := List.mem_map.1 hfields
  rw [sceneForest, sceneObjectsIn_eq_map] at hobject
  obtain ⟨root, hroot, hmem⟩ := RoseTree.exists_mem_of_mem_subtreesIn hobject
  obtain ⟨content, hcontent, rfl⟩ := List.mem_map.1 hroot
  exact numeric_sceneObject (numeric_rootContents (numeric_unwrap hv) content hcontent) object hmem

/-! ## Objects -/

/-- The class of an object and the data that the document states for it; there is none of an object
of a type that is not understood. -/
def stated? (fields : Fields) : Option (NodeClass × NodeSource) :=
  match (tagOf? fields).bind NodeClass.ofTag?, nodeSchema.decode (.object fields) with
  | some nodeClass, .ok source => some (nodeClass, source)
  | _, _ => none

/-- One remark for each gradient of an object that is left out, by its list and its place there. -/
def disorderNotesOn (fields : Fields) : Diagnostics :=
  match stated? fields with
  | some (nodeClass, source) => (source.paintLists nodeClass).flatMap fun (field, sources) =>
      disorderNotes (idOf fields) field sources
  | none => []

/-- A layer has the paints of an object, apart from those that are dropped. -/
structure HasPaintsOf (fields : Fields) (layer : Layer) : Prop where
  id_eq : layer.id = idOf fields
  stated : ∀ nodeClass source, stated? fields = some (nodeClass, source) →
    source.KeepsPaints nodeClass layer
  unstated : stated? fields = none → ∀ paints ∈ layer.paintLists, paints = []

theorem stated?_eq_some {fields : Fields} {tag : String} {nodeClass : NodeClass}
    {source : NodeSource} (htag : tagOf? fields = some tag)
    (hclass : NodeClass.ofTag? tag = some nodeClass)
    (hdecode : nodeSchema.decode (.object fields) = .ok source) :
    stated? fields = some (nodeClass, source) := by
  rw [stated?, htag, Option.bind_some, hclass, hdecode]

theorem stated?_eq_none {fields : Fields} {tag : String} (htag : tagOf? fields = some tag)
    (hclass : NodeClass.ofTag? tag = none) : stated? fields = none := by
  rw [stated?, htag, Option.bind_some, hclass]

theorem statesDisorder_unsupportedNote (id tag : String) (count : Nat) :
    (unsupportedNote id tag count).statesDisorder = false := by
  unfold unsupportedNote
  split
  · rw [String.append_empty]
    exact statesDisorder_warning id _ (by decide +kernel)
  · rw [← String.append_assoc]
    exact statesDisorder_warning id _ (by decide +kernel)

theorem filter_statesDisorder_cutNotes (built : Layer) (count : Nat) :
    (cutNotes built count).filter Diagnostic.statesDisorder = [] :=
  List.filter_eq_nil_iff.2 fun d hd => by
    rw [each_cutNotes (P := fun d => d.statesDisorder = false) (fun _ => rfl) d hd]
    exact Bool.false_ne_true

theorem paintLists_placeholder (id tag : String) (fields : Fields) :
    (placeholder id tag fields).paintLists = [[], []] := rfl

theorem gradients_placeholder (id tag : String) (fields : Fields) :
    (placeholder id tag fields).gradients = [] := rfl

/-- A usable object has its paints in its layer, those that are dropped apart, and the remarks on
the order of stops are those on what is dropped. -/
theorem Usable.paints {fields : Fields} (h : Usable fields)
    (hnumeric : (Value.object fields).Numeric) :
    HasPaintsOf fields (layerOf fields) ∧
      (∀ gradient ∈ (layerOf fields).gradients, gradient.Ordered) ∧
      (remarksOn fields).filter Diagnostic.statesDisorder = disorderNotesOn fields := by
  have hid := h.layerOf_spec.1
  have hfound := found_of_noErrors h.isError_eq_false
  unfold layerOf reading at hid ⊢
  unfold remarksOn reading
  dsimp only at hid ⊢
  generalize inspectTyped (idOf fields) fields = found at hid hfound ⊢
  cases hfound with
  | @unknown tag htag hclass =>
      have hnone := stated?_eq_none htag hclass
      rw [Option.getD_some, gradients_placeholder, disorderNotesOn, hnone]
      refine ⟨⟨hid, fun nodeClass source hsome => ?_, fun _ => ?_⟩, List.forall_mem_nil _, ?_⟩
      · rw [hnone] at hsome
        cases hsome
      · rw [paintLists_placeholder]
        exact List.forall_mem_cons.2 ⟨rfl, List.forall_mem_singleton.2 rfl⟩
      · rw [List.filter_cons_of_neg, List.filter_nil]
        rw [statesDisorder_unsupportedNote]
        exact Bool.false_ne_true
  | @known tag nodeClass source built htag hclass hdecode hnoErrors hbuilt =>
      have hstated := stated?_eq_some htag hclass hdecode
      obtain ⟨hkeeps, hordered, hnotes⟩ :=
        layer_paints (nodeSchema_decodes _ _ hnumeric hdecode) hnoErrors hbuilt
      refine ⟨⟨hid, fun otherClass other hsome => ?_, fun hnone => ?_⟩, hordered, ?_⟩
      · rw [hstated] at hsome
        cases hsome
        exact hkeeps
      · rw [hstated] at hnone
        cases hnone
      · have hcut : (if nodeClass.isFrameLike then []
            else cutNotes built (childCount fields)).filter Diagnostic.statesDisorder = [] := by
          split
          · rfl
          · exact filter_statesDisorder_cutNotes built _
        rw [disorderNotesOn, hstated, List.filter_append, hcut, List.append_nil]
        exact hnotes

/-! ## Documents -/

/-- What becomes of the gradients of a document that is read as a scene, up to its compilation. -/
structure KeepsGradients (v : Value) (parsed : Parsed) : Prop where
  ordered : ∀ entry ∈ preorder parsed.tree.roots, ∀ gradient ∈ entry.layer.gradients,
    gradient.Ordered
  /-- Only gradients whose positions decrease are left out. -/
  paints : List.Forall₂ HasPaintsOf (labelsIn (sceneForest v))
    ((preorder parsed.tree.roots).map Entry.layer)
  /-- There is one remark for each gradient that is left out, and no other says so. -/
  remarks : parsed.diagnostics.filter Diagnostic.statesDisorder =
    (labelsIn (sceneForest v)).flatMap disorderNotesOn
  /-- What is wrong with a gradient that is not left out is that it has no stops. -/
  problems : ∀ entry ∈ preorder parsed.tree.roots, ∀ problem ∈ Style.problems entry.layer,
    ∀ wrong ∈ problem.gradient?,
      wrong = .noStops ∧ ∃ gradient ∈ entry.layer.gradients, gradient.stops = []
  /-- Compiling adds no remark on the order of stops. -/
  compiled : ∀ options out, compileParsed parsed.tree parsed.diagnostics options = .ok out →
    out.diagnostics.filter Diagnostic.statesDisorder =
      parsed.diagnostics.filter Diagnostic.statesDisorder

namespace Accepted

variable {v : Value} {parsed : Parsed}

theorem map_layer_preorder (h : Accepted v parsed) :
    (preorder parsed.tree.roots).map Entry.layer = (labelsIn (sceneForest v)).map layerOf := by
  rw [preorder, map_layer_entriesIn, h.treesIn_eq, RoseTree.labelsIn_mapIn]

theorem ordered (h : Accepted v parsed) (hv : v.Numeric) {entry : Entry}
    (hentry : entry ∈ preorder parsed.tree.roots) :
    ∀ gradient ∈ entry.layer.gradients, gradient.Ordered := by
  have hlayer : entry.layer ∈ (preorder parsed.tree.roots).map Entry.layer :=
    List.mem_map_of_mem hentry
  rw [h.map_layer_preorder] at hlayer
  obtain ⟨fields, hfields, heq⟩ := List.mem_map.1 hlayer
  rw [← heq]
  exact ((h.acceptable.each fields hfields).paints (numeric_sceneForest hv fields hfields)).2.1

/-- Of the gradients that a scene has, only those without stops cannot be written. -/
theorem problems (h : Accepted v parsed) (hv : v.Numeric) {entry : Entry}
    (hentry : entry ∈ preorder parsed.tree.roots) {problem : Style.Problem}
    (hproblem : problem ∈ Style.problems entry.layer) :
    ∀ wrong ∈ problem.gradient?,
      wrong = .noStops ∧ ∃ gradient ∈ entry.layer.gradients, gradient.stops = [] := by
  intro wrong hwrong
  obtain ⟨gradient, hgradient, opacity, hvalue⟩ :=
    Style.exists_gradient_of_mem_problems hproblem hwrong
  obtain ⟨hnoStops, hstops⟩ := (h.ordered hv hentry gradient hgradient).eq_noStops hvalue
  exact ⟨hnoStops, gradient, hgradient, hstops⟩

theorem statesDisorder_styleDiagnostics (h : Accepted v parsed) (hv : v.Numeric)
    {options : Options} {roots : List Node} (hroots : rootsOf parsed.tree options = .ok roots) :
    ∀ d ∈ Style.diagnostics (preorder roots), d.statesDisorder = false := by
  intro d hd
  obtain ⟨entry, hentry, hd⟩ := List.mem_flatMap.1 hd
  obtain ⟨problem, hproblem, rfl⟩ := List.mem_map.1 hd
  have hnode : entry.node ∈ (preorder parsed.tree.roots).map Entry.node :=
    (map_node_sublist_of_rootsOf hroots).subset (List.mem_map_of_mem hentry)
  obtain ⟨other, hother, heq⟩ := List.mem_map.1 hnode
  rw [Entry.layer, ← heq] at hproblem
  exact statesDisorder_diagnostic
    (fun wrong hwrong => (h.problems hv hother hproblem wrong hwrong).1) entry.id

theorem compiled (h : Accepted v parsed) (hv : v.Numeric) {options : Options} {out : Output}
    (hout : compileParsed parsed.tree parsed.diagnostics options = .ok out) :
    out.diagnostics.filter Diagnostic.statesDisorder =
      parsed.diagnostics.filter Diagnostic.statesDisorder := by
  obtain ⟨roots, hroots, rfl⟩ := exists_roots_of_compileParsed hout
  have hstyles : (Style.diagnostics (preorder roots)).filter Diagnostic.statesDisorder = [] :=
    List.filter_eq_nil_iff.2 fun d hd => by
      rw [h.statesDisorder_styleDiagnostics hv hroots d hd]
      exact Bool.false_ne_true
  have homissions : (Emission.omissions options.emitOptions roots).filter
      Diagnostic.statesDisorder = [] := by
    unfold Emission.omissions
    split
    · rfl
    · refine List.filter_eq_nil_iff.2 (List.forall_mem_map.2 fun layer _ => ?_)
      exact Bool.false_ne_true
  rw [outputOf, List.filter_append, List.filter_append, hstyles, homissions, List.append_nil,
    List.append_nil]

theorem keepsGradients (h : Accepted v parsed) (hv : v.Numeric) : KeepsGradients v parsed where
  ordered _ := h.ordered hv
  paints := by
    rw [h.map_layer_preorder, List.forall₂_map_right_iff, List.forall₂_same]
    exact fun fields hfields =>
      ((h.acceptable.each fields hfields).paints (numeric_sceneForest hv fields hfields)).1
  remarks := by
    rw [h.diagnostics_eq, List.filter_flatMap]
    exact List.flatMap_congr fun fields hfields =>
      ((h.acceptable.each fields hfields).paints (numeric_sceneForest hv fields hfields)).2.2
  problems _ hentry _ := h.problems hv hentry
  compiled _ _ := h.compiled hv

end Accepted

/-- A gradient is left out of a scene if and only if its positions decrease in the document, with
one remark; all others are in order, so that compiling finds nothing wrong with the order of stops.
This holds of every document whose numbers are numbers, and so of every text. -/
theorem keepsGradients_of_document :
    (∀ v parsed, v.Numeric → ofValue v = .ok parsed → KeepsGradients v parsed) ∧
      ∀ text parsed, ofText text = .ok parsed →
        ∃ v, Json.read text = .ok v ∧ ofValue v = .ok parsed ∧ KeepsGradients v parsed := by
  constructor
  · intro v parsed hv h
    exact (accepted_of_ofValue h).keepsGradients hv
  · intro text parsed h
    unfold ofText at h
    split at h
    · cases h
    · rename_i v hread
      exact ⟨v, hread, h, (accepted_of_ofValue h).keepsGradients (Json.numeric_of_read hread)⟩

/-- A gradient with stops at the given positions. -/
def slope (positions : List Int) : Value :=
  .object [("gradientStops", .array (positions.map fun position =>
      .array [.ofInt position, .array [.ofInt 1, .ofInt 0, .ofInt 0, .ofInt 1]])),
    ("type", .string "GRADIENT_LINEAR")]

/-- A frame with a text. Of the gradients that are out of order one would be in order once its stops
are moved into the unit interval. -/
def slopes : Value :=
  .object [("absoluteBoundingBox", boxOf 80 40),
    ("children", .array
      [.object [("absoluteBoundingBox", boxOf 30 10), ("characters", .string "Hi"),
        ("id", .string "text"),
        ("style", .object [("fontFamily", .string "Inter"), ("fontSize", .ofInt 16),
          ("fontWeight", .ofInt 400)]),
        ("styleOverrideTable", .object [("1", .object
          [("fills", .array [slope [0, 1], slope [1, 0, 1]])])]),
        ("type", .string "TEXT")]]),
    ("fills", .array [slope [0, 3, 2], slope [], slope [-1, 0, 2]]), ("id", .string "frame"),
    ("strokes", .array [slope [0, 0]]), ("type", .string "FRAME")]

/-- The text of a document with a gradient that is out of order. -/
def slopeText : String :=
  "\x7b\"absoluteBoundingBox\":[0,0,4,0],\"fills\":[\x7b\"gradientStops\":[[3,[1,0,0,1]]," ++
    "[2,[0,0,1,1]]],\"type\":\"GRADIENT_LINEAR\"\x7d],\"id\":\"line\",\"type\":\"LINE\"\x7d"

theorem numeric_slopes : slopes.Numeric := by
  simp [slopes, slope, boxOf, Json.numeric_object_iff, Json.numeric_array_iff, Json.numeric_ofInt,
    Json.numeric_string]

theorem keepsGradients_of_document_slopes :
    (∃ parsed, ofValue slopes = .ok parsed ∧ KeepsGradients slopes parsed ∧
      parsed.diagnostics.filter Diagnostic.statesDisorder =
        [.warning "frame" ("fills[0]: gradient stops are not in non-decreasing position order, " ++
            "layer skipped"),
          .warning "text" ("styleOverrideTable.fills[1]: gradient stops are not in " ++
            "non-decreasing position order, layer skipped")]) ∧
    ∃ v parsed, ofText slopeText = .ok parsed ∧ Json.read slopeText = .ok v ∧
      KeepsGradients v parsed := by
  constructor
  · obtain ⟨parsed, hparsed⟩ : ∃ parsed, ofValue slopes = .ok parsed := ⟨_, rfl⟩
    have hkeeps := keepsGradients_of_document.1 slopes parsed numeric_slopes hparsed
    exact ⟨parsed, hparsed, hkeeps, hkeeps.remarks.trans (by decide +kernel)⟩
  · have hsome : (ofText slopeText).toOption.isSome = true := by decide +kernel
    cases hparsed : ofText slopeText with
    | error error =>
        rw [hparsed] at hsome
        cases hsome
    | ok parsed =>
        obtain ⟨v, hread, -, hkeeps⟩ := keepsGradients_of_document.2 slopeText parsed hparsed
        exact ⟨v, parsed, rfl, hread, hkeeps⟩

end Document

end SceneMarkup
