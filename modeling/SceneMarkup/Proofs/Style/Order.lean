/-
  SceneMarkup/Proofs/Style/Order.lean --- the order of the declarations of a record.

  WHAT THIS FILE IS FOR.  No two records of a scene hold the same declarations in
  different orders.  There is not one order for all of them: `position` stands before
  the sizes of a node at an offset and behind those of a laid out one, the background
  stands before the filters of a box and behind those of a text, and `display` is moved
  to the end by hiding a node that has no layout.  Each of these three is told by
  properties that are declared (`arrangementOf`), and with all three told there is one
  order (`order`).
-/
import SceneMarkup.Proofs.Style.Record
import SceneMarkup.Style.Resolve

set_option autoImplicit false

namespace SceneMarkup.Style

/-! ## Orders -/

/-- What decides in which order the properties of a record are declared. -/
structure Arrangement where
  /-- whether the node is laid out by its parent -/
  flow : Bool
  /-- whether it is a text or a run of one -/
  text : Bool
  /-- whether it has a layout of its own -/
  laid : Bool
  deriving DecidableEq, Repr, Inhabited

/-- Position and size. -/
def placedProperties (flow : Bool) : List String :=
  if flow then ["flex-grow", "flex-shrink", "width", "height", "position"]
  else ["position", "left", "top", "width", "height"]

/-- What a frame does with its children. -/
def containerProperties : List String :=
  ["display", "flex-direction", "gap", "padding", "justify-content", "align-items", "overflow"]

/-- Fills. -/
def fillProperties (text : Bool) : List String :=
  if text then ["background", "background-clip", "color"] else ["background-color", "background"]

/-- Outlines. -/
def strokeProperties (text : Bool) : List String :=
  if text then ["-webkit-text-stroke"] else ["border", "border-image"]

/-- Shadows and blurs. -/
def effectProperties (text : Bool) : List String :=
  [if text then "text-shadow" else "box-shadow", "filter", "backdrop-filter"]

/-- The alignment of a whole text. -/
def paragraphProperties : List String :=
  ["text-align", "display", "flex-direction", "justify-content"]

/-- What a run of text may override. -/
def fontProperties : List String :=
  ["font-family", "font-weight", "font-size", "line-height", "letter-spacing", "font-style",
    "text-transform", "text-decoration"]

/-- What depends on what a node is. -/
def contentProperties (text : Bool) : List String :=
  if text then
    paragraphProperties ++ strokeProperties true ++ effectProperties true ++
      (fontProperties ++ fillProperties true)
  else
    containerProperties ++ (fillProperties false ++ strokeProperties false ++ ["border-radius"] ++
      effectProperties false)

/-- All properties of a node but those that hide, fade or mix it. -/
def ownProperties (flow text : Bool) : List String :=
  placedProperties flow ++ contentProperties text

/-- The order of properties under an arrangement. -/
def order (a : Arrangement) : List String :=
  (if a.laid then ownProperties a.flow a.text
    else (ownProperties a.flow a.text).erase "display" ++ ["display"]) ++
    ["opacity"] ++ ["mix-blend-mode"]

theorem nodup_order (a : Arrangement) : (order a).Nodup := by
  obtain ⟨flow, text, laid⟩ := a
  cases flow <;> cases text <;> cases laid <;> decide

/-- The arrangement that declared properties tell. Every node declares how it is placed; only runs
of text do not. -/
def arrangementOf (properties : List String) : Arrangement :=
  let flow := decide ("flex-grow" ∈ properties) || decide ("flex-shrink" ∈ properties)
  ⟨flow, decide ("font-family" ∈ properties) || !(flow || decide ("position" ∈ properties)),
    decide ("flex-direction" ∈ properties)⟩

/-- The declarations of a record stand in the order that they tell. -/
def Ordered (r : Record) : Prop := r.properties.Sublist (order (arrangementOf r.properties))

/-! ## Groups of declarations -/

theorem map_declareIf_sublist (condition : Bool) (property value : String) :
    ((declareIf condition property value).map (·.1)).Sublist [property] := by
  cases condition with
  | true => exact List.Sublist.refl _
  | false => exact List.nil_sublist _

theorem map_declareSome_sublist (property : String) (value : Option String) :
    ((declareSome property value).map (·.1)).Sublist [property] := by
  cases value with
  | some value => exact List.Sublist.refl _
  | none => exact List.nil_sublist _

theorem map_singleton_sublist {d : Declaration} {properties : List String}
    (h : d.1 ∈ properties) : ([d].map (·.1)).Sublist properties :=
  List.singleton_sublist.2 h

theorem map_append_sublist {ds es : List Declaration} {first second : List String}
    (hds : (ds.map (·.1)).Sublist first) (hes : (es.map (·.1)).Sublist second) :
    ((ds ++ es).map (·.1)).Sublist (first ++ second) := by
  rw [List.map_append]
  exact hds.append hes

theorem fixedSize_sublist (layer : Layer) :
    ((fixedSize layer).map (·.1)).Sublist ["width", "height"] :=
  map_append_sublist (map_declareIf_sublist _ _ _) (map_declareIf_sublist _ _ _)

theorem growth_sublist (layer : Layer) :
    ([growth layer].map (·.1)).Sublist ["flex-grow", "flex-shrink"] := by
  unfold growth
  split
  · exact map_singleton_sublist (List.mem_cons_self)
  · exact map_singleton_sublist (List.mem_cons_of_mem _ List.mem_cons_self)

theorem geometry_sublist (entry : Entry) :
    ((geometry entry).map (·.1)).Sublist (placedProperties entry.placement.isFlow) := by
  unfold geometry
  cases entry.placement with
  | root =>
      have hsize : (["width", "height"] : List String).Sublist
          ["left", "top", "width", "height"] := by decide
      exact ((fixedSize_sublist entry.layer).trans hsize).cons_cons "position"
  | flow direction =>
      have hsize : ((if isText entry.layer.kind then [] else fixedSize entry.layer).map
          (·.1)).Sublist ["width", "height"] := by
        split
        · exact List.nil_sublist _
        · exact fixedSize_sublist entry.layer
      exact map_append_sublist (map_append_sublist (growth_sublist entry.layer) hsize)
        (map_declareIf_sublist _ "position" _)
  | absolute offset => exact List.Sublist.refl _

theorem layout_sublist (frame : Frame) :
    ((layout frame).map (·.1)).Sublist
      ["display", "flex-direction", "gap", "padding", "justify-content", "align-items"] := by
  unfold layout
  split
  · exact List.nil_sublist _
  · rename_i direction _
    have hdisplay : ([("display", "flex"), ("flex-direction", direction.keyword)].map
        (·.1)).Sublist ["display", "flex-direction"] := List.Sublist.refl _
    exact map_append_sublist (map_append_sublist (map_append_sublist (map_append_sublist
      hdisplay (map_declareIf_sublist _ "gap" _)) (map_declareIf_sublist _ "padding" _))
      (map_declareSome_sublist "justify-content" _)) (map_declareSome_sublist "align-items" _)

theorem container_sublist (kind : NodeKind) :
    ((container kind).map (·.1)).Sublist containerProperties := by
  unfold container
  split
  · exact List.nil_sublist _
  · exact map_append_sublist (layout_sublist _) (map_declareIf_sublist _ _ _)

theorem fill_sublist (text : Bool) (fills : List Paint) :
    ((fill text fills).map (·.1)).Sublist (fillProperties text) := by
  unfold fill layerDeclarations
  split
  · exact List.nil_sublist _
  · split
    · cases text with
      | true => exact map_singleton_sublist (show "color" ∈ fillProperties true by decide)
      | false =>
          exact map_singleton_sublist (show "background-color" ∈ fillProperties false by decide)
    · cases text with
      | true => exact List.Sublist.refl _
      | false => exact map_singleton_sublist (show "background" ∈ fillProperties false by decide)

theorem strokeOf_sublist {text : Bool} {weight : Float} {paint : Paint} {ds : List Declaration}
    (h : strokeOf text weight paint = .ok ds) :
    (ds.map (·.1)).Sublist (strokeProperties text) := by
  unfold strokeOf at h
  split at h
  · obtain rfl := Except.ok.inj h
    cases text with
    | true => exact List.Sublist.refl _
    | false => exact map_singleton_sublist (show "border" ∈ strokeProperties false by decide)
  · cases text with
    | true => simp at h
    | false =>
        rw [if_neg Bool.false_ne_true] at h
        split at h
        · obtain rfl := Except.ok.inj h
          exact List.Sublist.refl _
        · simp at h
  · simp at h
  · simp at h

theorem stroke_sublist (text : Bool) (weight : Float) (strokes : List Paint) :
    ((stroke text weight strokes).map (·.1)).Sublist (strokeProperties text) := by
  cases hstroke : lowestStroke text weight strokes with
  | error problem =>
      rw [stroke, hstroke]
      exact List.nil_sublist _
  | ok ds =>
      rw [stroke, hstroke]
      unfold lowestStroke at hstroke
      split at hstroke
      · obtain rfl := Except.ok.inj hstroke
        exact List.nil_sublist _
      · split at hstroke
        · obtain rfl := Except.ok.inj hstroke
          exact List.nil_sublist _
        · exact strokeOf_sublist hstroke

theorem corners_sublist (kind : NodeKind) :
    ((corners kind).map (·.1)).Sublist ["border-radius"] := by
  cases kind with
  | frame frame => exact map_declareIf_sublist _ _ _
  | instanceOf componentId frame => exact map_declareIf_sublist _ _ _
  | shape shape =>
      rw [corners]
      split
      · exact List.Sublist.refl _
      · exact map_declareIf_sublist _ _ _
  | text text => exact List.nil_sublist _
  | placeholder typeTag => exact List.nil_sublist _

theorem effect_sublist (text : Bool) (effects : List SceneMarkup.Effect) :
    ((effect text effects).map (·.1)).Sublist (effectProperties text) :=
  map_append_sublist (map_append_sublist (map_declareIf_sublist _ _ _)
    (map_declareIf_sublist _ _ _)) (map_declareIf_sublist _ _ _)

theorem paragraph_sublist (style : TextStyle) :
    ((paragraph style).map (·.1)).Sublist paragraphProperties := by
  refine map_append_sublist (map_declareSome_sublist "text-align" _) ?_
  split
  · exact List.nil_sublist _
  · exact List.Sublist.refl _

theorem font_sublist (style : TextStyle) :
    ((font style).map (·.1)).Sublist fontProperties := by
  have hstart : ([("font-family", quoted style.fontFamily),
      ("font-weight", Decimal.numberText style.fontWeight),
      ("font-size", px style.fontSize)].map (·.1)).Sublist
      ["font-family", "font-weight", "font-size"] := List.Sublist.refl _
  exact map_append_sublist (map_append_sublist (map_append_sublist (map_append_sublist
    (map_append_sublist hstart (map_declareSome_sublist "line-height" _))
    (map_declareIf_sublist _ "letter-spacing" _)) (map_declareIf_sublist _ "font-style" _))
    (map_declareSome_sublist "text-transform" _)) (map_declareSome_sublist "text-decoration" _)

theorem boxDeclarations_sublist (layer : Layer) :
    ((boxDeclarations layer).map (·.1)).Sublist
      (fillProperties false ++ strokeProperties false ++ ["border-radius"] ++
        effectProperties false) :=
  map_append_sublist (map_append_sublist (map_append_sublist (fill_sublist false _)
    (stroke_sublist false _ _)) (corners_sublist _)) (effect_sublist false _)

/-- The record of characters declares no property twice, and so is the list it is made of. -/
theorem declarations_textRecord (style : TextStyle) (fills : List Paint) :
    (textRecord style fills).declarations = font style ++ fill true fills := by
  have hnodup : (fontProperties ++ fillProperties true).Nodup := by decide
  exact Record.declarations_ofList
    (hnodup.sublist (map_append_sublist (font_sublist style) (fill_sublist true fills)))

theorem properties_textRecord_sublist (style : TextStyle) (fills : List Paint) :
    (textRecord style fills).properties.Sublist (fontProperties ++ fillProperties true) := by
  rw [Record.properties, declarations_textRecord]
  exact map_append_sublist (font_sublist style) (fill_sublist true fills)

theorem textDeclarations_sublist (layer : Layer) (text : TextBlock) :
    ((textDeclarations layer text).map (·.1)).Sublist (contentProperties true) :=
  map_append_sublist (map_append_sublist (map_append_sublist (paragraph_sublist text.style)
    (stroke_sublist true _ _)) (effect_sublist true _)) (properties_textRecord_sublist _ _)

theorem content_sublist (layer : Layer) :
    ((container layer.kind ++ contentDeclarations layer).map (·.1)).Sublist
      (contentProperties (isText layer.kind)) := by
  unfold contentDeclarations
  cases layer.kind with
  | frame frame =>
      exact map_append_sublist (container_sublist (.frame frame)) (boxDeclarations_sublist layer)
  | instanceOf componentId frame =>
      exact map_append_sublist (container_sublist (.instanceOf componentId frame))
        (boxDeclarations_sublist layer)
  | text text => exact textDeclarations_sublist layer text
  | shape shape =>
      exact map_append_sublist (container_sublist (.shape shape)) (boxDeclarations_sublist layer)
  | placeholder typeTag => exact List.nil_sublist _

/-! ## Nodes -/

/-- All declarations of a node but those that hide, fade or mix it. -/
def ownDeclarations (entry : Entry) : List Declaration :=
  geometry entry ++ (container entry.layer.kind ++ contentDeclarations entry.layer)

theorem ownDeclarations_sublist (entry : Entry) :
    ((ownDeclarations entry).map (·.1)).Sublist
      (ownProperties entry.placement.isFlow (isText entry.layer.kind)) :=
  map_append_sublist (geometry_sublist entry) (content_sublist entry.layer)

theorem nodup_ownProperties (flow text : Bool) : (ownProperties flow text).Nodup := by
  cases flow <;> cases text <;> decide

theorem declarations_ofList_own (entry : Entry) :
    (Record.ofList (ownDeclarations entry)).declarations = ownDeclarations entry :=
  Record.declarations_ofList ((nodup_ownProperties _ _).sublist (ownDeclarations_sublist entry))

theorem record_eq (entry : Entry) :
    record entry = (Record.ofList (ownDeclarations entry)).setAll (compositing entry.layer) := by
  rw [record, Record.ofList_append, ownDeclarations, List.append_assoc]

theorem compositing_sublist (layer : Layer) :
    ((compositing layer).map (·.1)).Sublist ["display", "opacity", "mix-blend-mode"] :=
  map_append_sublist (map_append_sublist (map_declareIf_sublist _ "display" _)
    (map_declareIf_sublist _ "opacity" _)) (map_declareSome_sublist "mix-blend-mode" _)

/-- Properties that do not hide, fade or mix a node are in its record if they are its own. -/
theorem mem_properties_record (entry : Entry) {property : String}
    (h : property ∉ ["display", "opacity", "mix-blend-mode"]) :
    property ∈ (record entry).properties ↔ property ∈ (ownDeclarations entry).map (·.1) := by
  have hnot : property ∉ (compositing entry.layer).map (·.1) := fun hmem =>
    h ((compositing_sublist entry.layer).mem hmem)
  rw [record_eq, Record.mem_properties_setAll, or_iff_left hnot, Record.properties,
    declarations_ofList_own]

theorem mem_record_of_mem_own {entry : Entry} {d : Declaration} (h : d ∈ ownDeclarations entry)
    (hnot : d.1 ∉ ["display", "opacity", "mix-blend-mode"]) : d ∈ (record entry).declarations := by
  rw [record_eq]
  refine Record.mem_setAll_of_mem ?_ fun hmem => hnot ((compositing_sublist entry.layer).mem hmem)
  rw [declarations_ofList_own]
  exact h

/-- What the characters of a text declare is in the record of the text. -/
theorem mem_record_of_mem_baseRecord {entry : Entry} {text : TextBlock}
    (hkind : entry.layer.kind = .text text) {d : Declaration}
    (h : d ∈ (baseRecord entry.layer text).declarations) : d ∈ (record entry).declarations := by
  refine mem_record_of_mem_own ?_ ?_
  · rw [ownDeclarations, contentDeclarations, hkind]
    exact List.mem_append_right _ (List.mem_append_right _ (List.mem_append_right _ h))
  · have hproperty := (properties_textRecord_sublist _ _).mem (List.mem_map_of_mem h)
    have hnone : ∀ property ∈ fontProperties ++ fillProperties true,
        property ∉ ["display", "opacity", "mix-blend-mode"] := by decide
    exact hnone _ hproperty

/-! ## What a record tells about its node -/

/-- A layout is declared as a whole: with `display` goes a direction. -/
def DisplaysAlong (ds : List Declaration) : Prop :=
  "display" ∈ ds.map (·.1) ↔ "flex-direction" ∈ ds.map (·.1)

theorem displaysAlong_nil : DisplaysAlong [] := iff_of_false List.not_mem_nil List.not_mem_nil

theorem DisplaysAlong.append {ds es : List Declaration} (hds : DisplaysAlong ds)
    (hes : DisplaysAlong es) : DisplaysAlong (ds ++ es) := by
  rw [DisplaysAlong, List.map_append, List.mem_append, List.mem_append]
  exact or_congr hds hes

theorem displaysAlong_of_sublist {ds : List Declaration} {properties : List String}
    (h : (ds.map (·.1)).Sublist properties)
    (hnot : "display" ∉ properties ∧ "flex-direction" ∉ properties) : DisplaysAlong ds :=
  iff_of_false (fun hmem => hnot.1 (h.mem hmem)) (fun hmem => hnot.2 (h.mem hmem))

theorem displaysAlong_layout (frame : Frame) : DisplaysAlong (layout frame) := by
  unfold layout
  split
  · exact displaysAlong_nil
  · exact iff_of_true (by simp) (by simp)

theorem displaysAlong_paragraph (style : TextStyle) : DisplaysAlong (paragraph style) := by
  have halign : DisplaysAlong (declareSome "text-align" (textAlign? style.alignHorizontal)) :=
    displaysAlong_of_sublist (map_declareSome_sublist _ _) (by decide)
  unfold paragraph
  split
  · exact halign.append displaysAlong_nil
  · exact iff_of_true (by simp) (by simp)

theorem displaysAlong_container (kind : NodeKind) : DisplaysAlong (container kind) := by
  unfold container
  split
  · exact displaysAlong_nil
  · exact (displaysAlong_layout _).append
      (displaysAlong_of_sublist (map_declareIf_sublist _ _ _) (by decide))

theorem displaysAlong_content (layer : Layer) : DisplaysAlong (contentDeclarations layer) := by
  have hbox : DisplaysAlong (boxDeclarations layer) :=
    displaysAlong_of_sublist (boxDeclarations_sublist layer) (by decide)
  unfold contentDeclarations
  split
  · exact hbox
  · exact hbox
  · exact hbox
  · exact (((displaysAlong_paragraph _).append
      (displaysAlong_of_sublist (stroke_sublist _ _ _) (by decide))).append
      (displaysAlong_of_sublist (effect_sublist _ _) (by decide))).append
      (displaysAlong_of_sublist (properties_textRecord_sublist _ _) (by decide))
  · exact displaysAlong_nil

theorem displaysAlong_own (entry : Entry) : DisplaysAlong (ownDeclarations entry) := by
  refine DisplaysAlong.append (displaysAlong_of_sublist (geometry_sublist entry) ?_)
    ((displaysAlong_container _).append (displaysAlong_content _))
  cases entry.placement.isFlow <;> decide

theorem mem_own_of_mem_geometry {entry : Entry} {property : String}
    (h : property ∈ (geometry entry).map (·.1)) :
    property ∈ (ownDeclarations entry).map (·.1) := by
  rw [ownDeclarations, List.map_append]
  exact List.mem_append_left _ h

theorem flexGrow_or_flexShrink_mem_own (entry : Entry) :
    ("flex-grow" ∈ (ownDeclarations entry).map (·.1) ∨
      "flex-shrink" ∈ (ownDeclarations entry).map (·.1)) ↔ entry.placement.isFlow = true := by
  constructor
  · intro h
    by_contra hflow
    have hsub := ownDeclarations_sublist entry
    rw [eq_false_of_ne_true hflow] at hsub
    have hnot : "flex-grow" ∉ ownProperties false (isText entry.layer.kind) ∧
        "flex-shrink" ∉ ownProperties false (isText entry.layer.kind) := by
      cases isText entry.layer.kind <;> decide
    exact h.elim (fun h => hnot.1 (hsub.mem h)) (fun h => hnot.2 (hsub.mem h))
  · intro h
    have hgrowth : "flex-grow" = (growth entry.layer).1 ∨
        "flex-shrink" = (growth entry.layer).1 := by
      unfold growth
      split
      · exact Or.inl rfl
      · exact Or.inr rfl
    have hmem : "flex-grow" ∈ (geometry entry).map (·.1) ∨
        "flex-shrink" ∈ (geometry entry).map (·.1) := by
      cases hplacement : entry.placement with
      | root => rw [hplacement] at h; simp [Placement.isFlow] at h
      | absolute offset => rw [hplacement] at h; simp [Placement.isFlow] at h
      | flow direction =>
          simp only [geometry, hplacement, List.cons_append, List.map_cons, List.mem_cons]
          exact hgrowth.imp Or.inl Or.inl
    exact hmem.imp mem_own_of_mem_geometry mem_own_of_mem_geometry

theorem fontFamily_mem_own (entry : Entry) :
    "font-family" ∈ (ownDeclarations entry).map (·.1) ↔ isText entry.layer.kind = true := by
  constructor
  · intro h
    by_contra htext
    have hsub := ownDeclarations_sublist entry
    rw [eq_false_of_ne_true htext] at hsub
    have hnot : "font-family" ∉ ownProperties entry.placement.isFlow false := by
      cases entry.placement.isFlow <;> decide
    exact hnot (hsub.mem h)
  · intro h
    unfold ownDeclarations contentDeclarations
    cases hkind : entry.layer.kind with
    | text text => simp [textDeclarations, baseRecord, declarations_textRecord, font]
    | _ => rw [hkind] at h; simp [isText, NodeKind.text?] at h

/-- A node that is not laid out declares a position. -/
theorem position_mem_own {entry : Entry} (h : entry.placement.isFlow = false) :
    "position" ∈ (ownDeclarations entry).map (·.1) := by
  refine mem_own_of_mem_geometry ?_
  unfold geometry
  cases hplacement : entry.placement with
  | root => simp
  | flow direction => rw [hplacement] at h; simp [Placement.isFlow] at h
  | absolute offset => simp

theorem arrangementOf_record (entry : Entry) :
    arrangementOf (record entry).properties =
      ⟨entry.placement.isFlow, isText entry.layer.kind,
        decide ("flex-direction" ∈ (ownDeclarations entry).map (·.1))⟩ := by
  have hgrow : "flex-grow" ∈ (record entry).properties ↔ _ :=
    mem_properties_record entry (by decide)
  have hshrink : "flex-shrink" ∈ (record entry).properties ↔ _ :=
    mem_properties_record entry (by decide)
  have hfamily : "font-family" ∈ (record entry).properties ↔ _ :=
    mem_properties_record entry (by decide)
  have hposition : "position" ∈ (record entry).properties ↔ _ :=
    mem_properties_record entry (by decide)
  have hdirection : "flex-direction" ∈ (record entry).properties ↔ _ :=
    mem_properties_record entry (by decide)
  have hflow : (decide ("flex-grow" ∈ (ownDeclarations entry).map (·.1)) ||
      decide ("flex-shrink" ∈ (ownDeclarations entry).map (·.1))) = entry.placement.isFlow := by
    rw [Bool.eq_iff_iff, Bool.or_eq_true, decide_eq_true_eq, decide_eq_true_eq]
    exact flexGrow_or_flexShrink_mem_own entry
  have htext : decide ("font-family" ∈ (ownDeclarations entry).map (·.1)) =
      isText entry.layer.kind := by
    rw [Bool.eq_iff_iff, decide_eq_true_eq]
    exact fontFamily_mem_own entry
  have hplaced : (entry.placement.isFlow ||
      decide ("position" ∈ (ownDeclarations entry).map (·.1))) = true := by
    cases hflow : entry.placement.isFlow with
    | true => rfl
    | false => rw [Bool.false_or, decide_eq_true_eq]; exact position_mem_own hflow
  simp only [arrangementOf, hgrow, hshrink, hfamily, hposition, hdirection, hflow, htext, hplaced,
    Bool.not_true, Bool.or_false]

/-- Hiding a node sets `display` in its place if the node has a layout, and else at the end. -/
theorem properties_hidden_sublist (entry : Entry) :
    ((Record.ofList (ownDeclarations entry)).setAll
        (declareIf (!entry.layer.visible) "display" "none")).properties.Sublist
      (if decide ("flex-direction" ∈ (ownDeclarations entry).map (·.1)) then
        ownProperties entry.placement.isFlow (isText entry.layer.kind)
      else
        (ownProperties entry.placement.isFlow (isText entry.layer.kind)).erase "display" ++
          ["display"]) := by
  have hsub : (Record.ofList (ownDeclarations entry)).properties.Sublist
      (ownProperties entry.placement.isFlow (isText entry.layer.kind)) := by
    rw [Record.properties, declarations_ofList_own]
    exact ownDeclarations_sublist entry
  by_cases hlaid : "flex-direction" ∈ (ownDeclarations entry).map (·.1)
  · rw [if_pos (decide_eq_true hlaid)]
    have hdisplay : "display" ∈ (Record.ofList (ownDeclarations entry)).properties := by
      rw [Record.properties, declarations_ofList_own]
      exact (displaysAlong_own entry).2 hlaid
    cases entry.layer.visible with
    | true => exact hsub
    | false =>
        have hsame : ((Record.ofList (ownDeclarations entry)).set "display" "none").properties =
            (Record.ofList (ownDeclarations entry)).properties :=
          Declarations.map_set_of_mem hdisplay "none"
        exact hsame ▸ hsub
  · rw [if_neg (by simpa using hlaid)]
    have hdisplay : "display" ∉ (Record.ofList (ownDeclarations entry)).properties := by
      rw [Record.properties, declarations_ofList_own]
      exact fun h => hlaid ((displaysAlong_own entry).1 h)
    have hrest := hsub.erase "display"
    rw [List.erase_of_not_mem hdisplay] at hrest
    cases entry.layer.visible with
    | true => exact hrest.trans (List.sublist_append_left _ _)
    | false => exact Record.properties_set_sublist hrest "display" "none"

theorem properties_setAll_declareIf_sublist {r : Record} {properties : List String}
    (h : r.properties.Sublist properties) (condition : Bool) (property value : String) :
    (r.setAll (declareIf condition property value)).properties.Sublist
      (properties ++ [property]) := by
  cases condition with
  | true => exact Record.properties_set_sublist h property value
  | false => exact h.trans (List.sublist_append_left properties [property])

theorem properties_setAll_declareSome_sublist {r : Record} {properties : List String}
    (h : r.properties.Sublist properties) (property : String) (value : Option String) :
    (r.setAll (declareSome property value)).properties.Sublist (properties ++ [property]) := by
  cases value with
  | some value => exact Record.properties_set_sublist h property value
  | none => exact h.trans (List.sublist_append_left properties [property])

/-! ## Main results -/

/-- A node declares how it is placed, and so always something. -/
theorem isEmpty_record (entry : Entry) : (record entry).isEmpty = false := by
  have hmem : ∃ property, property ∈ (record entry).properties := by
    cases hflow : entry.placement.isFlow with
    | true =>
        rcases (flexGrow_or_flexShrink_mem_own entry).2 hflow with h | h
        · exact ⟨"flex-grow", (mem_properties_record entry (by decide)).2 h⟩
        · exact ⟨"flex-shrink", (mem_properties_record entry (by decide)).2 h⟩
    | false =>
        exact ⟨"position", (mem_properties_record entry (by decide)).2 (position_mem_own hflow)⟩
  obtain ⟨property, hproperty⟩ := hmem
  obtain ⟨d, hd, _⟩ := List.mem_map.1 hproperty
  exact Record.isEmpty_eq_false_of_mem hd

theorem ordered_record (entry : Entry) : Ordered (record entry) := by
  rw [Ordered, arrangementOf_record, record_eq, compositing, Record.setAll_append,
    Record.setAll_append]
  exact properties_setAll_declareSome_sublist
    (properties_setAll_declareIf_sublist (properties_hidden_sublist entry) _ "opacity" _)
    "mix-blend-mode" _

/-- What is left of the record of characters is ordered too: it declares no place. -/
theorem ordered_difference (style : TextStyle) (fills : List Paint) (base : Record) :
    Ordered ((textRecord style fills).difference base) := by
  have hsub : ((textRecord style fills).difference base).properties.Sublist
      (fontProperties ++ fillProperties true) := by
    have hfilter : ((textRecord style fills).difference base).declarations.Sublist
        (textRecord style fills).declarations := List.filter_sublist
    exact (hfilter.map _).trans (properties_textRecord_sublist style fills)
  have hnot : ∀ property ∉ fontProperties ++ fillProperties true,
      property ∉ ((textRecord style fills).difference base).properties :=
    fun property h hmem => h (hsub.mem hmem)
  have harrangement : arrangementOf ((textRecord style fills).difference base).properties =
      ⟨false, true, false⟩ := by
    simp only [arrangementOf, hnot "flex-grow" (by decide), hnot "flex-shrink" (by decide),
      hnot "position" (by decide), hnot "flex-direction" (by decide), decide_false, Bool.or_false,
      Bool.not_false, Bool.or_true]
  have horder : (fontProperties ++ fillProperties true).Sublist (order ⟨false, true, false⟩) := by
    decide
  rw [Ordered, harrangement]
  exact hsub.trans horder

/-- Lists that stand in one order are the same if they have the same members. -/
theorem eq_of_map_sublist_of_perm {α β : Type} [BEq β] [LawfulBEq β] {f : α → β} {order : List β}
    (horder : order.Nodup) {first second : List α} (hfirst : (first.map f).Sublist order)
    (hsecond : (second.map f).Sublist order) (hperm : first.Perm second) : first = second := by
  have hindices : order.Pairwise fun a b => order.idxOf a < order.idxOf b := by
    rw [List.pairwise_iff_getElem]
    intro i j hi hj hij
    rw [horder.idxOf_getElem i hi, horder.idxOf_getElem j hj]
    exact hij
  have hbefore : ∀ {names : List α}, (names.map f).Sublist order →
      names.Pairwise fun a b => order.idxOf (f a) < order.idxOf (f b) := by
    intro names hnames
    exact List.Pairwise.of_map f (fun _ _ h => h) (hindices.sublist hnames)
  refine List.Perm.eq_of_pairwise ?_ (hbefore hfirst) (hbefore hsecond) hperm
  intro a b _ _ hab hba
  exact absurd hba (Nat.lt_asymm hab)

/-- Ordered records with the same declarations hold them in the same order. -/
theorem Ordered.declarations_eq {r s : Record} (hr : Ordered r) (hs : Ordered s)
    (h : r.SameDeclarations s) : r.declarations = s.declarations := by
  have hmem : ∀ property, property ∈ r.properties ↔ property ∈ s.properties :=
    fun property => (h.perm.map (·.1)).mem_iff
  have harrangement : arrangementOf r.properties = arrangementOf s.properties := by
    simp only [arrangementOf, hmem]
  rw [Ordered, harrangement] at hr
  exact eq_of_map_sublist_of_perm (nodup_order _) hr hs h.perm

end SceneMarkup.Style
