/-
  SceneMarkup/Proofs/Style/Declared.lean --- which declarations hold text of a document.

  WHAT THIS FILE IS FOR.  All values but two are plain.  The font of a text is the quoted
  name of a family, and a background may hold the addresses of images.  What a document
  writes there is all that can end a value before its end.
-/
import SceneMarkup.Proofs.Style.Order
import SceneMarkup.Proofs.Style.Value

set_option autoImplicit false

namespace SceneMarkup.Style

/-! ## Plain declarations -/

/-- No value of some declarations holds text of a document. -/
def AllPlain (ds : List Declaration) : Prop := ∀ d ∈ ds, Plain d.2

theorem allPlain_nil : AllPlain [] := by
  intro d h
  simp at h

theorem AllPlain.cons {ds : List Declaration} (hds : AllPlain ds) {value : String}
    (hvalue : Plain value) (property : String) : AllPlain ((property, value) :: ds) := by
  rw [AllPlain, List.forall_mem_cons]
  exact ⟨hvalue, hds⟩

theorem AllPlain.append {ds es : List Declaration} (hds : AllPlain ds) (hes : AllPlain es) :
    AllPlain (ds ++ es) := by
  rw [AllPlain, List.forall_mem_append]
  exact ⟨hds, hes⟩

theorem allPlain_declareIf {value : String} (h : Plain value) (condition : Bool)
    (property : String) : AllPlain (declareIf condition property value) := by
  cases condition with
  | true => exact allPlain_nil.cons h _
  | false => exact allPlain_nil

theorem allPlain_declareSome {value : Option String} (h : ∀ text ∈ value, Plain text)
    (property : String) : AllPlain (declareSome property value) := by
  cases value with
  | some text => exact allPlain_nil.cons (h text rfl) _
  | none => exact allPlain_nil

/-! ## Boxes -/

theorem allPlain_fixedSize (layer : Layer) : AllPlain (fixedSize layer) :=
  (allPlain_declareIf (plain_px _) _ _).append (allPlain_declareIf (plain_px _) _ _)

theorem allPlain_growth (layer : Layer) : AllPlain [growth layer] := by
  unfold growth
  split
  · exact allPlain_nil.cons (plain_numberText _) _
  · exact allPlain_nil.cons (by decide) _

theorem allPlain_geometry (entry : Entry) : AllPlain (geometry entry) := by
  have hrelative : Plain "relative" := by decide
  have habsolute : Plain "absolute" := by decide
  unfold geometry
  cases entry.placement with
  | root => exact (allPlain_fixedSize _).cons hrelative _
  | flow direction =>
      have hsize : AllPlain (if isText entry.layer.kind then [] else fixedSize entry.layer) := by
        split
        · exact allPlain_nil
        · exact allPlain_fixedSize _
      exact ((allPlain_growth _).append hsize).append (allPlain_declareIf hrelative _ _)
  | absolute offset =>
      exact ((((allPlain_nil.cons (plain_px _) _).cons (plain_px _) _).cons (plain_px _) _).cons
        (plain_px _) _).cons habsolute _

theorem allPlain_layout (frame : Frame) : AllPlain (layout frame) := by
  have hdisplay : Plain "flex" := by decide
  have hdirection : ∀ direction : FlowDirection, Plain direction.keyword := by
    intro direction
    cases direction <;> decide
  have hmain : ∀ text ∈ justifyContent? frame.mainAlign, Plain text := by
    cases frame.mainAlign <;> decide
  have hcross : ∀ text ∈ alignItems? frame.crossAlign, Plain text := by
    cases frame.crossAlign <;> decide
  unfold layout
  split
  · exact allPlain_nil
  · exact (((((allPlain_nil.cons (hdirection _) _).cons hdisplay _).append
      (allPlain_declareIf (plain_px _) _ _)).append
      (allPlain_declareIf (plain_padding _) _ _)).append
      (allPlain_declareSome hmain _)).append (allPlain_declareSome hcross _)

theorem allPlain_container (kind : NodeKind) : AllPlain (container kind) := by
  unfold container
  split
  · exact allPlain_nil
  · exact (allPlain_layout _).append (allPlain_declareIf (by decide) _ _)

theorem allPlain_roundedCorners (radii : CornerRadius) : AllPlain (roundedCorners radii) :=
  allPlain_declareIf (plain_radius radii) _ _

theorem allPlain_corners (kind : NodeKind) : AllPlain (corners kind) := by
  cases kind with
  | frame frame => exact allPlain_roundedCorners _
  | instanceOf componentId frame => exact allPlain_roundedCorners _
  | shape shape =>
      rw [corners]
      split
      · exact allPlain_nil.cons (by decide) _
      · exact allPlain_roundedCorners _
  | text text => exact allPlain_nil
  | placeholder typeTag => exact allPlain_nil

theorem allPlain_solidStroke (text : Bool) (weight : Float) (color : Color) :
    AllPlain [solidStroke text weight color] := by
  have hblank : Plain " " := by decide
  have hsolid : Plain " solid " := by decide
  cases text with
  | true => exact allPlain_nil.cons (((plain_px _).append hblank).append (plain_css _)) _
  | false => exact allPlain_nil.cons (((plain_px _).append hsolid).append (plain_css _)) _

theorem allPlain_strokeOf {text : Bool} {weight : Float} {paint : Paint} {ds : List Declaration}
    (h : strokeOf text weight paint = .ok ds) : AllPlain ds := by
  unfold strokeOf at h
  split at h
  · obtain rfl := Except.ok.inj h
    exact allPlain_solidStroke text weight _
  · split at h
    · simp at h
    · split at h
      · rename_i hvalue
        have hborder : Plain " solid transparent" := by decide
        have hslice : Plain " 1" := by decide
        obtain rfl := Except.ok.inj h
        exact (allPlain_nil.cons ((plain_gradientValue hvalue).append hslice) _).cons
          ((plain_px weight).append hborder) _
      · simp at h
  · simp at h
  · simp at h

theorem allPlain_stroke (text : Bool) (weight : Float) (strokes : List Paint) :
    AllPlain (stroke text weight strokes) := by
  cases hstroke : lowestStroke text weight strokes with
  | error problem =>
      rw [stroke, hstroke]
      exact allPlain_nil
  | ok ds =>
      rw [stroke, hstroke]
      unfold lowestStroke at hstroke
      split at hstroke
      · obtain rfl := Except.ok.inj hstroke
        exact allPlain_nil
      · split at hstroke
        · obtain rfl := Except.ok.inj hstroke
          exact allPlain_nil
        · exact allPlain_strokeOf hstroke

/-- Where an effect goes, its value is plain. -/
theorem plain_effectTarget (text : Bool) (kind : EffectKind) :
    (∀ value ∈ (effectTarget text kind).shadow?, Plain value) ∧
      (∀ value ∈ (effectTarget text kind).filter?, Plain value) ∧
      ∀ value ∈ (effectTarget text kind).backdrop?, Plain value := by
  cases kind with
  | dropShadow shadow =>
      refine ⟨?_, by rintro _ ⟨⟩, by rintro _ ⟨⟩⟩
      rintro _ ⟨⟩
      cases text with
      | true => exact plain_textShadow shadow
      | false => exact plain_boxShadow false shadow
  | innerShadow shadow =>
      cases text with
      | true => exact ⟨by rintro _ ⟨⟩, by rintro _ ⟨⟩, by rintro _ ⟨⟩⟩
      | false =>
          refine ⟨?_, by rintro _ ⟨⟩, by rintro _ ⟨⟩⟩
          rintro _ ⟨⟩
          exact plain_boxShadow true shadow
  | layerBlur radius =>
      refine ⟨by rintro _ ⟨⟩, ?_, by rintro _ ⟨⟩⟩
      rintro _ ⟨⟩
      exact plain_blur radius
  | backgroundBlur radius =>
      refine ⟨by rintro _ ⟨⟩, by rintro _ ⟨⟩, ?_⟩
      rintro _ ⟨⟩
      exact plain_blur radius
  | unsupported tag => exact ⟨by rintro _ ⟨⟩, by rintro _ ⟨⟩, by rintro _ ⟨⟩⟩

theorem plain_of_mem_filterMap_effectTargets {text : Bool} {effects : List SceneMarkup.Effect}
    {part? : EffectTarget → Option String}
    (h : ∀ kind : EffectKind, ∀ value ∈ part? (effectTarget text kind), Plain value)
    {value : String} (hvalue : value ∈ (effectTargets text effects).filterMap part?) :
    Plain value := by
  obtain ⟨target, htarget, hpart⟩ := List.mem_filterMap.1 hvalue
  obtain ⟨effect, _, rfl⟩ := List.mem_map.1 htarget
  exact h effect.kind value hpart

theorem allPlain_declareJoined {separator : String} (hseparator : Plain separator)
    {values : List String} (h : ∀ value ∈ values, Plain value) (property : String) :
    AllPlain (declareJoined property separator values) :=
  allPlain_declareIf (plain_intercalate hseparator h) _ _

theorem allPlain_effect (text : Bool) (effects : List SceneMarkup.Effect) :
    AllPlain (effect text effects) :=
  ((allPlain_declareJoined (by decide) (fun _ hvalue => plain_of_mem_filterMap_effectTargets
      (fun kind => (plain_effectTarget text kind).1) hvalue) _).append
    (allPlain_declareJoined (by decide) (fun _ hvalue => plain_of_mem_filterMap_effectTargets
      (fun kind => (plain_effectTarget text kind).2.1) hvalue) _)).append
    (allPlain_declareJoined (by decide) (fun _ hvalue => plain_of_mem_filterMap_effectTargets
      (fun kind => (plain_effectTarget text kind).2.2) hvalue) _)

theorem allPlain_paragraph (style : TextStyle) : AllPlain (paragraph style) := by
  have halign : ∀ text ∈ textAlign? style.alignHorizontal, Plain text := by
    cases style.alignHorizontal <;> decide
  have hvertical : ∀ text ∈ verticalKeyword? style.alignVertical, Plain text := by
    cases style.alignVertical <;> decide
  refine (allPlain_declareSome halign _).append ?_
  split
  · exact allPlain_nil
  · rename_i keyword hkeyword
    exact ((allPlain_nil.cons (hvertical keyword hkeyword) _).cons (by decide) _).cons
      (by decide) _

theorem allPlain_compositing (layer : Layer) : AllPlain (compositing layer) := by
  have hmode : ∀ text ∈ layer.blendMode.keyword?, Plain text := by
    cases layer.blendMode <;> decide
  exact ((allPlain_declareIf (by decide) _ _).append
    (allPlain_declareIf (plain_numberText _) _ _)).append (allPlain_declareSome hmode _)

/-! ## Fonts -/

/-- The declaration of the font of a text. -/
def familyDeclaration (family : String) : Declaration := ("font-family", quoted family)

theorem mem_font {style : TextStyle} {d : Declaration} (h : d ∈ font style) :
    d = familyDeclaration style.fontFamily ∨ Plain d.2 := by
  have hheight : ∀ text ∈ lineHeight? style.lineHeight, Plain text := by
    cases style.lineHeight with
    | normal => rintro _ ⟨⟩
    | pixels value => rintro _ ⟨⟩; exact plain_px value
    | percent value => rintro _ ⟨⟩; exact plain_percent _
  have hcase : ∀ text ∈ textTransform? style.case, Plain text := by
    cases style.case <;> decide
  have hdecoration : ∀ text ∈ textDecoration? style.decoration, Plain text := by
    cases style.decoration <;> decide
  have hrest : AllPlain ([("font-weight", Decimal.numberText style.fontWeight),
      ("font-size", px style.fontSize)] ++
      declareSome "line-height" (lineHeight? style.lineHeight) ++
      declareIf (style.letterSpacing != 0) "letter-spacing" (px style.letterSpacing) ++
      declareIf style.italic "font-style" "italic" ++
      declareSome "text-transform" (textTransform? style.case) ++
      declareSome "text-decoration" (textDecoration? style.decoration)) :=
    ((((((allPlain_nil.cons (plain_px _) _).cons (plain_numberText _) _).append
      (allPlain_declareSome hheight _)).append (allPlain_declareIf (plain_px _) _ _)).append
      (allPlain_declareIf (by decide) _ _)).append (allPlain_declareSome hcase _)).append
      (allPlain_declareSome hdecoration _)
  rcases List.mem_cons.1 h with h | h
  · exact Or.inl h
  · exact Or.inr (hrest d h)

/-! ## Fills -/

/-- Some layers as one background, the topmost first. -/
def backgroundValue (layers : List FillLayer) : String :=
  String.intercalate ", " (layers.reverse.map FillLayer.background)

/-- A layer of some fills is a color, a gradient, or one of the visible images. -/
theorem mem_fillLayers {fills : List Paint} {layer : FillLayer} (h : layer ∈ fillLayers fills) :
    Plain layer.background ∨
      ∃ paint ∈ fills.filter (·.visible), ∃ reference mode,
        paint.ink = .image reference mode ∧ layer = .value (imageValue reference mode) := by
  obtain ⟨result, hresult, hsuccess⟩ := List.mem_filterMap.1 h
  obtain ⟨paint, hpaint, rfl⟩ := List.mem_map.1 hresult
  unfold fillLayer at hsuccess
  split at hsuccess
  · cases hsuccess
    have hstart : Plain "linear-gradient(" := by decide
    have hcomma : Plain ", " := by decide
    have hend : Plain ")" := by decide
    exact Or.inl ((((hstart.append (plain_css _)).append hcomma).append (plain_css _)).append hend)
  · split at hsuccess
    · rename_i hvalue
      cases hsuccess
      exact Or.inl (plain_gradientValue hvalue)
    · cases hsuccess
  · rename_i reference mode hink
    cases hsuccess
    exact Or.inr ⟨paint, hpaint, reference, mode, hink, rfl⟩
  · cases hsuccess

/-- A background is closed if its images are. -/
theorem closed_backgroundValue {lexis : Lexis} (fills : List Paint)
    (h : ∀ paint ∈ fills.filter (·.visible), ∀ reference mode, paint.ink = .image reference mode →
      lexis.Closed (imageValue reference mode)) :
    lexis.Closed (backgroundValue (fillLayers fills)) := by
  refine Lexis.closed_intercalate (Lexis.closed_of_plain (by decide)) ?_
  intro text htext
  obtain ⟨layer, hlayer, rfl⟩ := List.mem_map.1 htext
  rcases mem_fillLayers (List.mem_reverse.1 hlayer) with hplain | ⟨paint, hpaint, reference, mode,
    hink, rfl⟩
  · exact Lexis.closed_of_plain hplain
  · exact h paint hpaint reference mode hink

theorem mem_fill {text : Bool} {fills : List Paint} {d : Declaration} (h : d ∈ fill text fills) :
    d = ("background", backgroundValue (fillLayers fills)) ∨ Plain d.2 := by
  unfold fill layerDeclarations at h
  split at h
  · simp at h
  · split at h
    · rw [List.mem_singleton] at h
      rw [h]
      exact Or.inr (plain_css _)
    · rcases List.mem_cons.1 h with h | h
      · exact Or.inl h
      · have hclip : AllPlain (if text then [("background-clip", "text"), ("color", "transparent")]
            else []) := by
          cases text with
          | true => exact (allPlain_nil.cons (by decide) _).cons (by decide) _
          | false => exact allPlain_nil
        exact Or.inr (hclip d h)

/-! ## Records -/

theorem mem_textRecord {style : TextStyle} {fills : List Paint} {d : Declaration}
    (h : d ∈ (textRecord style fills).declarations) :
    d = familyDeclaration style.fontFamily ∨
      d = ("background", backgroundValue (fillLayers fills)) ∨ Plain d.2 := by
  rw [declarations_textRecord] at h
  rcases List.mem_append.1 h with h | h
  · exact (mem_font h).imp_right Or.inr
  · exact Or.inr (mem_fill h)

theorem mem_boxDeclarations {layer : Layer} {d : Declaration} (h : d ∈ boxDeclarations layer) :
    d = ("background", backgroundValue (fillLayers layer.fills)) ∨ Plain d.2 := by
  rw [boxDeclarations, List.mem_append, List.mem_append, List.mem_append] at h
  rcases h with ((h | h) | h) | h
  · exact mem_fill h
  · exact Or.inr (allPlain_stroke _ _ _ d h)
  · exact Or.inr (allPlain_corners _ d h)
  · exact Or.inr (allPlain_effect _ _ d h)

theorem mem_textDeclarations {layer : Layer} {text : TextBlock} {d : Declaration}
    (h : d ∈ textDeclarations layer text) :
    d ∈ (baseRecord layer text).declarations ∨ Plain d.2 := by
  rw [textDeclarations, List.mem_append, List.mem_append, List.mem_append] at h
  rcases h with ((h | h) | h) | h
  · exact Or.inr (allPlain_paragraph _ d h)
  · exact Or.inr (allPlain_stroke _ _ _ d h)
  · exact Or.inr (allPlain_effect _ _ d h)
  · exact Or.inl h

/-- A declaration of a node is plain, or it is the background of its fills, which placeholders do
not show, or, if the node is a text, its font. -/
theorem mem_record {entry : Entry} {d : Declaration} (h : d ∈ (record entry).declarations) :
    Plain d.2 ∨
      ((∀ typeTag, entry.layer.kind ≠ .placeholder typeTag) ∧
        d = ("background", backgroundValue (fillLayers entry.layer.fills))) ∨
      ∃ text, entry.layer.kind = .text text ∧ d = familyDeclaration text.style.fontFamily := by
  have hmem := Record.mem_of_mem_ofList h
  rw [List.mem_append, List.mem_append, List.mem_append] at hmem
  rcases hmem with ((hmem | hmem) | hmem) | hmem
  · exact Or.inl (allPlain_geometry entry d hmem)
  · exact Or.inl (allPlain_container _ d hmem)
  · unfold contentDeclarations at hmem
    cases hkind : entry.layer.kind with
    | frame frame =>
        rw [hkind] at hmem
        exact (mem_boxDeclarations hmem).symm.imp_right fun hd => Or.inl ⟨by simp, hd⟩
    | instanceOf componentId frame =>
        rw [hkind] at hmem
        exact (mem_boxDeclarations hmem).symm.imp_right fun hd => Or.inl ⟨by simp, hd⟩
    | shape shape =>
        rw [hkind] at hmem
        exact (mem_boxDeclarations hmem).symm.imp_right fun hd => Or.inl ⟨by simp, hd⟩
    | text text =>
        rw [hkind] at hmem
        rcases mem_textDeclarations hmem with hmem | hmem
        · rcases mem_textRecord hmem with hmem | hmem | hmem
          · exact Or.inr (Or.inr ⟨text, rfl, hmem⟩)
          · exact Or.inr (Or.inl ⟨by simp, hmem⟩)
          · exact Or.inl hmem
        · exact Or.inl hmem
    | placeholder typeTag =>
        rw [hkind] at hmem
        simp at hmem
  · exact Or.inl (allPlain_compositing _ d hmem)

end SceneMarkup.Style
