/-
  SceneMarkup/Proofs/Style/Fill.lean --- what becomes of each fill.

  WHAT THIS FILE IS FOR.  A list of fills goes two ways: what can be drawn becomes layers,
  and the rest becomes warnings.  `Accounted` says so fill by fill, without the lists that
  are filtered on the way.  What is then declared depends on the layers alone, and where
  they are all of one color it is the color that the visible fills have together.
-/
import SceneMarkup.Proofs.Style.Record
import SceneMarkup.Style.Resolve

set_option autoImplicit false

namespace SceneMarkup.Style

/-! ## One fill -/

/-- The layer that a paint draws. -/
inductive Draws (paint : Paint) : FillLayer → Prop where
  | color {color : Color} (ink : paint.ink = .solid color) :
      Draws paint (.color (color.withOpacity paint.opacity))
  | gradient {g : Gradient} {text : String} (ink : paint.ink = .gradient g) (stops : g.stops ≠ [])
      (ordered : g.isMonotone = true) (text_eq : gradientValue g paint.opacity = .ok text) :
      Draws paint (.value text)
  | image {reference : String} {mode : ScaleMode} (ink : paint.ink = .image reference mode) :
      Draws paint (.value (imageValue reference mode))

/-- What keeps a paint from being drawn. -/
inductive Lacks (paint : Paint) : Problem → Prop where
  | style {tag : String} (ink : paint.ink = .unsupported tag) : Lacks paint (.unsupportedFill tag)
  | stops {g : Gradient} (ink : paint.ink = .gradient g) (stops : g.stops = []) :
      Lacks paint (.gradientFill .noStops)
  | order {g : Gradient} (ink : paint.ink = .gradient g) (stops : g.stops ≠ [])
      (unordered : g.isMonotone = false) : Lacks paint (.gradientFill .unordered)

theorem gradientValue_of_noStops {g : Gradient} (h : g.stops = []) (opacity : Float) :
    gradientValue g opacity = .error .noStops :=
  if_pos (List.isEmpty_iff.2 h)

theorem gradientValue_of_unordered {g : Gradient} (h : g.stops ≠ [])
    (hordered : g.isMonotone = false) (opacity : Float) :
    gradientValue g opacity = .error .unordered := by
  rw [gradientValue, if_neg (by rwa [List.isEmpty_iff]), hordered]
  rfl

/-- A gradient is written if it has stops and their positions never decrease. -/
theorem exists_gradientValue {g : Gradient} (h : g.stops ≠ []) (hordered : g.isMonotone = true)
    (opacity : Float) : ∃ text, gradientValue g opacity = .ok text := by
  rw [gradientValue, if_neg (by rwa [List.isEmpty_iff]), hordered]
  exact ⟨_, rfl⟩

/-- A paint draws a layer or lacks something for it, and this is what it is taken for. -/
theorem fillLayer_cases (paint : Paint) :
    (∃ layer, fillLayer paint = .ok layer ∧ Draws paint layer) ∨
      ∃ problem, fillLayer paint = .error problem ∧ Lacks paint problem := by
  cases hink : paint.ink with
  | solid color =>
      refine Or.inl ⟨_, ?_, .color hink⟩
      rw [fillLayer, hink]
  | gradient g =>
      by_cases hstops : g.stops = []
      · refine Or.inr ⟨_, ?_, .stops hink hstops⟩
        simp only [fillLayer, hink, gradientValue_of_noStops hstops]
      cases hordered : g.isMonotone with
      | false =>
          refine Or.inr ⟨_, ?_, .order hink hstops hordered⟩
          simp only [fillLayer, hink, gradientValue_of_unordered hstops hordered]
      | true =>
          obtain ⟨text, htext⟩ := exists_gradientValue hstops hordered paint.opacity
          refine Or.inl ⟨_, ?_, .gradient hink hstops hordered htext⟩
          simp only [fillLayer, hink, htext]
  | image reference mode =>
      refine Or.inl ⟨_, ?_, .image hink⟩
      rw [fillLayer, hink]
  | unsupported tag =>
      refine Or.inr ⟨_, ?_, .style hink⟩
      rw [fillLayer, hink]

theorem Draws.fillLayer_eq {paint : Paint} {layer : FillLayer} (h : Draws paint layer) :
    fillLayer paint = .ok layer := by
  cases h with
  | color ink => rw [fillLayer, ink]
  | gradient ink stops ordered text_eq => simp only [fillLayer, ink, text_eq]
  | image ink => rw [fillLayer, ink]

theorem Lacks.fillLayer_eq {paint : Paint} {problem : Problem} (h : Lacks paint problem) :
    fillLayer paint = .error problem := by
  cases h with
  | style ink => rw [fillLayer, ink]
  | stops ink stops => simp only [fillLayer, ink, gradientValue_of_noStops stops]
  | order ink stops unordered =>
      simp only [fillLayer, ink, gradientValue_of_unordered stops unordered]

/-! ## All fills -/

/-- The layers and the problems of some fills: each visible fill, in order, has one of either, and
a hidden fill has neither. -/
inductive Accounted : List Paint → List FillLayer → List Problem → Prop where
  | nil : Accounted [] [] []
  | hidden {paint : Paint} {rest : List Paint} {layers : List FillLayer} {problems : List Problem}
      (visible : paint.visible = false) (others : Accounted rest layers problems) :
      Accounted (paint :: rest) layers problems
  | layer {paint : Paint} {layer : FillLayer} {rest : List Paint} {layers : List FillLayer}
      {problems : List Problem} (visible : paint.visible = true) (draws : Draws paint layer)
      (others : Accounted rest layers problems) :
      Accounted (paint :: rest) (layer :: layers) problems
  | problem {paint : Paint} {problem : Problem} {rest : List Paint} {layers : List FillLayer}
      {problems : List Problem} (visible : paint.visible = true) (lacks : Lacks paint problem)
      (others : Accounted rest layers problems) :
      Accounted (paint :: rest) layers (problem :: problems)

theorem visibleLayers_cons_hidden {paint : Paint} (h : paint.visible = false) (rest : List Paint) :
    visibleLayers (paint :: rest) = visibleLayers rest := by
  rw [visibleLayers, List.filter_cons_of_neg (by simp [h])]
  rfl

theorem visibleLayers_cons_visible {paint : Paint} (h : paint.visible = true) (rest : List Paint) :
    visibleLayers (paint :: rest) = fillLayer paint :: visibleLayers rest := by
  rw [visibleLayers, List.filter_cons_of_pos h, List.map_cons]
  rfl

theorem accounted_fills (fills : List Paint) :
    Accounted fills (fillLayers fills) (fillProblems fills) := by
  induction fills with
  | nil => exact .nil
  | cons paint rest ih =>
      rw [fillLayers, fillProblems]
      cases hvisible : paint.visible with
      | false =>
          rw [visibleLayers_cons_hidden hvisible]
          exact .hidden hvisible ih
      | true =>
          rw [visibleLayers_cons_visible hvisible]
          rcases fillLayer_cases paint with ⟨layer, hlayer, hdraws⟩ | ⟨problem, hproblem, hlacks⟩
          · rw [hlayer]
            exact .layer hvisible hdraws ih
          · rw [hproblem]
            exact .problem hvisible hlacks ih

/-- There is one way to account for fills. -/
theorem accounted_iff {fills : List Paint} {layers : List FillLayer} {problems : List Problem} :
    Accounted fills layers problems ↔
      layers = fillLayers fills ∧ problems = fillProblems fills := by
  constructor
  · intro h
    induction h with
    | nil => exact ⟨rfl, rfl⟩
    | hidden visible others ih =>
        rw [fillLayers, fillProblems, visibleLayers_cons_hidden visible]
        exact ih
    | layer visible draws others ih =>
        rw [fillLayers, fillProblems, visibleLayers_cons_visible visible, draws.fillLayer_eq]
        exact ⟨congrArg (_ :: ·) ih.1, ih.2⟩
    | problem visible lacks others ih =>
        rw [fillLayers, fillProblems, visibleLayers_cons_visible visible, lacks.fillLayer_eq]
        exact ⟨ih.1, congrArg (_ :: ·) ih.2⟩
  · rintro ⟨rfl, rfl⟩
    exact accounted_fills fills

/-! ## Fills that are left out -/

/-- Whether a paint has no style as a fill: it is of an unknown kind, or a gradient without stops
or with positions that decrease. -/
def undrawable (paint : Paint) : Bool :=
  match paint.ink with
  | .unsupported _ => true
  | .gradient g => g.stops.isEmpty || !g.isMonotone
  | _ => false

/-- The number of visible fills that are left out. -/
def undrawn (fills : List Paint) : Nat := (fills.filter (·.visible)).countP undrawable

theorem Draws.undrawable_eq {paint : Paint} {layer : FillLayer} (h : Draws paint layer) :
    undrawable paint = false := by
  cases h with
  | color ink => rw [undrawable, ink]
  | gradient ink stops ordered text_eq => simp [undrawable, ink, stops, ordered]
  | image ink => rw [undrawable, ink]

theorem Lacks.undrawable_eq {paint : Paint} {problem : Problem} (h : Lacks paint problem) :
    undrawable paint = true := by
  cases h with
  | style ink => rw [undrawable, ink]
  | stops ink stops => simp [undrawable, ink, stops]
  | order ink stops unordered => simp [undrawable, ink, unordered]

theorem Accounted.length_problems {fills : List Paint} {layers : List FillLayer}
    {problems : List Problem} (h : Accounted fills layers problems) :
    problems.length = undrawn fills := by
  induction h with
  | nil => rfl
  | hidden visible others ih =>
      rw [undrawn, List.filter_cons_of_neg (by simp [visible]), ih, undrawn]
  | layer visible draws others ih =>
      rw [undrawn, List.filter_cons_of_pos visible,
        List.countP_cons_of_neg (by simp [draws.undrawable_eq]), ih, undrawn]
  | problem visible lacks others ih =>
      rw [undrawn, List.filter_cons_of_pos visible, List.countP_cons_of_pos lacks.undrawable_eq,
        List.length_cons, ih, undrawn]

/-- There is one problem for every visible fill that is left out. -/
theorem length_fillProblems (fills : List Paint) : (fillProblems fills).length = undrawn fills :=
  (accounted_fills fills).length_problems

/-! ## Declarations -/

theorem Draws.color?_eq {paint : Paint} {layer : FillLayer} (h : Draws paint layer) :
    layer.color? = paint.solidColor? := by
  cases h with
  | color ink => rw [Paint.solidColor?, ink]; rfl
  | gradient ink stops ordered text_eq => rw [Paint.solidColor?, ink]; rfl
  | image ink => rw [Paint.solidColor?, ink]; rfl

theorem Lacks.solidColor?_eq {paint : Paint} {problem : Problem} (h : Lacks paint problem) :
    paint.solidColor? = none := by
  cases h with
  | style ink => rw [Paint.solidColor?, ink]
  | stops ink stops => rw [Paint.solidColor?, ink]
  | order ink stops unordered => rw [Paint.solidColor?, ink]

/-- The layers of one color have the colors of the visible fills of one color. -/
theorem Accounted.colors_eq {fills : List Paint} {layers : List FillLayer}
    {problems : List Problem} (h : Accounted fills layers problems) :
    layers.filterMap FillLayer.color? =
      (fills.filter (·.visible)).filterMap Paint.solidColor? := by
  induction h with
  | nil => rfl
  | hidden visible others ih => rw [List.filter_cons_of_neg (by simp [visible]), ih]
  | layer visible draws others ih =>
      rw [List.filter_cons_of_pos visible, List.filterMap_cons, List.filterMap_cons,
        draws.color?_eq, ih]
  | problem visible lacks others ih =>
      rw [List.filter_cons_of_pos visible, List.filterMap_cons, lacks.solidColor?_eq, ih]

/-- What a record declares once fills with some layers were written into it. -/
structure Filled (text : Bool) (fills : List Paint) (layers : List FillLayer)
    (before after : Record) : Prop where
  /-- nothing to draw -/
  unchanged : layers = [] → after = before
  /-- the color that the visible fills have together -/
  color : layers ≠ [] → (∀ layer ∈ layers, ∃ color, layer = .color color) →
    before.Sets
      [(if text then "color" else "background-color",
        (Paint.compositeSolids (fills.filter (·.visible))).css)] after
  /-- the layers, the topmost first; a color is a gradient that does not change -/
  layered : (∃ layer ∈ layers, ∃ value, layer = .value value) →
    before.Sets
      (("background", String.intercalate ", " (layers.reverse.map fun
          | .color c => "linear-gradient(" ++ c.css ++ ", " ++ c.css ++ ")"
          | .value value => value)) ::
        if text then [("background-clip", "text"), ("color", "transparent")] else []) after

/-- A record and the warnings so far after fills were written into the record. -/
def fillInto (id : String) (text : Bool) (fills : List Paint) (start : Record)
    (earlier : Diagnostics) : Record × Diagnostics :=
  (start.setAll (fill text fills), earlier ++ (fillProblems fills).map (Problem.diagnostic id))

theorem layerDeclarations_of_colors (text : Bool) {layers : List FillLayer} (hne : layers ≠ [])
    (h : ∀ layer ∈ layers, ∃ color, layer = .color color) :
    layerDeclarations text layers =
      [(if text then "color" else "background-color",
        (Rgba.composite (layers.filterMap FillLayer.color?) : Color).css)] := by
  have hall : (layers.all fun layer => layer.color?.isSome) = true := by
    rw [List.all_eq_true]
    intro layer hlayer
    obtain ⟨color, rfl⟩ := h layer hlayer
    rfl
  rw [layerDeclarations, if_neg (by rwa [List.isEmpty_iff]), if_pos hall]

theorem layerDeclarations_of_value (text : Bool) {layers : List FillLayer}
    (h : ∃ layer ∈ layers, ∃ value, layer = .value value) :
    layerDeclarations text layers =
      ("background", String.intercalate ", " (layers.reverse.map fun
          | .color c => "linear-gradient(" ++ c.css ++ ", " ++ c.css ++ ")"
          | .value value => value)) ::
        if text then [("background-clip", "text"), ("color", "transparent")] else [] := by
  obtain ⟨layer, hlayer, value, rfl⟩ := h
  have hne : layers ≠ [] := List.ne_nil_of_mem hlayer
  have hall : ¬ (layers.all fun layer => layer.color?.isSome) = true := by
    rw [List.all_eq_true]
    exact fun hcolors => Bool.false_ne_true (hcolors _ hlayer)
  rw [layerDeclarations, if_neg (by rwa [List.isEmpty_iff]), if_neg hall]
  rfl

theorem filled_fillInto (id : String) (text : Bool) (fills : List Paint) (start : Record)
    (earlier : Diagnostics) :
    Filled text fills (fillLayers fills) start (fillInto id text fills start earlier).1 := by
  rw [fillInto, fill]
  refine ⟨?_, ?_, ?_⟩
  · intro hnone
    rw [hnone]
    rfl
  · intro hne hcolors
    rw [layerDeclarations_of_colors text hne hcolors, (accounted_fills fills).colors_eq]
    exact start.sets_setAll (List.nodup_singleton _)
  · intro hvalue
    rw [layerDeclarations_of_value text hvalue]
    refine start.sets_setAll ?_
    cases text <;> simp

/-- The characters of a text have their font, and then their fills. -/
theorem textRecord_eq_fillInto (id : String) (style : TextStyle) (fills : List Paint)
    (earlier : Diagnostics) :
    textRecord style fills = (fillInto id true fills (.ofList (font style)) earlier).1 :=
  Record.ofList_append _ _

/-- A box has its fills written into what its place and its layout declare, before all else. -/
theorem record_eq_fillInto {entry : Entry}
    (h : contentDeclarations entry.layer = boxDeclarations entry.layer) (earlier : Diagnostics) :
    record entry =
      (fillInto entry.id false entry.layer.fills
        (.ofList (geometry entry ++ container entry.layer.kind)) earlier).1.setAll
          (stroke false entry.layer.strokeWeight entry.layer.strokes ++ corners entry.layer.kind ++
            effect false entry.layer.effects ++ compositing entry.layer) := by
  rw [record, h, boxDeclarations, fillInto, ← Record.setAll_append, ← Record.ofList_append]
  simp only [List.append_assoc]

/-- Every visible fill, in order, gives one layer or one warning, and hidden fills give nothing.
Without a layer the record stays as it was. If all layers are of one color, the one property that
is set has the color of the visible fills laid over each other; otherwise the background is set to
all layers, the topmost first. All other properties keep their values. -/
theorem fills_accounted (id : String) (text : Bool) (fills : List Paint) (start : Record)
    (earlier : Diagnostics) :
    ∃ layers problems, Accounted fills layers problems ∧
      (∀ layers' problems', Accounted fills layers' problems' →
        layers' = layers ∧ problems' = problems) ∧
      (fillInto id text fills start earlier).2 =
        earlier ++ problems.map (fun problem => .warning id problem.message) ∧
      Filled text fills layers start (fillInto id text fills start earlier).1 :=
  ⟨fillLayers fills, fillProblems fills, accounted_fills fills,
    fun _ _ h => accounted_iff.1 h, rfl, filled_fillInto id text fills start earlier⟩

/-- A hidden paint, and three paints that have no style each for a reason of its own, leave a color
and an image, which a text shows one over the other. -/
theorem fills_accounted_of_skipped_gradient :
    let red : Color := .rgb 1 0 0
    let downhill : Gradient := ⟨.linear, [⟨1, red⟩, ⟨0, red⟩], []⟩
    let fills : List Paint := [⟨.solid red, 0.5, true⟩, ⟨.unsupported "VIDEO", 1, false⟩,
      ⟨.gradient ⟨.linear, [], []⟩, 1, true⟩, ⟨.unsupported "NOISE", 1, true⟩,
      ⟨.image "a.png" .fit, 1, true⟩, ⟨.gradient downhill, 1, true⟩]
    let after := fillInto "n" true fills (.ofList [("color", "blue"), ("opacity", "0.5")]) []
    after.2 = [.warning "n" "gradient has no color stops, layer skipped",
        .warning "n" "unsupported paint type `NOISE`, skipped",
        .warning "n" "gradient stops are not in non-decreasing position order, layer skipped"] ∧
      after.1.get? "background" = some ("url(\"a.png\") center / contain no-repeat, " ++
        "linear-gradient(rgba(255, 0, 0, 0.5), rgba(255, 0, 0, 0.5))") ∧
      after.1.get? "background-clip" = some "text" ∧
      after.1.get? "color" = some "transparent" ∧ after.1.get? "opacity" = some "0.5" ∧
      after.1.get? "background-color" = none := by
  intro red downhill fills after
  obtain ⟨layers, problems, -, hone, hwarnings, hfilled⟩ :=
    fills_accounted "n" true fills (.ofList [("color", "blue"), ("opacity", "0.5")]) []
  have hunordered : downhill.isMonotone = false := by decide +kernel
  obtain ⟨rfl, rfl⟩ := hone [.color (red.withOpacity 0.5), .value (imageValue "a.png" .fit)]
    [.gradientFill .noStops, .unsupportedFill "NOISE", .gradientFill .unordered]
    (.layer rfl (.color rfl) (.hidden rfl (.problem rfl (.stops rfl rfl) (.problem rfl (.style rfl)
      (.layer rfl (.image rfl) (.problem rfl (.order rfl (by simp [downhill]) hunordered)
        .nil))))))
  have hsets := hfilled.layered ⟨_, List.mem_cons_of_mem _ List.mem_cons_self, _, rfl⟩
  refine ⟨hwarnings, (hsets.value _ List.mem_cons_self).trans (by decide +kernel),
    hsets.value ("background-clip", "text") (by simp),
    hsets.value ("color", "transparent") (by simp), ?_, ?_⟩
  · exact (hsets.others "opacity" (by simp)).trans rfl
  · exact (hsets.others "background-color" (by simp)).trans rfl

end SceneMarkup.Style
