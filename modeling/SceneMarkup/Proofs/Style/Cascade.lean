/-
  SceneMarkup/Proofs/Style/Cascade.lean --- what the characters of a run show.

  WHAT THIS FILE IS FOR.  A span declares only what differs from the text around it, and
  shows the declarations of the text where it has none of its own.  That is the style of
  the run wherever the style declares all that the text declares.  It is not where the
  style switches something off: what is off has no declaration, so there is nothing to
  differ, and the text shows through.
-/
import SceneMarkup.Proofs.Style.Order

set_option autoImplicit false

namespace SceneMarkup

namespace Record

/-! ## One record over another -/

/-- The value of a property inside an element with the record `own`, which is inside one with the
record `base`. -/
def shown (own base : Record) (property : String) : Option String :=
  (own.get? property).or (base.get? property)

theorem get?_difference (r base : Record) (property : String) :
    (r.difference base).get? property =
      if r.get? property = base.get? property then none else r.get? property := by
  cases hr : r.get? property with
  | none =>
      rw [ite_self, Option.eq_none_iff_forall_ne_some]
      intro value hvalue
      have hmem := (mem_difference.1 (get?_eq_some_iff.1 hvalue)).1
      rw [← get?_eq_some_iff, hr] at hmem
      simp at hmem
  | some value =>
      split
      · rename_i hsame
        rw [Option.eq_none_iff_forall_ne_some]
        intro value' hvalue'
        obtain ⟨hmem, hnot⟩ := mem_difference.1 (get?_eq_some_iff.1 hvalue')
        have hvalues := value_eq_of_mem hmem (get?_eq_some_iff.1 hr)
        rw [hvalues] at hnot
        exact hnot (get?_eq_some_iff.1 hsame.symm)
      · rename_i hdiffers
        refine get?_eq_some_iff.2 (mem_difference.2 ⟨get?_eq_some_iff.1 hr, fun hmem => ?_⟩)
        exact hdiffers (get?_eq_some_iff.2 hmem).symm

/-- What is left of a record over another shows the record, except for a property that only the
other declares. -/
theorem shown_difference_iff (r base : Record) (property : String) :
    (r.difference base).shown base property = r.get? property ↔
      (base.has property = true → r.has property = true) := by
  rw [shown, get?_difference, has, has]
  cases hr : r.get? property with
  | none =>
      cases hbase : base.get? property with
      | none => simp
      | some value => simp
  | some value =>
      by_cases hsame : some value = base.get? property
      · simp [← hsame]
      · simp [hsame]

end Record

namespace Style

/-! ## What a text declares -/

theorem map_declareIf (condition : Bool) (property value : String) :
    (declareIf condition property value).map (·.1) = if condition then [property] else [] := by
  cases condition <;> rfl

theorem map_declareSome (property : String) (value : Option String) :
    (declareSome property value).map (·.1) = if value.isSome then [property] else [] := by
  cases value <;> rfl

/-- Whether some layers cannot be laid over each other to one color. -/
def isLayered (layers : List FillLayer) : Bool := layers.any fun layer => layer.color?.isNone

theorem map_fill (fills : List Paint) :
    (fill true fills).map (·.1) =
      if isLayered (fillLayers fills) then ["background", "background-clip", "color"]
      else if (fillLayers fills).isEmpty then [] else ["color"] := by
  unfold fill layerDeclarations
  cases hempty : (fillLayers fills).isEmpty with
  | true =>
      rw [List.isEmpty_iff] at hempty
      rw [hempty]
      rfl
  | false =>
      have hall : ((fillLayers fills).all fun layer => layer.color?.isSome) =
          !isLayered (fillLayers fills) := by
        rw [isLayered, List.not_any_eq_all_not]
        simp
      rw [hall]
      cases isLayered (fillLayers fills) <;> rfl

theorem properties_textRecord (style : TextStyle) (fills : List Paint) :
    (textRecord style fills).properties =
      ["font-family", "font-weight", "font-size"] ++
        (if (lineHeight? style.lineHeight).isSome then ["line-height"] else []) ++
        (if style.letterSpacing != 0 then ["letter-spacing"] else []) ++
        (if style.italic then ["font-style"] else []) ++
        (if (textTransform? style.case).isSome then ["text-transform"] else []) ++
        (if (textDecoration? style.decoration).isSome then ["text-decoration"] else []) ++
        (if isLayered (fillLayers fills) then ["background", "background-clip", "color"]
          else if (fillLayers fills).isEmpty then [] else ["color"]) := by
  rw [Record.properties, declarations_textRecord, List.map_append, map_fill, font]
  simp only [List.map_append, map_declareIf, map_declareSome]
  rfl

/-! ## Switching off -/

/-- Whatever characters with a style and fills declare, characters with another style and other
fills declare too: going from the one to the other switches nothing off. -/
structure SwitchesNothingOff (style : TextStyle) (fills : List Paint) (other : TextStyle)
    (otherFills : List Paint) : Prop where
  lineHeight : style.lineHeight ≠ .normal → other.lineHeight ≠ .normal
  letterSpacing : (style.letterSpacing != 0) = true → (other.letterSpacing != 0) = true
  italic : style.italic = true → other.italic = true
  case : style.case ≠ .asTyped → other.case ≠ .asTyped
  decoration : style.decoration ≠ .none → other.decoration ≠ .none
  /-- fills do not end -/
  filled : fillLayers fills ≠ [] → fillLayers otherFills ≠ []
  /-- gradients and images do not become a color -/
  layered : isLayered (fillLayers fills) = true → isLayered (fillLayers otherFills) = true

theorem isSome_lineHeight?_iff (height : LineHeight) :
    (lineHeight? height).isSome = true ↔ height ≠ .normal := by
  cases height <;> simp [lineHeight?]

theorem isSome_textTransform?_iff (textCase : TextCase) :
    (textTransform? textCase).isSome = true ↔ textCase ≠ .asTyped := by
  cases textCase <;> simp [textTransform?]

theorem isSome_textDecoration?_iff (decoration : TextDecoration) :
    (textDecoration? decoration).isSome = true ↔ decoration ≠ .none := by
  cases decoration <;> simp [textDecoration?]

theorem mem_properties_textRecord {style : TextStyle} {fills : List Paint} {property : String} :
    property ∈ (textRecord style fills).properties ↔
      property ∈ ["font-family", "font-weight", "font-size"] ∨
        (style.lineHeight ≠ .normal ∧ property = "line-height") ∨
        ((style.letterSpacing != 0) = true ∧ property = "letter-spacing") ∨
        (style.italic = true ∧ property = "font-style") ∨
        (style.case ≠ .asTyped ∧ property = "text-transform") ∨
        (style.decoration ≠ .none ∧ property = "text-decoration") ∨
        (isLayered (fillLayers fills) = true ∧ property ∈ ["background", "background-clip"]) ∨
        (fillLayers fills ≠ [] ∧ property = "color") := by
  have hfills : property ∈ (if isLayered (fillLayers fills) then
        ["background", "background-clip", "color"]
      else if (fillLayers fills).isEmpty then [] else ["color"]) ↔
      (isLayered (fillLayers fills) = true ∧ property ∈ ["background", "background-clip"]) ∨
        (fillLayers fills ≠ [] ∧ property = "color") := by
    cases hlayered : isLayered (fillLayers fills) with
    | true =>
        have hne : fillLayers fills ≠ [] := by
          intro hnil
          rw [hnil] at hlayered
          simp [isLayered] at hlayered
        simp [hne, or_assoc]
    | false =>
        by_cases hnil : fillLayers fills = []
        · simp [hnil]
        · simp [hnil]
  rw [properties_textRecord, List.mem_append, hfills]
  simp only [List.mem_append, List.mem_ite_nil_right, List.mem_singleton, or_assoc,
    isSome_lineHeight?_iff, isSome_textTransform?_iff, isSome_textDecoration?_iff]

/-- Characters in another style declare all that they declared before if and only if nothing was
switched off. -/
theorem has_imp_has_iff (style : TextStyle) (fills : List Paint) (other : TextStyle)
    (otherFills : List Paint) :
    (∀ property, (textRecord style fills).has property = true →
        (textRecord other otherFills).has property = true) ↔
      SwitchesNothingOff style fills other otherFills := by
  simp only [Record.has_iff]
  constructor
  · intro h
    refine ⟨?_, ?_, ?_, ?_, ?_, ?_, ?_⟩
    · intro hbase
      simpa [mem_properties_textRecord] using
        h "line-height" (mem_properties_textRecord.2 (by simp [hbase]))
    · intro hbase
      simpa [mem_properties_textRecord] using
        h "letter-spacing" (mem_properties_textRecord.2 (by simp [hbase]))
    · intro hbase
      simpa [mem_properties_textRecord] using
        h "font-style" (mem_properties_textRecord.2 (by simp [hbase]))
    · intro hbase
      simpa [mem_properties_textRecord] using
        h "text-transform" (mem_properties_textRecord.2 (by simp [hbase]))
    · intro hbase
      simpa [mem_properties_textRecord] using
        h "text-decoration" (mem_properties_textRecord.2 (by simp [hbase]))
    · intro hbase
      simpa [mem_properties_textRecord] using
        h "color" (mem_properties_textRecord.2 (by simp [hbase]))
    · intro hbase
      simpa [mem_properties_textRecord] using
        h "background" (mem_properties_textRecord.2 (by simp [hbase]))
  · intro h property hmem
    rw [mem_properties_textRecord] at hmem ⊢
    exact hmem.imp_right (Or.imp (And.imp_left h.lineHeight)
      (Or.imp (And.imp_left h.letterSpacing) (Or.imp (And.imp_left h.italic)
        (Or.imp (And.imp_left h.case) (Or.imp (And.imp_left h.decoration)
          (Or.imp (And.imp_left h.layered) (And.imp_left h.filled)))))))

/-! ## Runs -/

theorem mem_resolveRuns {layer : Layer} {text : TextBlock} (h : text.hasOverrides = true)
    {run : Run} (hrun : run ∈ text.runs) :
    resolveRun layer text run ∈ resolveRuns layer text := by
  rw [resolveRuns, if_pos h]
  exact List.mem_map_of_mem hrun

/-- A run in an overriding style has what is left of the record of its characters over the base
record. -/
theorem record_of_mem_resolveRuns {layer : Layer} {text : TextBlock} {resolved : ResolvedRun}
    (h : resolved ∈ resolveRuns layer text) (hid : resolved.run.styleId ≠ 0) {own : StyleOverride}
    (hown : text.overrides.get? resolved.run.styleId = some own) :
    resolved.record = (overriddenRecord layer text own).difference (baseRecord layer text) := by
  unfold resolveRuns at h
  split at h
  · obtain ⟨run, _, rfl⟩ := List.mem_map.1 h
    have hrun : (resolveRun layer text run).run = run := by
      unfold resolveRun
      split <;> rfl
    rw [hrun] at hid hown
    have hoverride : overrideOf? text run = some own := by rw [overrideOf?, if_neg hid, hown]
    rw [resolveRun, hoverride]
  · simp at h

/-- A span shows a property as the overriding style has it unless only the base style declares the
property, and so it shows the overriding style as a whole if and only if the override switches
nothing off. -/
theorem shown_override_iff (layer : Layer) (text : TextBlock) (resolved : ResolvedRun)
    (own : StyleOverride) (h : resolved ∈ resolveRuns layer text)
    (hid : resolved.run.styleId ≠ 0)
    (hown : text.overrides.get? resolved.run.styleId = some own) :
    (∀ property, resolved.record.shown (baseRecord layer text) property =
          (overriddenRecord layer text own).get? property ↔
        ((baseRecord layer text).has property = true →
          (overriddenRecord layer text own).has property = true)) ∧
      ((∀ property, resolved.record.shown (baseRecord layer text) property =
          (overriddenRecord layer text own).get? property) ↔
        SwitchesNothingOff text.style layer.fills (text.style.apply own)
          (own.fills.getD layer.fills)) := by
  rw [record_of_mem_resolveRuns h hid hown]
  refine ⟨fun property => Record.shown_difference_iff _ _ property, ?_⟩
  simp only [Record.shown_difference_iff]
  exact has_imp_has_iff text.style layer.fills (text.style.apply own) (own.fills.getD layer.fills)

/-- Words that are made bold and italic show all of their style. -/
theorem shown_override_iff_emphasized :
    let own : StyleOverride :=
      ⟨none, some 700, none, none, none, some true, none, none, none⟩
    let text : TextBlock :=
      ⟨"Hi you", .ofFont "Inter" 400 16, [0, 0, 0, 1, 1, 1], [(1, own)], []⟩
    let layer := Layer.ofKind "a" (.text text)
    ∃ resolved ∈ resolveRuns layer text, resolved.run = ⟨3, "you".toList, 1⟩ ∧
      text.overrides.get? resolved.run.styleId = some own ∧
      ∀ property, resolved.record.shown (baseRecord layer text) property =
        (overriddenRecord layer text own).get? property := by
  intro own text layer
  let run : Run := ⟨3, "you".toList, 1⟩
  have hruns : text.runs = [⟨0, "Hi ".toList, 0⟩, run] := by decide +revert
  have hmem : resolveRun layer text run ∈ resolveRuns layer text :=
    mem_resolveRuns rfl (by rw [hruns]; simp)
  refine ⟨resolveRun layer text run, hmem, rfl, rfl, ?_⟩
  have hnothingOff : SwitchesNothingOff text.style layer.fills (text.style.apply own)
      (own.fills.getD layer.fills) :=
    ⟨fun h => absurd rfl h, id, fun _ => rfl, fun h => absurd rfl h, fun h => absurd rfl h,
      fun h => absurd rfl h, id⟩
  exact (shown_override_iff layer text (resolveRun layer text run) own hmem (by decide) rfl).2.2
    hnothingOff

/-- Words of an italic text whose own style is not italic still show as italic. -/
theorem shown_eq_italic_of_override_upright :
    let own : StyleOverride := ⟨none, none, none, none, none, some false, none, none, none⟩
    let text : TextBlock :=
      ⟨"Hi you", { TextStyle.ofFont "Inter" 400 16 with italic := true }, [0, 0, 0, 1, 1, 1],
        [(1, own)], []⟩
    let layer := Layer.ofKind "a" (.text text)
    ∃ resolved ∈ resolveRuns layer text, resolved.run = ⟨3, "you".toList, 1⟩ ∧
      text.overrides.get? resolved.run.styleId = some own ∧
      resolved.record.shown (baseRecord layer text) "font-style" = some "italic" ∧
      (overriddenRecord layer text own).get? "font-style" = none := by
  intro own text layer
  let run : Run := ⟨3, "you".toList, 1⟩
  have hruns : text.runs = [⟨0, "Hi ".toList, 0⟩, run] := by decide +revert
  have hmem : resolveRun layer text run ∈ resolveRuns layer text :=
    mem_resolveRuns rfl (by rw [hruns]; simp)
  have hfull : (overriddenRecord layer text own).get? "font-style" = none := by
    have hnot : (overriddenRecord layer text own).has "font-style" = false := by
      rw [← Bool.not_eq_true, Record.has_iff, overriddenRecord, mem_properties_textRecord]
      simp [TextStyle.apply, own]
    simpa [Record.has] using hnot
  have hbase : (baseRecord layer text).get? "font-style" = some "italic" := by
    rw [Record.get?_eq_some_iff, baseRecord, declarations_textRecord, font]
    simp [declareIf, text]
  refine ⟨resolveRun layer text run, hmem, rfl, rfl, ?_, hfull⟩
  rw [record_of_mem_resolveRuns hmem (by decide) rfl, Record.shown, Record.get?_difference, hfull,
    hbase]
  rfl

end Style

end SceneMarkup
