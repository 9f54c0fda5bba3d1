/-
  SceneMarkup/Proofs/ReadBack.lean --- the stylesheet of a document, read back from its text.

  WHAT THIS FILE IS FOR.  The names of classes and properties can always be read, and so
  can every value that holds no text of the document.  What is left are the names of fonts
  and the addresses of images (`Layer.fits`): one of them that the quotes around it cannot
  hold is enough for the rules to be lost, and if there is none they are read back.
-/
import SceneMarkup.Proofs.Compile
import SceneMarkup.Proofs.Style.Background
import SceneMarkup.Proofs.StylesheetReader

set_option autoImplicit false

namespace SceneMarkup

open Style (IsName isNameChar isLineBreak fitsQuotes imageReferences)
open Stylesheet (AllClosed)

/-! ## Names of classes -/

theorem isName_label (kind : NodeKind) : IsName kind.label := by
  unfold NodeKind.label
  split <;> decide

/-- A span is named after the text that it is in. -/
theorem Sketch.name_of_mem_requestsIn_ofText {layer : Layer} {characters : String}
    {runs : List ResolvedRun} {q : ClassRequest}
    (h : q ∈ requestsIn (ofText layer characters runs)) : q.name = layer.name ++ " run" := by
  unfold ofText at h
  split at h
  · split at h <;> simp [requestsIn, requests] at h
  · rename_i hnotAll
    clear hnotAll
    induction runs with
    | nil => simp [requestsIn] at h
    | cons run rest ih =>
        rw [List.map_cons, requestsIn, List.mem_append] at h
        rcases h with h | h
        · unfold ofRun at h
          split at h
          · simp [requests] at h
          · simp only [requests, requestsIn, List.append_nil, List.mem_singleton] at h
            rw [h]
        · exact ih h

/-- An element whose name has no words is called what its node is. -/
theorem exists_label_of_mem_requestsOf {styled : Emission.Styled} {q : ClassRequest}
    (h : q ∈ Emission.requestsOf styled) (hnone : Text.kebab q.name.toList = []) :
    ∃ kind : NodeKind, q.fallback = kind.label := by
  rcases List.mem_cons.1 h with rfl | h
  · exact ⟨styled.1.layer.kind, rfl⟩
  · have hname : q.name = styled.1.layer.name ++ " run" := by
      unfold Sketch.ownContent at h
      split at h
      · exact Sketch.name_of_mem_requestsIn_ofText h
      · simp [Sketch.requestsIn] at h
    have hletter : 'r' ∈ q.name.toList := by
      rw [hname, String.toList_append]
      exact List.mem_append_right _ (by decide)
    exact absurd hnone (Text.kebab_ne_nil hletter (by decide))

/-- Whatever a node is called, the names that its elements suggest can stand in a stylesheet. -/
theorem isName_suggest_of_mem_requestsOf {styled : Emission.Styled} {q : ClassRequest}
    (h : q ∈ Emission.requestsOf styled) : IsName (ClassName.suggest q.name q.fallback) := by
  refine ClassName.isName_suggest fun hnone => ?_
  obtain ⟨kind, hkind⟩ := exists_label_of_mem_requestsOf h hnone
  rw [hkind]
  exact isName_label kind

theorem named_classesOf {options : EmitOptions}
    (hstart : ∀ c ∈ options.classStart.toList, isNameChar c = true) (roots : List Node) :
    (Emission.classesOf options (sketchesOf options roots)).Named := by
  refine (Emission.Classes.named_fresh hstart).serve fun q hq => ?_
  rw [sketchesOf, ← Emission.flatMap_requestsOf_kept (suffice_resolve options roots) none 0 0] at hq
  obtain ⟨styled, _, hq⟩ := List.mem_flatMap.1 hq
  exact isName_suggest_of_mem_requestsOf hq

/-! ## Values of a node -/

/-- The styles that some characters of a text have over the base style. -/
def TextBlock.usedOverrides (text : TextBlock) : List StyleOverride :=
  if text.hasOverrides then text.runs.filterMap (Style.overrideOf? text) else []

namespace Layer

/-- The names of the fonts in which a node shows characters. -/
def fontFamilies (layer : Layer) : List String :=
  match layer.kind with
  | .text text => text.style.fontFamily :: text.usedOverrides.filterMap (·.fontFamily)
  | _ => []

/-- The addresses of the images that a node shows. -/
def imageAddresses (layer : Layer) : List String :=
  match layer.kind with
  | .text text =>
      imageReferences layer.fills ++
        text.usedOverrides.flatMap fun own => imageReferences (own.fills.getD [])
  | .placeholder _ => []
  | _ => imageReferences layer.fills

/-- Whether the quotes around them hold all names of fonts and addresses of images of a node. -/
def fits (layer : Layer) : Bool :=
  layer.fontFamilies.all (fun family => family.toList.all (!isLineBreak ·)) &&
    layer.imageAddresses.all (fitsQuotes ·.toList)

end Layer

theorem allClosed_difference_iff {r base : Record} (hbase : AllClosed base.declarations) :
    AllClosed (r.difference base).declarations ↔ AllClosed r.declarations := by
  constructor
  · intro h d hd
    by_cases hsame : d ∈ base.declarations
    · exact hbase d hsame
    · exact h d (Record.mem_difference.2 ⟨hd, hsame⟩)
  · intro h d hd
    exact h d (Record.mem_difference.1 hd).1

/-- The runs of a text are closed if and only if what its overriding styles add is. -/
theorem forall_mem_resolveRuns_iff (layer : Layer) (text : TextBlock) :
    (∀ resolved ∈ Style.resolveRuns layer text, AllClosed resolved.record.declarations) ↔
      ∀ own ∈ text.usedOverrides, AllClosed ((Style.overriddenRecord layer text own).difference
        (Style.baseRecord layer text)).declarations := by
  unfold Style.resolveRuns TextBlock.usedOverrides
  split
  · rw [List.forall_mem_map]
    constructor
    · intro h own hown
      obtain ⟨run, hrun, hoverride⟩ := List.mem_filterMap.1 hown
      have hrecord := h run hrun
      rw [Style.resolveRun, hoverride] at hrecord
      exact hrecord
    · intro h run hrun
      rcases Style.record_resolveRun layer text run with hempty | ⟨own, hown, hrecord⟩
      · rw [hempty]
        intro d hd
        simp [Record.empty] at hd
      · rw [hrecord]
        exact h own (List.mem_filterMap.2 ⟨run, hrun, hown⟩)
  · simp

theorem allClosed_baseRecord_iff (layer : Layer) (text : TextBlock) :
    AllClosed (Style.baseRecord layer text).declarations ↔
      text.style.fontFamily.toList.all (!isLineBreak ·) = true ∧
        ∀ address ∈ imageReferences layer.fills, fitsQuotes address.toList = true :=
  Style.closed_textRecord_iff rfl rfl text.style layer.fills

/-- What the characters of an overriding style declare is closed, next to a base that is, if and
only if the font and the images of the override fit. -/
theorem allClosed_overriddenRecord_iff {layer : Layer} {text : TextBlock}
    (hbase : AllClosed (Style.baseRecord layer text).declarations) (own : StyleOverride) :
    AllClosed (Style.overriddenRecord layer text own).declarations ↔
      (∀ family ∈ own.fontFamily, family.toList.all (!isLineBreak ·) = true) ∧
        ∀ address ∈ imageReferences (own.fills.getD []), fitsQuotes address.toList = true := by
  rw [allClosed_baseRecord_iff] at hbase
  rw [AllClosed, Style.overriddenRecord, Style.closed_textRecord_iff rfl rfl, TextStyle.apply]
  refine and_congr ?_ ?_
  · cases own.fontFamily with
    | none => simpa using hbase.1
    | some family => simp
  · cases own.fills with
    | none => simpa [imageReferences] using hbase.2
    | some fills => rfl

theorem fits_iff_of_text {layer : Layer} {text : TextBlock} (hkind : layer.kind = .text text) :
    layer.fits = true ↔
      (text.style.fontFamily.toList.all (!isLineBreak ·) = true ∧
        ∀ address ∈ imageReferences layer.fills, fitsQuotes address.toList = true) ∧
      ∀ own ∈ text.usedOverrides,
        (∀ family ∈ own.fontFamily, family.toList.all (!isLineBreak ·) = true) ∧
          ∀ address ∈ imageReferences (own.fills.getD []), fitsQuotes address.toList = true := by
  have hfamilies : layer.fontFamilies =
      text.style.fontFamily :: text.usedOverrides.filterMap (·.fontFamily) := by
    rw [Layer.fontFamilies, hkind]
  have haddresses : layer.imageAddresses = imageReferences layer.fills ++
      text.usedOverrides.flatMap fun own => imageReferences (own.fills.getD []) := by
    rw [Layer.imageAddresses, hkind]
  rw [Layer.fits, hfamilies, haddresses, Bool.and_eq_true, List.all_eq_true, List.all_eq_true,
    List.forall_mem_cons, List.forall_mem_append, List.forall_mem_filterMap,
    List.forall_mem_flatMap, forall₂_and]
  exact and_and_and_comm

/-- A text and its spans are closed if and only if the text fits. -/
theorem allClosed_text_iff {layer : Layer} {text : TextBlock} (hkind : layer.kind = .text text) :
    (AllClosed (Style.baseRecord layer text).declarations ∧
      ∀ resolved ∈ Style.resolveRuns layer text, AllClosed resolved.record.declarations) ↔
      layer.fits = true := by
  rw [fits_iff_of_text hkind, ← allClosed_baseRecord_iff, forall_mem_resolveRuns_iff]
  refine and_congr_right fun hbase => forall₂_congr fun own _ => ?_
  rw [allClosed_difference_iff hbase, allClosed_overriddenRecord_iff hbase]

/-- The records of a node are closed if and only if the node fits. -/
theorem allClosed_recordsOf_iff (entry : Entry) :
    (∀ r ∈ recordsOf entry, AllClosed r.declarations) ↔ entry.layer.fits = true := by
  have hruns : (∀ r ∈ ((Style.resolveEntry entry).runs.map (·.record)).filter (!·.isEmpty),
        AllClosed r.declarations) ↔
      ∀ resolved ∈ (Style.resolveEntry entry).runs, AllClosed resolved.record.declarations := by
    constructor
    · intro h resolved hresolved d hd
      refine h resolved.record (List.mem_filter.2 ⟨List.mem_map_of_mem hresolved, ?_⟩) d hd
      simpa [Record.isEmpty] using List.ne_nil_of_mem hd
    · intro h r hr
      obtain ⟨resolved, hresolved, rfl⟩ := List.mem_map.1 (List.mem_filter.1 hr).1
      exact h resolved hresolved
  rw [recordsOf, List.forall_mem_cons, hruns, AllClosed, Style.closed_record_iff rfl rfl,
    Style.resolveEntry]
  cases hkind : entry.layer.kind with
  | text text =>
      rw [← allClosed_text_iff hkind, allClosed_baseRecord_iff]
      simp
  | frame frame => simp [Layer.fits, Layer.fontFamilies, Layer.imageAddresses, hkind]
  | instanceOf componentId frame =>
      simp [Layer.fits, Layer.fontFamilies, Layer.imageAddresses, hkind]
  | shape shape => simp [Layer.fits, Layer.fontFamilies, Layer.imageAddresses, hkind]
  | placeholder typeTag => simp [Layer.fits, Layer.fontFamilies, Layer.imageAddresses, hkind]

/-! ## The stylesheet -/

variable {options : EmitOptions} {roots : List Node}

/-- The rules of a scene hold the declarations of the nodes that become elements, and of their
spans. -/
theorem forall_mem_rules_iff (P : List Declaration → Prop) :
    (∀ rule ∈ (Emission.classesOf options (sketchesOf options roots)).rules,
        P rule.declarations) ↔
      ∀ entry ∈ keptEntries options roots, ∀ r ∈ recordsOf entry, P r.declarations := by
  have hrecords := map_record_requestsIn_sketchesOf options roots
  have hmade := made_classesOf options (sketchesOf options roots)
  constructor
  · intro h entry hentry r hr
    have hmem : r ∈ (Sketch.requestsIn (sketchesOf options roots)).map (·.record) := by
      rw [hrecords]
      exact List.mem_flatMap.2 ⟨entry, hentry, hr⟩
    obtain ⟨q, hq, rfl⟩ := List.mem_map.1 hmem
    obtain ⟨given, _, hrule, _⟩ := rule_of_mem_requests hq
    exact h _ hrule
  · intro h rule hrule
    obtain ⟨r, hr, heq⟩ := hmade.origin_of_rule hrule
    rw [hrecords] at hr
    obtain ⟨entry, hentry, hr⟩ := List.mem_flatMap.1 hr
    rw [heq]
    exact h entry hentry r hr

theorem isName_of_mem_rules {rule : Rule}
    (h : rule ∈ (Emission.classesOf options (sketchesOf options roots)).rules) :
    ∀ d ∈ rule.declarations, IsName d.1 := by
  obtain ⟨r, hr, heq⟩ := (made_classesOf options (sketchesOf options roots)).origin_of_rule h
  obtain ⟨q, hq, rfl⟩ := List.mem_map.1 hr
  rw [heq]
  exact fun d hd => (produced_of_mem_requests hq).1.ordered.isName hd

/-- The values of a scene are closed if and only if all nodes fit that become elements. -/
theorem allClosed_rules_iff :
    (∀ rule ∈ (Emission.classesOf options (sketchesOf options roots)).rules,
        AllClosed rule.declarations) ↔
      ∀ layer ∈ shownIn options.includeHidden roots, layer.fits = true := by
  rw [forall_mem_rules_iff, ← map_layer_keptEntries, List.forall_mem_map]
  exact forall₂_congr fun entry _ => allClosed_recordsOf_iff entry

theorem read_css_outputOf_iff (earlier : Diagnostics) {options : Options}
    (hstart : (options.classStart.getD "").toList.all isNameChar = true)
    (roots : List Node) :
    Stylesheet.read (outputOf earlier options roots).css =
        some (outputOf earlier options roots).stylesheet ↔
      ∀ layer ∈ shownIn options.includeHidden roots, layer.fits = true := by
  have hnames := (@named_classesOf options.emitOptions (List.all_eq_true.1 hstart) roots).isName
  exact (Stylesheet.read_css_iff hnames fun rule hrule => isName_of_mem_rules hrule).trans
    allClosed_rules_iff

/-- The stylesheet of a document is read back from its text, with all rules and declarations in
order, if and only if in the nodes that become elements no name of a font breaks a line, and no
address of an image breaks one or ends in a backslash that takes the quote behind it. -/
theorem read_css_eq_iff_fits (parsed : Except Document.ParseError Document.Parsed)
    (options : Options) (hstart : (options.classStart.getD "").toList.all isNameChar = true)
    (out : Output) (h : compileDocument parsed options = .ok out) :
    ∃ document roots, parsed = .ok document ∧ rootsOf document.tree options = .ok roots ∧
      (Stylesheet.read out.css = some out.stylesheet ↔
        ∀ layer ∈ shownIn options.includeHidden roots, layer.fits = true) := by
  cases parsed with
  | error error => cases h
  | ok document =>
      obtain ⟨roots, hroots, rfl⟩ := exists_roots_of_compileParsed h
      exact ⟨document, roots, rfl, hroots, read_css_outputOf_iff document.diagnostics hstart roots⟩

/-- A font and an image with quotes, braces and semicolons in their names are read back. -/
theorem read_css_eq_of_delimiters :
    let image : Layer :=
      { Layer.ofKind "a" (.shape ⟨.rectangle, .uniform 0⟩) with
        fills := [⟨.image "a\";\x7d .b \x7b" .fill, 1, true⟩] }
    let text : Layer := .ofKind "b" (.text (.ofStyle "Hi" (.ofFont "\\\";\x7d .b \x7b\\" 400 16)))
    let options : Options := { Options.default with classStart := some "page-" }
    ∃ out, compileDocument (.ok ⟨⟨none, [⟨image, []⟩, ⟨text, []⟩]⟩, []⟩) options = .ok out ∧
      Stylesheet.read out.css = some out.stylesheet := by
  intro image text options
  have hcompiles : compileDocument (.ok ⟨⟨none, [⟨image, []⟩, ⟨text, []⟩]⟩, []⟩) options =
      .ok (outputOf [] options [⟨image, []⟩, ⟨text, []⟩]) :=
    compileParsed_eq ⟨none, [⟨image, []⟩, ⟨text, []⟩]⟩ [] options
  have hstart : "page-".toList.all isNameChar = true := by decide
  refine ⟨_, hcompiles, ?_⟩
  obtain ⟨document, roots, hparsed, hroots, hread⟩ :=
    read_css_eq_iff_fits _ options hstart _ hcompiles
  cases hparsed
  obtain rfl : [⟨image, []⟩, ⟨text, []⟩] = roots := Except.ok.inj hroots
  have hshown : shownIn options.includeHidden [⟨image, []⟩, ⟨text, []⟩] = [image, text] := rfl
  rw [hread, hshown, List.forall_mem_cons, List.forall_mem_singleton]
  exact ⟨rfl, rfl⟩

/-- The address of an image that ends in a backslash takes the rest of the stylesheet with it. -/
theorem read_css_ne_of_backslash :
    let image : Layer :=
      { Layer.ofKind "a" (.shape ⟨.rectangle, .uniform 0⟩) with
        fills := [⟨.image "photo\\" .fill, 1, true⟩] }
    ∃ out, compileDocument (.ok ⟨⟨none, [⟨image, []⟩]⟩, []⟩) .default = .ok out ∧
      Stylesheet.read out.css ≠ some out.stylesheet := by
  intro image
  have hcompiles : compileDocument (.ok ⟨⟨none, [⟨image, []⟩]⟩, []⟩) .default =
      .ok (outputOf [] .default [⟨image, []⟩]) :=
    compileParsed_eq ⟨none, [⟨image, []⟩]⟩ [] .default
  refine ⟨_, hcompiles, fun hread => ?_⟩
  have hfits := (@read_css_outputOf_iff [] .default rfl [⟨image, []⟩]).1 hread image
    (List.mem_singleton.2 rfl)
  have hlost : image.fits = false := rfl
  rw [hlost] at hfits
  cases hfits

end SceneMarkup
