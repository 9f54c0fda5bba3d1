/-
  SceneMarkup/Proofs/Document/Paints.lean --- what becomes of the paints of a node.

  WHAT THIS FILE IS FOR.  A gradient is left out if its positions decrease somewhere as
  the document states them (`isDropped`), with one remark that names the node and the
  place of the paint in its list.  All other paints are kept in order (`Keeps`), and the
  gradients among them are in order, too, once their stops were moved into the unit
  interval.  A node has paints in three kinds of places: fills, strokes and the fills of
  its overriding styles.
-/
import Mathlib.Data.List.Forall2
import SceneMarkup.Proofs.Document.Layer
import SceneMarkup.Proofs.Document.Numeric
import SceneMarkup.Style.Problem

set_option autoImplicit false

namespace SceneMarkup

/-! ## Gradients in order -/

/-- The stops of a gradient lie in the unit interval, in order. -/
structure Gradient.Ordered (gradient : Gradient) : Prop where
  inUnit : ∀ stop ∈ gradient.stops, InUnit stop.position
  pairwise : (gradient.stops.map (·.position)).Pairwise (· ≤ ·)

/-- The gradient that a paint draws, if it draws one. -/
def Paint.gradient? (paint : Paint) : Option Gradient :=
  match paint.ink with
  | .gradient gradient => some gradient
  | _ => none

/-- All lists of paints of a layer: fills, strokes and the fills of overriding styles. -/
def Layer.paintLists (layer : Layer) : List (List Paint) :=
  layer.fills :: layer.strokes ::
    match layer.kind with
    | .text text => text.overrides.filterMap (·.2.fills)
    | _ => []

/-- All gradients of a layer. -/
def Layer.gradients (layer : Layer) : List Gradient :=
  layer.paintLists.flatMap fun paints => paints.filterMap Paint.gradient?

/-- How it is said of a fill and of a stroke that the stops of a gradient are out of order. -/
def disorderWordings : List String :=
  [Style.Problem.message (.gradientFill .unordered),
    Style.Problem.message (.gradientStroke .unordered)]

/-- Whether a warning says that the stops of a gradient are out of order. -/
def Diagnostic.statesDisorder (d : Diagnostic) : Bool :=
  d.severity == .warning && disorderWordings.any fun wording => endsIn wording d.message

namespace Noted

variable {α β : Type}

/-- The remarks on gradients that are out of order. -/
def disorders (n : Noted α) : Diagnostics := n.notes.filter Diagnostic.statesDisorder

theorem disorders_bind (n : Noted α) (f : α → Noted β) :
    (n >>= f).disorders = n.disorders ++ (f n.value).disorders := those_bind n f

@[simp] theorem disorders_pure (a : α) : (pure a : Noted α).disorders = [] := rfl

theorem disorders_eq_nil {n : Noted α} (h : n.Each fun d => d.statesDisorder = false) :
    n.disorders = [] := those_eq_nil h

theorem disorders_some (f : α → Noted (Option β)) (items : List α) :
    (Noted.some f items).disorders = items.flatMap fun a => (f a).disorders := those_some f items

end Noted

/-! ## Tables of styles -/

namespace OverrideTable

theorem get?_cons (m n : ℕ) (own : StyleOverride) (rest : OverrideTable) :
    get? ((m, own) :: rest) n = if m = n then some own else rest.get? n := by
  rw [get?, get?, List.find?_cons]
  by_cases hmn : m = n
  · rw [if_pos hmn, beq_iff_eq.2 hmn]
    rfl
  · rw [if_neg hmn, beq_eq_false_iff_ne.2 hmn]

theorem get?_insert (table : OverrideTable) (m n : ℕ) (own : StyleOverride) :
    (table.insert m own).get? n = if m = n then some own else table.get? n := by
  induction table with
  | nil => exact get?_cons m n own []
  | cons entry rest ih =>
      obtain ⟨k, other⟩ := entry
      rw [insert, get?_cons]
      split
      · rename_i hk
        rw [get?_cons, ← hk]
        split <;> rfl
      · rename_i hk
        rw [get?_cons, ih]
        by_cases hkn : k = n
        · rw [if_pos hkn, if_pos hkn, if_neg fun hmn => hk (hkn.trans hmn.symm)]
        · rw [if_neg hkn, if_neg hkn]

theorem mem_insert {table : OverrideTable} {m : ℕ} {own : StyleOverride} {entry : ℕ × StyleOverride}
    (h : entry ∈ table.insert m own) : entry = (m, own) ∨ entry ∈ table := by
  induction table with
  | nil => exact .inl (List.mem_singleton.1 h)
  | cons first rest ih =>
      rw [insert] at h
      split at h
      · exact (List.mem_cons.1 h).imp_right (List.mem_cons_of_mem first)
      · rcases List.mem_cons.1 h with rfl | h
        · exact .inr List.mem_cons_self
        · exact (ih h).imp_right (List.mem_cons_of_mem first)

end OverrideTable

namespace Document

open Noted (NoErrors each_bind value_bind value_pure value_some)

/-! ## Sources -/

/-- The types of gradients. -/
def gradientTypes : List String :=
  ["GRADIENT_LINEAR", "GRADIENT_RADIAL", "GRADIENT_ANGULAR", "GRADIENT_DIAMOND"]

theorem isSome_gradientKind? (tag : String) :
    (gradientKind? tag).isSome = gradientTypes.contains tag := by
  unfold gradientKind?
  split
  · rfl
  · rfl
  · rfl
  · rfl
  · rename_i hlinear hradial hangular hdiamond
    simp only [gradientTypes, Option.isSome_none, List.contains_eq_mem, List.mem_cons,
      List.not_mem_nil, or_false]
    exact (decide_eq_false (not_or.2
      ⟨hlinear, not_or.2 ⟨hradial, not_or.2 ⟨hangular, hdiamond⟩⟩⟩)).symm

/-- Whether a paint is a gradient whose positions decrease somewhere, as a document states them. -/
def PaintSource.isDropped (source : PaintSource) : Bool :=
  gradientTypes.contains source.type && decreases (source.stops.map (·.position))

theorem PaintSource.isDropped_eq (source : PaintSource) :
    source.isDropped =
      ((gradientKind? source.type).isSome && decreases (source.stops.map (·.position))) := by
  rw [isDropped, isSome_gradientKind?]

/-- What a paint draws that is kept. -/
inductive PaintSource.Inks (source : PaintSource) : Ink → Prop
  | gradient {kind : GradientKind} : gradientKind? source.type = some kind →
      Inks source (.gradient ⟨kind, source.stops.map fun stop =>
        { stop with position := clampUnit stop.position }, source.handles⟩)
  | solid {color : Color} : source.type = "SOLID" → source.color = some color →
      Inks source (.solid color)
  | image {reference : String} : source.type = "IMAGE" → source.imageRef = some reference →
      Inks source (.image reference ((source.scaleMode.bind ScaleMode.ofTag?).getD .fill))
  | unsupported : gradientKind? source.type = none → source.type ≠ "SOLID" →
      source.type ≠ "IMAGE" → Inks source (.unsupported source.type)

/-- A paint is the one that a document states, as far as the document says so. -/
structure PaintSource.Keeps (source : PaintSource) (paint : Paint) : Prop where
  inks : source.Inks paint.ink
  opacity_eq : paint.opacity = source.opacity.getD 1
  visible_eq : paint.visible = source.visible.getD true

/-- Paints are those of a list that are not dropped, in order. -/
def KeepsAll (sources : List PaintSource) (paints : List Paint) : Prop :=
  List.Forall₂ PaintSource.Keeps (sources.filter (!·.isDropped)) paints

/-- The remark on a gradient that is left out: it names the node, the list and the place in it. -/
def disorderNote (id field : String) (index : Nat) : Diagnostic :=
  .warning id (field ++ "[" ++ toString index ++ "]" ++
    ": gradient stops are not in non-decreasing position order, layer skipped")

/-- One remark for each gradient of a list that is left out, by its place in the list. -/
def disorderNotes (id field : String) (sources : List PaintSource) : Diagnostics :=
  (sources.zipIdx.filter (·.1.isDropped)).map fun (_, index) => disorderNote id field index

/-! ## Remarks -/

theorem statesDisorder_disorderNote (id field : String) (index : Nat) :
    (disorderNote id field index).statesDisorder = true := by
  have hending : endsIn (Style.Problem.message (.gradientFill .unordered))
      (": gradient stops are not in non-decreasing position order, layer skipped") = true := by
    decide +kernel
  have hends : endsIn (Style.Problem.message (.gradientFill .unordered))
      (disorderNote id field index).message = true := by
    rw [endsIn_iff] at hending ⊢
    rw [disorderNote, Diagnostic.warning, String.toList_append]
    exact hending.trans (List.suffix_append _ _)
  rw [Diagnostic.statesDisorder, Bool.and_eq_true, List.any_eq_true]
  exact ⟨rfl, _, List.mem_cons_self, hends⟩

/-- How the wordings on stops that are out of order end. A text that does not end like this is
neither of them, and that is faster to see than by comparing it with all of a wording. -/
def disorderEndings : List String := ["order, layer skipped", "order, stroke skipped"]

theorem exists_disorderEnding :
    ∀ wording ∈ disorderWordings, ∃ ending ∈ disorderEndings, endsIn ending wording = true := by
  decide +kernel

theorem statesDisorder_of_message {message : String} (id : String)
    (h : ∀ ending ∈ disorderEndings, endsIn ending message = false) :
    (Diagnostic.warning id message).statesDisorder = false := by
  rw [Diagnostic.statesDisorder, Bool.and_eq_false_iff, List.any_eq_false]
  right
  intro wording hwording hends
  obtain ⟨ending, hending, hwordingEnds⟩ := exists_disorderEnding wording hwording
  have hmessage : endsIn ending message = true :=
    endsIn_iff.2 ((endsIn_iff.1 hwordingEnds).trans (endsIn_iff.1 hends))
  rw [h ending hending] at hmessage
  cases hmessage

theorem statesDisorder_warning {ending : String} (id start : String)
    (h : ∀ other ∈ disorderEndings, endsIn other ending = false ∧ endsIn ending other = false) :
    (Diagnostic.warning id (start ++ ending)).statesDisorder = false :=
  statesDisorder_of_message id fun other hother =>
    endsIn_append_eq_false start (h other hother).1 (h other hother).2

theorem plain_statesDisorder (id : String) : Plain id fun d => d.statesDisorder = false where
  error _ := rfl
  unknown start := statesDisorder_warning id start (by decide +kernel)
  ignored _ := rfl

theorem statesDisorder_missingNote (id : String) (n : Nat) :
    (missingNote id n).statesDisorder = false := statesDisorder_warning id _ (by decide +kernel)

variable {id field : String} {index : Nat} {source : PaintSource}

/-! ## One paint -/

/-- A gradient that is out of order is left out, with one remark. -/
theorem paint_of_isDropped (hnumeric : source.Numeric) (h : source.isDropped = true) :
    paint id field index source = ⟨none, [disorderNote id field index]⟩ := by
  rw [PaintSource.isDropped_eq, Bool.and_eq_true, Option.isSome_iff_exists] at h
  obtain ⟨⟨kind, hkind⟩, hdecreases⟩ := h
  have hordered : nonDecreasing (source.stops.map (·.position)) = false := by
    rw [nonDecreasing_eq_not_decreases, hdecreases, Bool.not_true]
    exact List.forall_mem_map.2 hnumeric
  have hink : ink id field index source = ⟨none, [disorderNote id field index]⟩ := by
    unfold ink
    rw [hkind]
    dsimp only
    rw [gradientInk, if_neg (by rw [hordered]; exact Bool.false_ne_true)]
    rfl
  rw [paint, hink]
  rfl

theorem keyword_value {α : Type} (id field : String) (ofTag? : String → Option α) (default : α)
    (tag : Option String) :
    (keyword id field ofTag? default tag).value = (tag.bind ofTag?).getD default := by
  unfold keyword
  split
  · rfl
  · rename_i tag
    rw [Option.bind_some]
    split
    · rename_i a ha
      rw [ha]
      rfl
    · rename_i ha
      rw [ha]
      rfl

theorem exists_ink_of_noErrors (hnumeric : source.Numeric) (h : source.isDropped = false)
    (hnoErrors : (ink id field index source).NoErrors) :
    ∃ built, (ink id field index source).value = some built ∧ source.Inks built ∧
      (ink id field index source).disorders = [] := by
  unfold ink at hnoErrors ⊢
  split at hnoErrors
  · rename_i kind hkind
    rw [PaintSource.isDropped_eq, hkind, Option.isSome_some, Bool.true_and] at h
    have hordered : nonDecreasing (source.stops.map (·.position)) = true := by
      rw [nonDecreasing_eq_not_decreases (List.forall_mem_map.2 hnumeric), h, Bool.not_false]
    rw [gradientInk, if_pos hordered]
    exact ⟨_, rfl, .gradient hkind, rfl⟩
  · rename_i htype hkind
    split at hnoErrors
    · rename_i color hcolor
      exact ⟨_, rfl, .solid htype hcolor, rfl⟩
    · exact absurd hnoErrors (not_noErrors_fail _ _)
  · rename_i htype hkind
    split at hnoErrors
    · rename_i reference hreference
      refine ⟨_, rfl, ?_, ?_⟩
      · rw [keyword_value]
        exact .image htype hreference
      · rw [Noted.disorders_bind, Noted.disorders_pure, List.append_nil]
        exact Noted.disorders_eq_nil (each_keyword (plain_statesDisorder id) _ _ _ _)
    · exact absurd hnoErrors (not_noErrors_fail _ _)
  · rename_i hkind hsolid himage
    exact ⟨_, rfl, .unsupported hkind hsolid himage, rfl⟩

/-- Any other paint is kept, unless there is something wrong with it. -/
theorem exists_paint_of_noErrors (hnumeric : source.Numeric) (h : source.isDropped = false)
    (hnoErrors : (paint id field index source).NoErrors) :
    ∃ built, (paint id field index source).value = some built ∧ source.Keeps built ∧
      (paint id field index source).disorders = [] := by
  rw [paint, NoErrors, each_bind] at hnoErrors
  obtain ⟨drawn, hdrawn, hinks, hdisorders⟩ := exists_ink_of_noErrors hnumeric h hnoErrors.1
  refine ⟨⟨drawn, source.opacity.getD 1, source.visible.getD true⟩, ?_, ⟨hinks, rfl, rfl⟩, ?_⟩
  · rw [paint, value_bind, hdrawn]
    rfl
  · rw [paint, Noted.disorders_bind, hdrawn, hdisorders]
    rfl

/-- A gradient that is kept is in order, its stops having been moved into the unit interval. -/
theorem PaintSource.Keeps.ordered {built : Paint} (hkeeps : source.Keeps built)
    (hnumeric : source.Numeric) (h : source.isDropped = false) :
    ∀ gradient ∈ built.gradient?, gradient.Ordered := by
  intro gradient hgradient
  rw [Paint.gradient?] at hgradient
  have hinks := hkeeps.inks
  generalize built.ink = drawn at hinks hgradient
  cases hinks with
  | @gradient kind hkind =>
      cases hgradient
      rw [PaintSource.isDropped_eq, hkind, Option.isSome_some, Bool.true_and] at h
      have hnumbers : ∀ x ∈ source.stops.map (·.position), IsNumber x :=
        List.forall_mem_map.2 hnumeric
      have hordered : nonDecreasing (source.stops.map (·.position)) = true := by
        rw [nonDecreasing_eq_not_decreases hnumbers, h, Bool.not_false]
      constructor
      · refine List.forall_mem_map.2 fun stop hstop => ?_
        exact inUnit_clampUnit (hnumeric stop hstop)
      · have hpairwise := pairwise_le_map_clampUnit hnumbers
          (pairwise_le_of_nonDecreasing hnumbers hordered)
        rw [List.map_map] at hpairwise ⊢
        exact hpairwise
  | _ => cases hgradient

/-! ## Lists of paints -/

variable {sources : List PaintSource}

theorem placedPaints_of_noErrors {placed : List (PaintSource × ℕ)}
    (hnumeric : ∀ item ∈ placed, item.1.Numeric)
    (hnoErrors : ∀ item ∈ placed, (paint id field item.2 item.1).NoErrors) :
    KeepsAll (placed.map (·.1))
        (placed.filterMap fun item => (paint id field item.2 item.1).value) ∧
      (placed.flatMap fun item => (paint id field item.2 item.1).disorders) =
        (placed.filter (·.1.isDropped)).map fun item => disorderNote id field item.2 := by
  induction placed with
  | nil => exact ⟨.nil, rfl⟩
  | cons item rest ih =>
      obtain ⟨source, index⟩ := item
      rw [List.forall_mem_cons] at hnumeric hnoErrors
      obtain ⟨hkeeps, hdisorders⟩ := ih hnumeric.2 hnoErrors.2
      rw [KeepsAll] at hkeeps ⊢
      rw [List.flatMap_cons, hdisorders]
      cases hdropped : source.isDropped with
      | true =>
          have hpaint : paint id field index source = ⟨none, [disorderNote id field index]⟩ :=
            paint_of_isDropped hnumeric.1 hdropped
          have hnote : (paint id field index source).disorders = [disorderNote id field index] := by
            rw [hpaint]
            exact List.filter_cons_of_pos (statesDisorder_disorderNote id field index)
          simp only [List.map_cons, List.filter_cons, List.filterMap_cons, hdropped, hnote]
          rw [hpaint]
          exact ⟨hkeeps, rfl⟩
      | false =>
          obtain ⟨built, hbuilt, hkept, hnone⟩ :=
            exists_paint_of_noErrors hnumeric.1 hdropped hnoErrors.1
          dsimp only at hbuilt hnone
          simp only [List.map_cons, List.filter_cons, List.filterMap_cons, hdropped, hbuilt, hnone]
          exact ⟨.cons hkept hkeeps, rfl⟩

/-- The paints of a list that are not dropped are kept in order, and there is one remark for each
that is dropped. -/
theorem paints_of_noErrors (hnumeric : ∀ source ∈ sources, source.Numeric)
    (hnoErrors : (paints id field sources).NoErrors) :
    KeepsAll sources (paints id field sources).value ∧
      (paints id field sources).disorders = disorderNotes id field sources := by
  have hnumeric' : ∀ item ∈ sources.zipIdx, item.1.Numeric := by
    rw [← List.zipIdx_map_fst 0 sources] at hnumeric
    exact List.forall_mem_map.1 hnumeric
  obtain ⟨hkeeps, hdisorders⟩ := placedPaints_of_noErrors hnumeric' (Noted.each_some.1 hnoErrors)
  rw [List.zipIdx_map_fst] at hkeeps
  rw [paints, Noted.someIndexed, value_some, Noted.disorders_some]
  exact ⟨hkeeps, hdisorders⟩

theorem KeepsAll.ordered {built : List Paint} (hkeeps : KeepsAll sources built)
    (hnumeric : ∀ source ∈ sources, source.Numeric) :
    ∀ gradient ∈ built.filterMap Paint.gradient?, gradient.Ordered := by
  have hkept : ∀ source ∈ sources.filter (!·.isDropped),
      source.Numeric ∧ source.isDropped = false := by
    intro source hsource
    rw [List.mem_filter, Bool.not_eq_true'] at hsource
    exact ⟨hnumeric source hsource.1, hsource.2⟩
  rw [KeepsAll] at hkeeps
  generalize sources.filter (!·.isDropped) = kept at hkeeps hkept
  induction hkeeps with
  | nil => exact List.forall_mem_nil _
  | @cons source paint kept paints hfirst _ ih =>
      rw [List.forall_mem_cons] at hkept
      have hrest := ih hkept.2
      rw [List.filterMap_cons]
      split
      · exact hrest
      · rename_i gradient hgradient
        refine List.forall_mem_cons.2 ⟨?_, hrest⟩
        exact hfirst.ordered hkept.1.1 hkept.1.2 gradient hgradient

/-! ## Overriding styles -/

section Styles

variable {style : StyleSource}

theorem optionalFills_of_noErrors {fills : Option (List PaintSource)}
    (hnumeric : ∀ sources ∈ fills, ∀ source ∈ sources, source.Numeric)
    (hnoErrors : (optionalFills id fills).NoErrors) :
    Option.Rel KeepsAll fills (optionalFills id fills).value ∧
      (optionalFills id fills).disorders =
        (fills.map (disorderNotes id "styleOverrideTable.fills")).getD [] := by
  cases fills with
  | none => exact ⟨.none, rfl⟩
  | some sources =>
      rw [optionalFills, NoErrors, each_bind] at hnoErrors
      obtain ⟨hkeeps, hdisorders⟩ := paints_of_noErrors (hnumeric sources rfl) hnoErrors.1
      refine ⟨.some hkeeps, ?_⟩
      rw [optionalFills, Noted.disorders_bind, hdisorders]
      exact List.append_nil _

theorem styleOverride_of_noErrors (hnumeric : style.Numeric)
    (hnoErrors : (styleOverride id style).NoErrors) :
    Option.Rel KeepsAll style.fills (styleOverride id style).value.fills ∧
      (styleOverride id style).disorders =
        (style.fills.map (disorderNotes id "styleOverrideTable.fills")).getD [] := by
  have hplain := plain_statesDisorder id
  simp only [styleOverride, NoErrors, each_bind] at hnoErrors
  obtain ⟨hkeeps, hdisorders⟩ := optionalFills_of_noErrors hnumeric hnoErrors.2.2.2.1
  refine ⟨hkeeps, ?_⟩
  simp only [styleOverride, Noted.disorders_bind, Noted.disorders_pure, List.append_nil,
    Noted.disorders_eq_nil (each_optionalKeyword hplain _ _ _ _),
    Noted.disorders_eq_nil (each_lineHeight hplain _), List.nil_append]
  exact hdisorders

/-- The last of some overriding styles whose key stands for an id. -/
def lastStyle? (n : ℕ) (overrides : List (String × StyleSource)) : Option StyleSource :=
  ((overrides.filter fun entry => styleId? entry.1 == some n).getLast?).map (·.2)

theorem lastStyle?_cons (n : ℕ) (key : String) (style : StyleSource)
    (rest : List (String × StyleSource)) :
    lastStyle? n ((key, style) :: rest) =
      (lastStyle? n rest).or (if styleId? key = some n then some style else none) := by
  unfold lastStyle?
  by_cases hkey : styleId? key = some n
  · rw [List.filter_cons_of_pos (by simpa using hkey), if_pos hkey, List.getLast?_cons]
    cases (rest.filter fun entry => styleId? entry.1 == some n).getLast? <;> rfl
  · rw [List.filter_cons_of_neg (by simpa using hkey), if_neg hkey, Option.or_none]

theorem mem_of_lastStyle? {n : ℕ} {overrides : List (String × StyleSource)}
    (h : lastStyle? n overrides = some style) : ∃ entry ∈ overrides, entry.2 = style := by
  obtain ⟨entry, hentry, rfl⟩ := Option.map_eq_some_iff.1 h
  exact ⟨entry, (List.mem_filter.1 (List.mem_of_getLast? hentry)).1, rfl⟩

/-- The style with an id is the last that was stated for it. -/
theorem get?_overrideTable (n : ℕ) (table : OverrideTable)
    (overrides : List (String × StyleSource)) :
    (overrideTable id table overrides).value.get? n =
      ((lastStyle? n overrides).map fun style => (styleOverride id style).value).or
        (table.get? n) := by
  induction overrides generalizing table with
  | nil => rfl
  | cons entry rest ih =>
      obtain ⟨key, style⟩ := entry
      rw [lastStyle?_cons, overrideTable]
      split
      · rename_i m hm
        rw [value_bind, ih, OverrideTable.get?_insert, hm]
        cases lastStyle? n rest with
        | none => by_cases hmn : m = n <;> simp [hmn]
        | some last => rfl
      · rename_i hm
        rw [value_bind, ih, hm, if_neg (Option.some_ne_none n).symm, Option.or_none]

/-- Every style of a table was there before or is one that was stated. -/
theorem mem_overrideTable {table : OverrideTable} {overrides : List (String × StyleSource)}
    {entry : ℕ × StyleOverride} (h : entry ∈ (overrideTable id table overrides).value) :
    entry ∈ table ∨ ∃ stated ∈ overrides, entry.2 = (styleOverride id stated.2).value := by
  induction overrides generalizing table with
  | nil => exact .inl h
  | cons first rest ih =>
      obtain ⟨key, style⟩ := first
      rw [overrideTable] at h
      split at h
      · rcases ih h with h | ⟨stated, hstated, heq⟩
        · rcases OverrideTable.mem_insert h with rfl | h
          · exact .inr ⟨(key, style), List.mem_cons_self, rfl⟩
          · exact .inl h
        · exact .inr ⟨stated, List.mem_cons_of_mem _ hstated, heq⟩
      · rcases ih h with h | ⟨stated, hstated, heq⟩
        · exact .inl h
        · exact .inr ⟨stated, List.mem_cons_of_mem _ hstated, heq⟩

/-- A style of a table has the fills that were stated last for its id, apart from those that are
dropped. -/
theorem overrideTable_keeps {overrides : List (String × StyleSource)}
    (hnumeric : ∀ stated ∈ overrides, stated.2.Numeric)
    (hnoErrors : ∀ stated ∈ overrides, (styleOverride id stated.2).NoErrors) (n : ℕ) :
    Option.Rel (fun style own => Option.Rel KeepsAll style.fills own.fills)
      (lastStyle? n overrides) ((overrideTable id [] overrides).value.get? n) := by
  rw [get?_overrideTable, OverrideTable.get?, List.find?_nil, Option.map_none, Option.or_none]
  cases hlast : lastStyle? n overrides with
  | none => exact .none
  | some style =>
      obtain ⟨stated, hstated, rfl⟩ := mem_of_lastStyle? hlast
      exact .some (styleOverride_of_noErrors (hnumeric stated hstated) (hnoErrors stated hstated)).1

/-- The gradients of the fills that a style of a table has of its own are in order. -/
theorem overrideTable_ordered {overrides : List (String × StyleSource)} {entry : ℕ × StyleOverride}
    {paints : List Paint} (hnumeric : ∀ stated ∈ overrides, stated.2.Numeric)
    (hnoErrors : ∀ stated ∈ overrides, (styleOverride id stated.2).NoErrors)
    (hentry : entry ∈ (overrideTable id [] overrides).value)
    (hfills : entry.2.fills = some paints) :
    ∀ gradient ∈ paints.filterMap Paint.gradient?, gradient.Ordered := by
  rcases mem_overrideTable hentry with hnone | ⟨stated, hstated, heq⟩
  · cases hnone
  · have hkeeps := (styleOverride_of_noErrors (hnumeric stated hstated)
      (hnoErrors stated hstated)).1
    rw [← heq, hfills] at hkeeps
    generalize hsources : stated.2.fills = sources at hkeeps
    cases hkeeps with
    | some hkeeps => exact hkeeps.ordered (hnumeric stated hstated _ hsources)

theorem overrideTable_of_noErrors {overrides : List (String × StyleSource)}
    (hnumeric : ∀ entry ∈ overrides, entry.2.Numeric) (table : OverrideTable)
    (hnoErrors : (overrideTable id table overrides).NoErrors) :
    (∀ entry ∈ overrides, (styleOverride id entry.2).NoErrors) ∧
      (overrideTable id table overrides).disorders = overrides.flatMap fun entry =>
        (entry.2.fills.map (disorderNotes id "styleOverrideTable.fills")).getD [] := by
  induction overrides generalizing table with
  | nil => exact ⟨List.forall_mem_nil _, rfl⟩
  | cons entry rest ih =>
      obtain ⟨key, style⟩ := entry
      rw [List.forall_mem_cons] at hnumeric
      rw [overrideTable] at hnoErrors ⊢
      split at hnoErrors
      · rename_i m hm
        rw [NoErrors, each_bind] at hnoErrors
        obtain ⟨hstyles, hdisorders⟩ := ih hnumeric.2 _ hnoErrors.2
        refine ⟨List.forall_mem_cons.2 ⟨hnoErrors.1, hstyles⟩, ?_⟩
        rw [Noted.disorders_bind, hdisorders,
          (styleOverride_of_noErrors hnumeric.1 hnoErrors.1).2, List.flatMap_cons]
      · exact absurd hnoErrors (not_noErrors_fail _ _)

end Styles

/-! ## Layers -/

/-- The lists of paints that are read for a node of a class, by the names that remarks give them, in
the order in which they are read. -/
def NodeSource.paintLists (nodeClass : NodeClass) (source : NodeSource) :
    List (String × List PaintSource) :=
  (if nodeClass = .text then source.overrides.filterMap fun entry =>
      entry.2.fills.map fun fills => ("styleOverrideTable.fills", fills)
    else []) ++ [("fills", source.fills), ("strokes", source.strokes)]

/-- A layer has the paints that a document states for it, apart from those that are dropped. This
holds of every list that is read; of several styles for one id it is the last that is kept. -/
structure NodeSource.KeepsPaints (nodeClass : NodeClass) (source : NodeSource) (layer : Layer) :
    Prop where
  lists : ∀ field sources, (field, sources) ∈ source.paintLists nodeClass →
    KeepsAll sources (paints layer.id field sources).value
  fills : KeepsAll source.fills layer.fills
  strokes : KeepsAll source.strokes layer.strokes
  overrides : ∀ text, layer.kind = .text text → ∀ n,
    Option.Rel (fun style own => Option.Rel KeepsAll style.fills own.fills)
      (lastStyle? n source.overrides) (text.overrides.get? n)

section Layers

variable {source : NodeSource} {nodeClass : NodeClass} {built : Layer}

theorem overrides_of_textBlock {text : TextBlock} (hnoErrors : (textBlock id source).NoErrors)
    (h : (textBlock id source).value = some text) :
    text.overrides = (overrideTable id [] source.overrides).value ∧
      (overrideTable id [] source.overrides).NoErrors ∧
      (textBlock id source).disorders = (overrideTable id [] source.overrides).disorders := by
  have hplain := plain_statesDisorder id
  rw [textBlock, NoErrors, each_bind] at hnoErrors
  rw [textBlock, value_bind] at h
  rw [textBlock, Noted.disorders_bind, Noted.disorders_eq_nil (each_textBase hplain source),
    List.nil_append]
  generalize (textBase id source).value = base at hnoErrors h ⊢
  cases base with
  | none => cases h
  | some base =>
      obtain ⟨characters, style⟩ := base
      cases h
      simp only [each_bind] at hnoErrors
      refine ⟨rfl, hnoErrors.2.1, ?_⟩
      simp only [Noted.disorders_bind, Noted.disorders_pure, List.append_nil,
        Noted.disorders_eq_nil (each_characterStyles hplain _ _),
        Noted.disorders_eq_nil (Noted.each_some.2 fun range _ => each_styleRange hplain _ range),
        Noted.disorders_eq_nil (each_remarkMissing (statesDisorder_missingNote id) _)]

/-- The paints of a kind of node: only a text has overriding styles. -/
theorem nodeKind_paints {kind : NodeKind} (hnumeric : source.Numeric)
    (hnoErrors : (nodeKind id source nodeClass).NoErrors)
    (h : (nodeKind id source nodeClass).value = some kind) :
    (∀ text, kind = .text text → nodeClass = .text ∧
      text.overrides = (overrideTable id [] source.overrides).value) ∧
    (nodeClass = .text → ∀ entry ∈ source.overrides, (styleOverride id entry.2).NoErrors) ∧
    (nodeKind id source nodeClass).disorders =
      if nodeClass = .text then source.overrides.flatMap fun entry =>
        (entry.2.fills.map (disorderNotes id "styleOverrideTable.fills")).getD []
      else [] := by
  have hmakes := nodeKind_makes h
  have htexts : ∀ text, kind = .text text → nodeClass = .text := by
    rintro text rfl
    cases hmakes
    rfl
  by_cases hclass : nodeClass = .text
  · subst hclass
    rw [nodeKind, NoErrors, each_bind] at hnoErrors
    rw [nodeKind, value_bind] at h
    obtain ⟨text, htext, rfl⟩ := Option.map_eq_some_iff.1 h
    obtain ⟨hoverrides, htable, hdisorders⟩ := overrides_of_textBlock hnoErrors.1 htext
    obtain ⟨hstyles, hnotes⟩ := overrideTable_of_noErrors hnumeric.overrides [] htable
    refine ⟨fun other heq => ?_, fun _ => hstyles, ?_⟩
    · cases heq
      exact ⟨rfl, hoverrides⟩
    · rw [nodeKind, Noted.disorders_bind, hdisorders, hnotes, if_pos rfl]
      exact List.append_nil _
  · have hplain := plain_statesDisorder id
    refine ⟨fun text heq => absurd (htexts text heq) hclass, fun heq => absurd heq hclass, ?_⟩
    rw [if_neg hclass]
    refine Noted.disorders_eq_nil ?_
    cases nodeClass with
    | text => exact absurd rfl hclass
    | frame => exact each_bind.2 ⟨each_frame hplain source, Noted.each_pure _⟩
    | instanceOf => exact each_bind.2 ⟨each_frame hplain source, Noted.each_pure _⟩
    | shape shape => exact each_bind.2 ⟨each_cornerRadius hplain source, Noted.each_pure _⟩

theorem flatMap_paintLists (id : String) (nodeClass : NodeClass) (source : NodeSource) :
    ((source.paintLists nodeClass).flatMap fun (field, sources) =>
      disorderNotes id field sources) =
      (if nodeClass = .text then source.overrides.flatMap fun entry =>
        (entry.2.fills.map (disorderNotes id "styleOverrideTable.fills")).getD []
      else []) ++ disorderNotes id "fills" source.fills ++
        disorderNotes id "strokes" source.strokes := by
  have hoverrides : ∀ overrides : List (String × StyleSource),
      ((overrides.filterMap fun entry =>
        entry.2.fills.map fun fills => ("styleOverrideTable.fills", fills)).flatMap
          fun (field, sources) => disorderNotes id field sources) =
      overrides.flatMap fun entry =>
        (entry.2.fills.map (disorderNotes id "styleOverrideTable.fills")).getD [] := by
    intro overrides
    induction overrides with
    | nil => rfl
    | cons entry rest ih =>
        rw [List.filterMap_cons, List.flatMap_cons, ← ih]
        cases entry.2.fills <;> rfl
  rw [NodeSource.paintLists, List.flatMap_append, List.append_assoc]
  refine congr (congrArg _ ?_) ?_
  · split
    · exact hoverrides source.overrides
    · rfl
  · rw [List.flatMap_cons, List.flatMap_singleton]

/-- Every list of paints that is read for a node without errors is kept. -/
theorem paintLists_keep (hnumeric : source.Numeric)
    (hstyles : nodeClass = .text → ∀ entry ∈ source.overrides, (styleOverride id entry.2).NoErrors)
    (hfills : KeepsAll source.fills (paints id "fills" source.fills).value)
    (hstrokes : KeepsAll source.strokes (paints id "strokes" source.strokes).value)
    {sources : List PaintSource} (h : (field, sources) ∈ source.paintLists nodeClass) :
    KeepsAll sources (paints id field sources).value := by
  rw [NodeSource.paintLists, List.mem_append] at h
  rcases h with h | h
  · split at h
    · rename_i hclass
      obtain ⟨entry, hentry, hlist⟩ := List.mem_filterMap.1 h
      obtain ⟨fills, hown, heq⟩ := Option.map_eq_some_iff.1 hlist
      cases heq
      have hnoErrors := hstyles hclass entry hentry
      simp only [styleOverride, NoErrors, each_bind] at hnoErrors
      have hoptional := hnoErrors.2.2.2.1
      rw [hown, optionalFills, each_bind] at hoptional
      exact (paints_of_noErrors (hnumeric.overrides entry hentry _ hown) hoptional.1).1
    · cases h
  · rcases List.mem_cons.1 h with heq | h
    · cases heq
      exact hfills
    · cases List.mem_singleton.1 h
      exact hstrokes

theorem layer_paints (hnumeric : source.Numeric) (hnoErrors : (layer id nodeClass source).NoErrors)
    (h : (layer id nodeClass source).value = some built) :
    source.KeepsPaints nodeClass built ∧ (∀ gradient ∈ built.gradients, gradient.Ordered) ∧
      (layer id nodeClass source).disorders = (source.paintLists nodeClass).flatMap
        fun (field, sources) => disorderNotes id field sources := by
  have hplain := plain_statesDisorder id
  rw [layer, NoErrors, each_bind, each_bind] at hnoErrors
  rw [layer, value_bind, value_bind] at h
  cases hkind : (nodeKind id source nodeClass).value with
  | none =>
      rw [hkind] at h
      cases h
  | some kind =>
      rw [hkind] at hnoErrors h
      cases h
      simp only [each_bind] at hnoErrors
      obtain ⟨-, hno, -, hfillErrors, hstrokeErrors, -⟩ := hnoErrors
      obtain ⟨htexts, hstyles, hkindNotes⟩ := nodeKind_paints hnumeric hno hkind
      obtain ⟨hfills, hfillNotes⟩ := paints_of_noErrors hnumeric.fills hfillErrors
      obtain ⟨hstrokes, hstrokeNotes⟩ := paints_of_noErrors hnumeric.strokes hstrokeErrors
      refine ⟨⟨?_, hfills, hstrokes, ?_⟩, ?_, ?_⟩
      · intro field sources hlist
        exact paintLists_keep hnumeric hstyles hfills hstrokes hlist
      · intro text htext n
        obtain ⟨hclass, hoverrides⟩ := htexts text htext
        rw [hoverrides]
        exact overrideTable_keeps hnumeric.overrides (hstyles hclass) n
      · intro gradient hmem
        obtain ⟨paints, hpaints, hgradient⟩ := List.mem_flatMap.1 hmem
        rcases List.mem_cons.1 hpaints with rfl | hpaints
        · exact hfills.ordered hnumeric.fills gradient hgradient
        · rcases List.mem_cons.1 hpaints with rfl | hpaints
          · exact hstrokes.ordered hnumeric.strokes gradient hgradient
          · cases kind with
            | text text =>
                obtain ⟨hclass, hoverrides⟩ := htexts text rfl
                obtain ⟨entry, hentry, hown⟩ := List.mem_filterMap.1 hpaints
                rw [hoverrides] at hentry
                exact overrideTable_ordered hnumeric.overrides (hstyles hclass) hentry hown gradient
                  hgradient
            | _ => cases hpaints
      · rw [flatMap_paintLists, layer, Noted.disorders_bind, Noted.disorders_bind, hkind,
          hkindNotes, Noted.disorders_eq_nil (each_bounds hplain _), List.nil_append]
        simp only [Noted.disorders_bind, Noted.disorders_pure, List.append_nil, hfillNotes,
          hstrokeNotes, Noted.disorders_eq_nil (each_keyword hplain _ _ _ _), List.nil_append,
          List.append_assoc]

end Layers

end Document

end SceneMarkup
