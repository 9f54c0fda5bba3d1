/-
  SceneMarkup/Proofs/Document/Layer.lean --- what a layer is once nothing is wrong with it.

  WHAT THIS FILE IS FOR.  A layer is built from the data of a node in three steps: its
  box, what its kind requires, and the rest, which cannot fail.  Without an error there
  is a layer and it is sound (`layer_of_noErrors`); without a box, or a text without its
  characters or its style, there is an error.
-/
import SceneMarkup.Proofs.Document.Remark

set_option autoImplicit false

namespace SceneMarkup

/-! ## Sound layers -/

/-- A text has no more style ids than characters, and its ranges lie within the characters. -/
structure TextBlock.InBounds (text : TextBlock) : Prop where
  characterStyles_le : text.characterStyles.length ≤ text.characters.toList.length
  ranges_le : ∀ range ∈ text.ranges,
    range.start ≤ range.stop ∧ range.stop ≤ text.characters.toList.length

/-- Whether a node is of a type that is not understood. -/
def NodeKind.isPlaceholder : NodeKind → Bool
  | .placeholder _ => true
  | _ => false

/-- A node that is understood has no negative size, and a text is within its bounds. -/
structure Layer.Sound (layer : Layer) : Prop where
  size_nonneg : layer.kind.isPlaceholder = false →
    ¬ layer.bounds.width < 0 ∧ ¬ layer.bounds.height < 0
  text_inBounds : ∀ text, layer.kind = .text text → text.InBounds

namespace Document

open Noted (NoErrors each_bind value_bind value_pure value_some)

variable {id : String} {source : NodeSource}

theorem not_noErrors_fail {α : Type} (message : String) (f : Unit → Noted α) :
    ¬ (fail id message >>= f).NoErrors := by
  intro h
  have herror := (each_bind.1 h).1 (.error id message) List.mem_cons_self
  cases herror

/-! ## Boxes -/

theorem bounds_of_noErrors {box : Option Rect} (h : (bounds id box).NoErrors) :
    ∃ r, (bounds id box).value = some r ∧ ¬ r.width < 0 ∧ ¬ r.height < 0 := by
  unfold bounds at h ⊢
  split at h
  · exact absurd h (not_noErrors_fail _ _)
  · rename_i r
    split at h
    · exact absurd h (not_noErrors_fail _ _)
    · split at h
      · exact absurd h (not_noErrors_fail _ _)
      · rename_i hfinite hsize
        rw [if_neg hfinite, if_neg hsize]
        simp only [Bool.or_eq_true, decide_eq_true_eq, not_or] at hsize
        exact ⟨r, rfl, hsize.1, hsize.2⟩

/-- A node must have a box. -/
theorem not_noErrors_bounds_none : ¬ (bounds id none).NoErrors := by
  intro h
  obtain ⟨r, hr, _⟩ := bounds_of_noErrors h
  cases hr

/-! ## Texts -/

theorem characterStyles_le (length : Nat) (given : List Nat) :
    (characterStyles id length given).value.length ≤ length := by
  unfold characterStyles
  split
  · exact List.length_take_le length given
  · rename_i hlength
    exact Nat.le_of_not_lt hlength

theorem styleRange_value {length : Nat} {range kept : StyleRange}
    (h : (styleRange id length range).value = some kept) :
    kept.start ≤ kept.stop ∧ kept.stop ≤ length := by
  unfold styleRange at h
  split at h
  · cases h
  · rename_i horder
    cases h
    have hle : range.start ≤ range.stop := Nat.le_of_not_lt horder
    show min range.start length ≤ min range.stop length ∧ min range.stop length ≤ length
    omega

theorem ranges_le (length : Nat) (ranges : List StyleRange) :
    ∀ range ∈ (Noted.some (styleRange id length) ranges).value,
      range.start ≤ range.stop ∧ range.stop ≤ length := by
  intro range hrange
  rw [value_some, List.mem_filterMap] at hrange
  obtain ⟨stated, _, hkept⟩ := hrange
  exact styleRange_value hkept

theorem textBase_of_noErrors (h : (textBase id source).NoErrors) :
    (textBase id source).value.isSome = true ∧ source.characters.isSome = true ∧
      source.style.isSome = true := by
  unfold textBase at h ⊢
  split at h
  · exact absurd h (not_noErrors_fail _ _)
  · exact absurd h (not_noErrors_fail _ _)
  · rename_i characters style hcharacters hstyle
    simp only [hcharacters, hstyle, Option.isSome_some, and_self, and_true]
    rw [NoErrors, each_bind] at h
    have hbase := h.1
    rw [value_bind, value_pure, Option.isSome_map]
    unfold baseStyle at hbase ⊢
    split at hbase
    · rfl
    · exact absurd hbase (not_noErrors_fail _ _)

theorem textBlock_inBounds {text : TextBlock} (h : (textBlock id source).value = some text) :
    text.InBounds := by
  rw [textBlock, value_bind] at h
  cases hbase : (textBase id source).value with
  | none =>
      rw [hbase] at h
      cases h
  | some base =>
      rw [hbase] at h
      cases h
      exact ⟨characterStyles_le _ _, ranges_le _ _⟩

theorem textBlock_of_noErrors (h : (textBlock id source).NoErrors) :
    (textBlock id source).value.isSome = true ∧ source.characters.isSome = true ∧
      source.style.isSome = true := by
  rw [textBlock, NoErrors, each_bind] at h
  obtain ⟨hbase, hcharacters, hstyle⟩ := textBase_of_noErrors h.1
  refine ⟨?_, hcharacters, hstyle⟩
  obtain ⟨base, hbase⟩ := Option.isSome_iff_exists.1 hbase
  rw [textBlock, value_bind, hbase]
  rfl

/-! ## Kinds -/

/-- The kinds of the nodes of a class. -/
inductive NodeClass.Makes : NodeClass → NodeKind → Prop
  | frame (frame : Frame) : Makes .frame (.frame frame)
  | instanceOf (componentId : Option String) (frame : Frame) :
      Makes .instanceOf (.instanceOf componentId frame)
  | text (text : TextBlock) : text.InBounds → Makes .text (.text text)
  | shape (shape : Shape) : Makes (.shape shape.kind) (.shape shape)

theorem nodeKind_makes {nodeClass : NodeClass} {kind : NodeKind}
    (h : (nodeKind id source nodeClass).value = some kind) : nodeClass.Makes kind := by
  cases nodeClass with
  | frame => cases h; exact .frame _
  | instanceOf => cases h; exact .instanceOf _ _
  | text =>
      obtain ⟨text, htext, rfl⟩ := Option.map_eq_some_iff.1 h
      exact .text text (textBlock_inBounds htext)
  | shape shape => cases h; exact .shape ⟨shape, _⟩

theorem nodeKind_of_noErrors {nodeClass : NodeClass}
    (h : (nodeKind id source nodeClass).NoErrors) :
    (nodeKind id source nodeClass).value.isSome = true ∧
      (nodeClass = .text → source.characters.isSome = true ∧ source.style.isSome = true) := by
  cases nodeClass with
  | frame => exact ⟨rfl, nofun⟩
  | instanceOf => exact ⟨rfl, nofun⟩
  | text =>
      rw [nodeKind, NoErrors, each_bind] at h
      obtain ⟨htext, hrequired⟩ := textBlock_of_noErrors h.1
      exact ⟨by rw [nodeKind, value_bind, value_pure, Option.isSome_map, htext],
        fun _ => hrequired⟩
  | shape kind => exact ⟨rfl, nofun⟩

/-! ## Layers -/

theorem layer_value {nodeClass : NodeClass} {built : Layer}
    (h : (layer id nodeClass source).value = some built) :
    built.id = id ∧ nodeClass.Makes built.kind ∧
      built.bounds = (bounds id source.bounds).value.getD .zero := by
  rw [layer, value_bind, value_bind] at h
  cases hkind : (nodeKind id source nodeClass).value with
  | none =>
      rw [hkind] at h
      cases h
  | some kind =>
      rw [hkind] at h
      cases h
      exact ⟨rfl, nodeKind_makes hkind, rfl⟩

/-- A node about which nothing is wrong has a layer, its box is there and, for a text, characters
and style. -/
theorem layer_of_noErrors {nodeClass : NodeClass} (h : (layer id nodeClass source).NoErrors) :
    (∃ built, (layer id nodeClass source).value = some built ∧ built.Sound) ∧
      source.bounds.isSome = true ∧
      (nodeClass = .text → source.characters.isSome = true ∧ source.style.isSome = true) := by
  rw [layer, NoErrors, each_bind, each_bind] at h
  obtain ⟨r, hr, hwidth, hheight⟩ := bounds_of_noErrors h.1
  obtain ⟨hkind, hrequired⟩ := nodeKind_of_noErrors h.2.1
  refine ⟨?_, ?_, hrequired⟩
  · obtain ⟨kind, hkind⟩ := Option.isSome_iff_exists.1 hkind
    have hvalue : ∃ built, (layer id nodeClass source).value = some built := by
      rw [layer, value_bind, value_bind, hkind]
      exact ⟨_, rfl⟩
    obtain ⟨built, hbuilt⟩ := hvalue
    obtain ⟨_, hmakes, hbounds⟩ := layer_value hbuilt
    rw [hr, Option.getD_some] at hbounds
    refine ⟨built, hbuilt, fun _ => by rw [hbounds]; exact ⟨hwidth, hheight⟩, ?_⟩
    intro text htext
    rw [htext] at hmakes
    cases hmakes with
    | text _ hinBounds => exact hinBounds
  · rw [Option.isSome_iff_ne_none]
    intro hnone
    rw [hnone] at h
    exact not_noErrors_bounds_none h.1

/-- Whatever the fields are, a placeholder claims too little to be wrong. -/
theorem sound_placeholder (id tag : String) (fields : Json.Fields) :
    (placeholder id tag fields).Sound where
  size_nonneg := nofun
  text_inBounds := by
    intro text hkind
    cases hkind

end Document

end SceneMarkup
