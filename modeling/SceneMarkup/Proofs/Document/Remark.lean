/-
  SceneMarkup/Proofs/Document/Remark.lean --- what the remarks on a layer are about.

  WHAT THIS FILE IS FOR.  A layer is built from many parts, each of which may be
  remarked on.  Every remark names the node that is built, and its wording tells it
  from the remarks on children that are cut off (`Remark`).  The parts are gone through
  once, for any property that remarks have by their wording: most parts can give rise to
  four wordings only (`Plain`), lists of paints to one more, and a text to another one.
-/
import SceneMarkup.Document.Layer

set_option autoImplicit false

namespace SceneMarkup

/-! ## Endings -/

/-- Whether a text ends in another one. -/
def endsIn (ending text : String) : Bool := ending.toList.isSuffixOf text.toList

theorem endsIn_iff {ending text : String} :
    endsIn ending text = true ↔ ending.toList <:+ text.toList :=
  List.isSuffixOf_iff_suffix

theorem endsIn_append_self (start ending : String) : endsIn ending (start ++ ending) = true := by
  rw [endsIn_iff, String.toList_append]
  exact List.suffix_append _ _

/-- Of two endings of a text one ends in the other. -/
theorem endsIn_append_eq_false {ending other : String} (start : String)
    (h : endsIn ending other = false) (h' : endsIn other ending = false) :
    endsIn ending (start ++ other) = false := by
  rw [← Bool.not_eq_true, endsIn_iff] at h h' ⊢
  rw [String.toList_append]
  intro hends
  rcases List.suffix_or_suffix_of_suffix hends (List.suffix_append _ _) with hfirst | hother
  · exact h hfirst
  · exact h' hother

/-- Whether a remark says that children were cut off: a warning about a node of an unknown type,
or an information about another node that can have no children. -/
def Diagnostic.statesCut (d : Diagnostic) : Bool :=
  match d.severity with
  | .warning => endsIn " child node(s) dropped)" d.message
  | .info => endsIn " node are not emitted" d.message
  | .error => false

/-! ## Values with remarks -/

namespace Noted

variable {α β : Type} {P : Diagnostic → Prop}

/-- All remarks have a property. -/
def Each (P : Diagnostic → Prop) (n : Noted α) : Prop := ∀ d ∈ n.notes, P d

/-- No remark is an error. -/
def NoErrors (n : Noted α) : Prop := n.Each fun d => d.isError = false

@[simp] theorem each_clean (a : α) : (clean a).Each P := by
  intro d hd
  cases hd

@[simp] theorem each_pure (a : α) : (pure a : Noted α).Each P := each_clean a

theorem each_andThen {n : Noted α} {f : α → Noted β} :
    (n.andThen f).Each P ↔ n.Each P ∧ (f n.value).Each P := List.forall_mem_append

@[simp] theorem each_bind {n : Noted α} {f : α → Noted β} :
    (n >>= f).Each P ↔ n.Each P ∧ (f n.value).Each P := each_andThen

@[simp] theorem each_note {d : Diagnostic} : (note d).Each P ↔ P d := List.forall_mem_singleton

theorem each_all {f : α → Noted β} {items : List α} :
    (all f items).Each P ↔ ∀ a ∈ items, (f a).Each P := by
  induction items with
  | nil => simp [all]
  | cons a rest ih =>
      rw [all, each_andThen, each_andThen, ih, List.forall_mem_cons]
      simp

theorem each_some {f : α → Noted (Option β)} {items : List α} :
    (some f items).Each P ↔ ∀ a ∈ items, (f a).Each P := by
  rw [some, each_andThen, each_all]
  simp

theorem each_someIndexed {f : Nat → α → Noted (Option β)} {items : List α}
    (h : ∀ i a, (f i a).Each P) : (someIndexed f items).Each P :=
  each_some.2 fun pair _ => h pair.2 pair.1

@[simp] theorem value_bind (n : Noted α) (f : α → Noted β) :
    (n >>= f).value = (f n.value).value := rfl

theorem bind_eq (n : Noted α) (f : α → Noted β) :
    n >>= f = ⟨(f n.value).value, n.notes ++ (f n.value).notes⟩ := rfl

@[simp] theorem value_pure (a : α) : (pure a : Noted α).value = a := rfl

theorem value_all (f : α → Noted β) (items : List α) :
    (all f items).value = items.map fun a => (f a).value := by
  induction items with
  | nil => rfl
  | cons a rest ih => rw [List.map_cons, ← ih]; rfl

theorem value_some (f : α → Noted (Option β)) (items : List α) :
    (some f items).value = items.filterMap fun a => (f a).value := by
  show (all f items).value.filterMap id = _
  rw [value_all, List.filterMap_map, Function.id_comp]

theorem notes_all (f : α → Noted β) (items : List α) :
    (all f items).notes = items.flatMap fun a => (f a).notes := by
  induction items with
  | nil => rfl
  | cons a rest ih =>
      rw [List.flatMap_cons, ← ih, all]
      simp only [andThen, clean, List.append_nil]

theorem notes_some (f : α → Noted (Option β)) (items : List α) :
    (some f items).notes = items.flatMap fun a => (f a).notes := by
  show (all f items).notes ++ [] = _
  rw [List.append_nil, notes_all]

/-! ### Remarks of one sort -/

/-- The remarks that meet a condition. -/
def those (p : Diagnostic → Bool) (n : Noted α) : Diagnostics := n.notes.filter p

variable {p : Diagnostic → Bool}

theorem those_bind (n : Noted α) (f : α → Noted β) :
    (n >>= f).those p = n.those p ++ (f n.value).those p :=
  List.filter_append _ _

@[simp] theorem those_pure (a : α) : (pure a : Noted α).those p = [] := rfl

theorem those_eq_nil {n : Noted α} (h : n.Each fun d => p d = false) : n.those p = [] :=
  List.filter_eq_nil_iff.2 fun d hd => by rw [h d hd]; exact Bool.false_ne_true

theorem those_some (f : α → Noted (Option β)) (items : List α) :
    (some f items).those p = items.flatMap fun a => (f a).those p := by
  rw [those, notes_some, List.filter_flatMap]
  rfl

end Noted

/-! ## Remarks on a layer -/

namespace Document

open Noted

/-- A remark that names the node with an id, and does not say that children were cut off. -/
structure Remark (id : String) (d : Diagnostic) : Prop where
  nodeId_eq : d.nodeId = some id
  statesCut_eq : d.statesCut = false

/-- A property that the remarks on a node have by how their wording ends, apart from those on
gradients that are left out and on ids without a style. -/
structure Plain (id : String) (P : Diagnostic → Prop) : Prop where
  error : ∀ message, P (.error (some id) message)
  unknown : ∀ start, P (.warning id (start ++ "`, using default"))
  ignored : ∀ start, P (.info id (start ++ " characters; extra entries ignored"))

/-- A property that the remarks on a node have by how their wording ends, apart from those on ids
without a style. -/
structure Worded (id : String) (P : Diagnostic → Prop) : Prop extends Plain id P where
  disorder : ∀ start, P (.warning id (start ++
    ": gradient stops are not in non-decreasing position order, layer skipped"))

/-- The remark on an id without a style. -/
def missingNote (id : String) (n : Nat) : Diagnostic :=
  .warning id ("style override id " ++ toString n ++ " not found in table, base style used")

variable {α : Type} {id : String} {P : Diagnostic → Prop}

theorem plain_remark : Plain id (Remark id) where
  error _ := ⟨rfl, rfl⟩
  unknown start := ⟨rfl, endsIn_append_eq_false start (by decide) (by decide)⟩
  ignored start := ⟨rfl, endsIn_append_eq_false start (by decide) (by decide)⟩

theorem worded_remark : Worded id (Remark id) where
  toPlain := plain_remark
  disorder start := ⟨rfl, endsIn_append_eq_false start (by decide) (by decide)⟩

theorem remark_missingNote (n : Nat) : Remark id (missingNote id n) :=
  ⟨rfl, endsIn_append_eq_false _ (by decide) (by decide)⟩

theorem each_remarkMissing (h : ∀ n, P (missingNote id n)) (ids : List Nat) :
    (remarkMissing id ids).Each P := by
  intro d hd
  obtain ⟨n, _, rfl⟩ := List.mem_map.1 hd
  exact h n

/-! ### Parts without paints -/

section PlainRemarks

variable (h : Plain id P)

include h

theorem each_fail (message : String) : (fail id message).Each P :=
  each_note.2 (h.error message)

theorem each_keyword (field : String) (ofTag? : String → Option α) (default : α)
    (tag : Option String) : (keyword id field ofTag? default tag).Each P := by
  unfold keyword
  split
  · exact each_clean _
  · split
    · exact each_clean _
    · rw [each_bind]
      exact ⟨each_note.2 (h.unknown _), each_pure _⟩

theorem each_bounds (source : Option Rect) : (bounds id source).Each P := by
  unfold bounds
  split
  · rw [each_bind]
    exact ⟨each_fail h _, each_pure _⟩
  · split
    · rw [each_bind]
      exact ⟨each_fail h _, each_pure _⟩
    · split
      · rw [each_bind]
        exact ⟨each_fail h _, each_pure _⟩
      · exact each_clean _

theorem each_cornerRadius (source : NodeSource) : (cornerRadius id source).Each P := by
  have hlist : ∀ radii, (cornerRadius.ofList id radii).Each P := by
    intro radii
    unfold cornerRadius.ofList
    split
    · exact each_clean _
    · rw [each_bind]
      exact ⟨each_fail h _, each_pure _⟩
  unfold cornerRadius
  split
  · exact hlist _
  · exact hlist _
  · exact each_clean _
  · exact each_clean _

theorem each_frame (source : NodeSource) : (frame id source).Each P := by
  unfold frame
  simp only [each_bind]
  exact ⟨each_keyword h _ _ _ _, each_keyword h _ _ _ _, each_keyword h _ _ _ _,
    each_keyword h _ _ _ _, each_keyword h _ _ _ _, each_cornerRadius h source, each_pure _⟩

theorem each_lineHeight (source : StyleSource) : (lineHeight id source).Each P := by
  unfold lineHeight
  split
  · exact each_clean _
  · exact each_clean _
  · exact each_clean _
  · exact each_clean _
  · rw [each_bind]
    exact ⟨each_note.2 (h.unknown _), each_pure _⟩

theorem each_baseStyle (source : StyleSource) : (baseStyle id source).Each P := by
  unfold baseStyle
  split
  · simp only [each_bind]
    exact ⟨each_lineHeight h source, each_keyword h _ _ _ _, each_keyword h _ _ _ _,
      each_keyword h _ _ _ _, each_keyword h _ _ _ _, each_pure _⟩
  · rw [each_bind]
    exact ⟨each_fail h _, each_pure _⟩

theorem each_optionalKeyword (field : String) (ofTag? : String → Option α) (default : α)
    (tag : Option String) : (optionalKeyword id field ofTag? default tag).Each P := by
  unfold optionalKeyword
  split
  · exact each_clean _
  · rw [each_bind]
    exact ⟨each_keyword h _ _ _ _, each_pure _⟩

theorem each_characterStyles (length : Nat) (given : List Nat) :
    (characterStyles id length given).Each P := by
  unfold characterStyles
  split
  · rw [each_bind, each_note]
    exact ⟨h.ignored _, each_pure _⟩
  · exact each_clean _

theorem each_styleRange (length : Nat) (range : StyleRange) :
    (styleRange id length range).Each P := by
  unfold styleRange
  split
  · rw [each_bind]
    exact ⟨each_fail h _, each_pure _⟩
  · exact each_clean _

theorem each_textBase (source : NodeSource) : (textBase id source).Each P := by
  unfold textBase
  split
  · rw [each_bind]
    exact ⟨each_fail h _, each_pure _⟩
  · rw [each_bind]
    exact ⟨each_fail h _, each_pure _⟩
  · rw [each_bind]
    exact ⟨each_baseStyle h _, each_pure _⟩

end PlainRemarks

/-! ### Parts with paints -/

section WordedRemarks

variable (h : Worded id P)

include h

theorem each_gradientInk (field : String) (index : Nat) (kind : GradientKind)
    (source : PaintSource) : (gradientInk id field index kind source).Each P := by
  unfold gradientInk
  split
  · exact each_clean _
  · rw [each_bind]
    exact ⟨each_note.2 (h.disorder _), each_pure _⟩

theorem each_ink (field : String) (index : Nat) (source : PaintSource) :
    (ink id field index source).Each P := by
  unfold ink
  split
  · exact each_gradientInk h field index _ source
  · split
    · exact each_clean _
    · rw [each_bind]
      exact ⟨each_fail h.toPlain _, each_pure _⟩
  · split
    · rw [each_bind]
      exact ⟨each_keyword h.toPlain _ _ _ _, each_pure _⟩
    · rw [each_bind]
      exact ⟨each_fail h.toPlain _, each_pure _⟩
  · exact each_clean _

theorem each_paint (field : String) (index : Nat) (source : PaintSource) :
    (paint id field index source).Each P := by
  unfold paint
  rw [each_bind]
  refine ⟨each_ink h field index source, ?_⟩
  split <;> exact each_pure _

theorem each_paints (field : String) (sources : List PaintSource) :
    (paints id field sources).Each P :=
  each_someIndexed (each_paint h field)

theorem each_optionalFills (sources : Option (List PaintSource)) :
    (optionalFills id sources).Each P := by
  unfold optionalFills
  split
  · exact each_clean _
  · rw [each_bind]
    exact ⟨each_paints h _ _, each_pure _⟩

theorem each_styleOverride (source : StyleSource) : (styleOverride id source).Each P := by
  unfold styleOverride
  simp only [each_bind]
  exact ⟨each_optionalKeyword h.toPlain _ _ _ _, each_optionalKeyword h.toPlain _ _ _ _,
    each_lineHeight h.toPlain source, each_optionalFills h _, each_pure _⟩

theorem each_overrideTable (table : OverrideTable) (sources : List (String × StyleSource)) :
    (overrideTable id table sources).Each P := by
  induction sources generalizing table with
  | nil => exact each_clean _
  | cons first rest ih =>
      obtain ⟨key, source⟩ := first
      unfold overrideTable
      split
      · rw [each_bind]
        exact ⟨each_styleOverride h source, ih _⟩
      · rw [each_bind]
        exact ⟨each_fail h.toPlain _, ih _⟩

theorem each_textBlock (hmissing : ∀ n, P (missingNote id n)) (source : NodeSource) :
    (textBlock id source).Each P := by
  unfold textBlock
  rw [each_bind]
  refine ⟨each_textBase h.toPlain source, ?_⟩
  split
  · exact each_pure _
  · simp only [each_bind]
    exact ⟨each_overrideTable h _ _, each_characterStyles h.toPlain _ _,
      each_some.2 fun range _ => each_styleRange h.toPlain _ range,
      each_remarkMissing hmissing _, each_pure _⟩

end WordedRemarks

theorem each_nodeKind (source : NodeSource) (nodeClass : NodeClass) :
    (nodeKind id source nodeClass).Each (Remark id) := by
  cases nodeClass with
  | frame => exact each_bind.2 ⟨each_frame plain_remark source, each_pure _⟩
  | instanceOf => exact each_bind.2 ⟨each_frame plain_remark source, each_pure _⟩
  | text =>
      exact each_bind.2 ⟨each_textBlock worded_remark remark_missingNote source, each_pure _⟩
  | shape kind => exact each_bind.2 ⟨each_cornerRadius plain_remark source, each_pure _⟩

/-- Whatever is remarked while a layer is built names its node, and none of it says that children
were cut off. -/
theorem each_layer (nodeClass : NodeClass) (source : NodeSource) :
    (layer id nodeClass source).Each (Remark id) := by
  unfold layer
  simp only [each_bind]
  refine ⟨each_bounds plain_remark _, each_nodeKind source nodeClass, ?_⟩
  split
  · exact each_pure _
  · simp only [each_bind]
    exact ⟨each_keyword plain_remark _ _ _ _, each_paints worded_remark _ _,
      each_paints worded_remark _ _, each_pure _⟩

end Document

end SceneMarkup
