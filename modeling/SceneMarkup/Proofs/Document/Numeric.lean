/-
  SceneMarkup/Proofs/Document/Numeric.lean --- what is decoded from numbers has numbers.

  WHAT THIS FILE IS FOR.  A structure is decoded field by field, so that what every field
  keeps holds of the whole (`Schema.decodes`), whether it is read from an object or from
  a list.  For the paints of a node this says that the positions of gradients are numbers
  (`NodeSource.Numeric`).
-/
import SceneMarkup.Proofs.Document.Kinds
import SceneMarkup.Proofs.Json.Numeric

set_option autoImplicit false

namespace SceneMarkup

namespace Json

/-! ## Decoders -/

section Decoders

variable {α β σ : Type} {Q : α → Prop} {P : σ → Prop}

/-- What is decoded from a value whose numbers are numbers has a property. -/
def Decodes (Q : α → Prop) (decode : Decoder α) : Prop :=
  ∀ v a, v.Numeric → decode v = .ok a → Q a

/-- A property of a structure is kept when a field is read from such a value. -/
def Field.Keeps (field : Field σ) (P : σ → Prop) : Prop :=
  ∀ v s s', v.Numeric → P s → field.read v s = .ok s' → P s'

theorem exists_of_bind {x : Except Mismatch β} {f : β → Except Mismatch α} {a : α}
    (h : x >>= f = .ok a) : ∃ b, x = .ok b ∧ f b = .ok a := by
  cases x with
  | error mismatch => cases h
  | ok b => exact ⟨b, rfl, h⟩

theorem any_decodes (decode : Decoder α) : Decodes (fun _ => True) decode :=
  fun _ _ _ _ => trivial

theorem float_decodes : Decodes IsNumber float := by
  intro v x hv h
  cases hv with
  | number n hn =>
      cases h
      exact hn
  | _ => cases h

theorem forall_of_mapM {f : β → Except Mismatch α} {items : List β}
    (h : ∀ b ∈ items, ∀ a, f b = .ok a → Q a) {results : List α}
    (hresults : items.mapM f = .ok results) : ∀ a ∈ results, Q a := by
  induction items generalizing results with
  | nil =>
      cases hresults
      exact List.forall_mem_nil Q
  | cons b rest ih =>
      rw [List.forall_mem_cons] at h
      rw [List.mapM_cons] at hresults
      obtain ⟨a, ha, hresults⟩ := exists_of_bind hresults
      obtain ⟨others, hothers, hresults⟩ := exists_of_bind hresults
      cases hresults
      exact List.forall_mem_cons.2 ⟨h.1 a ha, ih h.2 hothers⟩

theorem list_decodes {item : Decoder α} (h : Decodes Q item) :
    Decodes (fun items => ∀ a ∈ items, Q a) (list item) := by
  intro v items hv heq
  cases hv with
  | array values hvalues => exact forall_of_mapM (fun v hv a => h v a (hvalues v hv)) heq
  | _ => cases heq

theorem mapping_decodes {item : Decoder α} (h : Decodes Q item) :
    Decodes (fun entries => ∀ entry ∈ entries, Q entry.2) (mapping item) := by
  intro v entries hv heq
  cases hv with
  | object fields hfields =>
      refine forall_of_mapM (fun (key, v) hfield entry hentry => ?_) heq
      obtain ⟨a, ha, hentry⟩ := exists_of_bind hentry
      cases hentry
      exact h v a (hfields (key, v) hfield) ha
  | _ => cases heq

theorem optional_decodes {item : Decoder α} (h : Decodes Q item) :
    Decodes (fun a? => ∀ a ∈ a?, Q a) (optional item) := by
  intro v a? hv heq a ha
  cases ha
  unfold optional at heq
  split at heq
  · cases heq
  · cases hitem : item v with
    | error mismatch =>
        rw [hitem] at heq
        cases heq
    | ok a' =>
        rw [hitem] at heq
        cases heq
        exact h v a hv hitem

theorem required_keeps {key : String} {decode : Decoder α} {set : α → σ → σ}
    (hdecode : Decodes Q decode) (hset : ∀ a s, Q a → P s → P (set a s)) :
    (required key decode set).Keeps P := by
  intro v s s' hv hs hread
  obtain ⟨a, ha, hread⟩ := exists_of_bind hread
  cases hread
  exact hset a s (hdecode v a hv ha) hs

theorem defaulted_keeps {key : String} {decode : Decoder α} {set : α → σ → σ}
    (hdecode : Decodes Q decode) (hset : ∀ a s, Q a → P s → P (set a s)) :
    (defaulted key decode set).Keeps P :=
  @required_keeps _ _ _ _ key decode set hdecode hset

theorem nullable_keeps {key : String} {decode : Decoder α} {set : Option α → σ → σ}
    (hdecode : Decodes Q decode) (hset : ∀ a? s, (∀ a ∈ a?, Q a) → P s → P (set a? s)) :
    (nullable key decode set).Keeps P :=
  @required_keeps _ _ _ _ key (optional decode) set (optional_decodes hdecode) hset

end Decoders

/-! ## Structures -/

section Structures

variable {σ β : Type} {P : σ → Prop} {schema : Schema σ}

theorem of_foldlM {step : σ → β → Except Mismatch σ} {items : List β}
    (h : ∀ item ∈ items, ∀ s s', P s → step s item = .ok s' → P s') {start s : σ} (hstart : P start)
    (hfold : items.foldlM step start = .ok s) : P s := by
  induction items generalizing start with
  | nil =>
      cases hfold
      exact hstart
  | cons first rest ih =>
      rw [List.forall_mem_cons] at h
      rw [List.foldlM_cons] at hfold
      obtain ⟨next, hnext, hfold⟩ := exists_of_bind hfold
      exact ih h.2 (h.1 start next hstart hnext) hfold

theorem Schema.of_readItems {length index : ℕ} {fields : List (Field σ)} {items : List Value}
    {start s : σ} (hfields : ∀ field ∈ fields, field.Keeps P) (hitems : ∀ v ∈ items, v.Numeric)
    (hstart : P start) (h : schema.readItems length fields items index start = .ok s) : P s := by
  fun_induction Schema.readItems schema length fields items index start with
  | case1 =>
      cases h
      exact hstart
  | case2 => cases h
  | case3 field fields index start habsence ih =>
      exact ih (List.forall_mem_cons.1 hfields).2 hitems hstart h
  | case4 => cases h
  | case5 field fields v items index start ih =>
      rw [List.forall_mem_cons] at hfields hitems
      obtain ⟨next, hnext, h⟩ := exists_of_bind h
      exact ih next hfields.2 hitems.2 (hfields.1 v start next hitems.1 hstart hnext) h

/-- A structure has a property if it has it without fields and every field keeps it. -/
theorem Schema.decodes (hstart : P schema.start)
    (hfields : ∀ field ∈ schema.fields, field.Keeps P) : Decodes P schema.decode := by
  intro v s hv h
  cases hv with
  | object fields hnumeric =>
      refine of_foldlM (fun entry hentry s s' hs hread => ?_) hstart (Schema.readObject_eq_ok h)
      rw [Schema.readField] at hread
      split at hread
      · rename_i field hfind
        exact hfields field (List.mem_of_find?_eq_some hfind) entry.2 s s' (hnumeric entry hentry)
          hs hread
      · cases hread
        exact hs
  | array items hnumeric => exact Schema.of_readItems hfields hnumeric hstart h
  | _ => cases h

end Structures

end Json

namespace Document

open Json

/-! ## Paints of a node -/

/-- The positions of the stops of a paint are numbers. -/
def PaintSource.Numeric (source : PaintSource) : Prop :=
  ∀ stop ∈ source.stops, IsNumber stop.position

/-- The fills of a style, if it has any, are numeric. -/
def StyleSource.Numeric (source : StyleSource) : Prop :=
  ∀ fills ∈ source.fills, ∀ fill ∈ fills, fill.Numeric

/-- All paints of a node are numeric. -/
structure NodeSource.Numeric (source : NodeSource) : Prop where
  fills : ∀ fill ∈ source.fills, fill.Numeric
  strokes : ∀ stroke ∈ source.strokes, stroke.Numeric
  overrides : ∀ entry ∈ source.overrides, entry.2.Numeric

theorem stopSchema_decodes : Decodes (fun stop => IsNumber stop.position) stopSchema.decode := by
  refine Schema.decodes isNumber_zero ?_
  simp only [stopSchema, List.forall_mem_cons]
  refine ⟨?_, ?_, List.forall_mem_nil _⟩
  · exact required_keeps float_decodes fun _ _ hposition _ => hposition
  · exact required_keeps (any_decodes _) fun _ _ _ hs => hs

theorem paintSchema_decodes : Decodes PaintSource.Numeric paintSchema.decode := by
  refine Schema.decodes (List.forall_mem_nil _) ?_
  simp only [paintSchema, List.forall_mem_cons]
  and_intros
  -- only the stops of a gradient have positions
  all_goals first
    | exact defaulted_keeps (list_decodes stopSchema_decodes) fun _ _ hstops _ => hstops
    | exact defaulted_keeps (any_decodes _) fun _ _ _ hs => hs
    | exact nullable_keeps (any_decodes _) fun _ _ _ hs => hs
    | exact required_keeps (any_decodes _) fun _ _ _ hs => hs
    | exact List.forall_mem_nil _

theorem styleSchema_decodes : Decodes StyleSource.Numeric styleSchema.decode := by
  refine Schema.decodes nofun ?_
  simp only [styleSchema, List.forall_mem_cons]
  and_intros
  all_goals first
    | exact nullable_keeps (list_decodes paintSchema_decodes) fun _ _ hfills _ => hfills
    | exact nullable_keeps (any_decodes _) fun _ _ _ hs => hs
    | exact List.forall_mem_nil _

theorem NodeSource.numeric_empty : NodeSource.empty.Numeric :=
  ⟨List.forall_mem_nil _, List.forall_mem_nil _, List.forall_mem_nil _⟩

/-- The paints of a node that is decoded from numbers are numeric. -/
theorem nodeSchema_decodes : Decodes NodeSource.Numeric nodeSchema.decode := by
  refine Schema.decodes NodeSource.numeric_empty ?_
  simp only [nodeSchema, List.forall_mem_cons]
  and_intros
  all_goals first
    | exact nullable_keeps (any_decodes _) fun _ _ _ hs => ⟨hs.fills, hs.strokes, hs.overrides⟩
    | exact defaulted_keeps (any_decodes _) fun _ _ _ hs => ⟨hs.fills, hs.strokes, hs.overrides⟩
    | exact defaulted_keeps (list_decodes paintSchema_decodes) fun _ _ hfills hs =>
        ⟨hfills, hs.strokes, hs.overrides⟩
    | exact defaulted_keeps (list_decodes paintSchema_decodes) fun _ _ hstrokes hs =>
        ⟨hs.fills, hstrokes, hs.overrides⟩
    | exact defaulted_keeps (mapping_decodes styleSchema_decodes) fun _ _ hoverrides hs =>
        ⟨hs.fills, hs.strokes, hoverrides⟩
    | exact List.forall_mem_nil _

end Document

end SceneMarkup
