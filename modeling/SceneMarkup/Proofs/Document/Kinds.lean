/-
  SceneMarkup/Proofs/Document/Kinds.lean --- the kinds of values that the fields of a node
  take.

  WHAT THIS FILE IS FOR.  The schema of a node says how each field is read, not what it
  refuses.  Each decoder takes values of some kinds only (`OnlyTakes`), so each field
  does (`fieldKinds`), and one value of another kind is enough for the node not to be
  read.  A field that is not there leaves its part of the node empty (`Preserves`).
-/
import SceneMarkup.Document.Source

set_option autoImplicit false

namespace SceneMarkup

open Json (Decoder Field Fields Mismatch Schema Value)

/-! ## Decoders -/

namespace Json

variable {α σ : Type}

/-- A decoder refuses all values that are not of certain kinds. -/
def OnlyTakes (decode : Decoder α) (kinds : List String) : Prop :=
  ∀ v : Value, v.kind ∉ kinds → ∃ mismatch, decode v = .error mismatch

theorem string_onlyTakes : OnlyTakes string ["a string"] := by
  intro v hkind
  cases v with
  | string s => exact absurd List.mem_cons_self hkind
  | _ => exact ⟨_, rfl⟩

theorem bool_onlyTakes : OnlyTakes bool ["a boolean"] := by
  intro v hkind
  cases v with
  | bool b => exact absurd List.mem_cons_self hkind
  | _ => exact ⟨_, rfl⟩

theorem float_onlyTakes : OnlyTakes float ["a number"] := by
  intro v hkind
  cases v with
  | number n => exact absurd List.mem_cons_self hkind
  | _ => exact ⟨_, rfl⟩

theorem list_onlyTakes (item : Decoder α) : OnlyTakes (list item) ["an array"] := by
  intro v hkind
  cases v with
  | array items => exact absurd List.mem_cons_self hkind
  | _ => exact ⟨_, rfl⟩

theorem mapping_onlyTakes (item : Decoder α) : OnlyTakes (mapping item) ["an object"] := by
  intro v hkind
  cases v with
  | object fields => exact absurd List.mem_cons_self hkind
  | _ => exact ⟨_, rfl⟩

theorem decode_onlyTakes (schema : Schema σ) :
    OnlyTakes schema.decode ["an object", "an array"] := by
  intro v hkind
  cases v with
  | object fields => exact absurd List.mem_cons_self hkind
  | array items => exact absurd (List.mem_cons_of_mem _ List.mem_cons_self) hkind
  | _ => exact ⟨_, rfl⟩

theorem optional_onlyTakes {item : Decoder α} {kinds : List String} (h : OnlyTakes item kinds) :
    OnlyTakes (optional item) ("null" :: kinds) := by
  intro v hkind
  rw [List.mem_cons, not_or] at hkind
  obtain ⟨mismatch, hmismatch⟩ := h v hkind.2
  cases v with
  | null => exact absurd rfl hkind.1
  | _ => exact ⟨mismatch, congrArg (Except.map some) hmismatch⟩

/-! ## Fields of a schema -/

/-- A field refuses a value, whatever was read before. -/
def Field.Refuses (field : Field σ) (v : Value) : Prop :=
  ∀ s, ∃ mismatch, field.read v s = .error mismatch

theorem required_refuses {key : String} {decode : Decoder α} {set : α → σ → σ}
    {kinds : List String} (h : OnlyTakes decode kinds) {v : Value} (hkind : v.kind ∉ kinds) :
    (required key decode set).Refuses v := by
  intro s
  obtain ⟨mismatch, hmismatch⟩ := h v hkind
  exact ⟨mismatch, congrArg (Except.map fun a => set a s) hmismatch⟩

theorem defaulted_refuses {key : String} {decode : Decoder α} {set : α → σ → σ}
    {kinds : List String} (h : OnlyTakes decode kinds) {v : Value} (hkind : v.kind ∉ kinds) :
    (defaulted key decode set).Refuses v :=
  @required_refuses _ _ key decode set kinds h v hkind

theorem nullable_refuses {key : String} {decode : Decoder α} {set : Option α → σ → σ}
    {kinds : List String} (h : OnlyTakes decode kinds) {v : Value}
    (hkind : v.kind ∉ "null" :: kinds) :
    (nullable key decode set).Refuses v :=
  @required_refuses _ _ key (optional decode) set _ (optional_onlyTakes h) v hkind

/-- A part of a structure is as before once a field was read. -/
def Field.Preserves {β : Type} (field : Field σ) (part : σ → β) : Prop :=
  ∀ v s s', field.read v s = .ok s' → part s' = part s

theorem required_preserves {β : Type} {key : String} {decode : Decoder α} {set : α → σ → σ}
    {part : σ → β} (h : ∀ a s, part (set a s) = part s) :
    (required key decode set).Preserves part := by
  intro v s s' hread
  change (decode v >>= fun a => pure (set a s)) = .ok s' at hread
  cases hdecode : decode v with
  | error mismatch =>
      rw [hdecode] at hread
      cases hread
  | ok a =>
      rw [hdecode] at hread
      cases hread
      exact h a s

theorem defaulted_preserves {β : Type} {key : String} {decode : Decoder α} {set : α → σ → σ}
    {part : σ → β} (h : ∀ a s, part (set a s) = part s) :
    (defaulted key decode set).Preserves part :=
  @required_preserves _ _ _ key decode set part h

theorem nullable_preserves {β : Type} {key : String} {decode : Decoder α}
    {set : Option α → σ → σ} {part : σ → β} (h : ∀ a s, part (set a s) = part s) :
    (nullable key decode set).Preserves part :=
  @required_preserves _ _ _ key (optional decode) set part h

/-! ## Objects -/

theorem foldlM_eq_error {β : Type} {step : σ → β → Except Mismatch σ} {items : List β} {item : β}
    (hmem : item ∈ items) (h : ∀ s, ∃ mismatch, step s item = .error mismatch) (start : σ) :
    ∃ mismatch, items.foldlM step start = .error mismatch := by
  induction items generalizing start with
  | nil => cases hmem
  | cons first rest ih =>
      rw [List.foldlM_cons]
      rcases List.mem_cons.1 hmem with rfl | hmem
      · obtain ⟨mismatch, hmismatch⟩ := h start
        rw [hmismatch]
        exact ⟨mismatch, rfl⟩
      · cases step start first with
        | error mismatch => exact ⟨mismatch, rfl⟩
        | ok s => exact ih hmem s

theorem part_of_foldlM {β γ : Type} {step : σ → β → Except Mismatch σ} {items : List β}
    {part : σ → γ} (h : ∀ item ∈ items, ∀ s s', step s item = .ok s' → part s' = part s)
    {start s : σ} (hfold : items.foldlM step start = .ok s) : part s = part start := by
  induction items generalizing start with
  | nil =>
      cases hfold
      rfl
  | cons first rest ih =>
      rw [List.forall_mem_cons] at h
      rw [List.foldlM_cons] at hfold
      cases hfirst : step start first with
      | error mismatch =>
          rw [hfirst] at hfold
          cases hfold
      | ok next =>
          rw [hfirst] at hfold
          rw [ih h.2 hfold, h.1 start next hfirst]

namespace Schema

variable {schema : Schema σ} {fields : Fields}

/-- An object is not read if one of its fields is refused. -/
theorem decode_of_refuses {field : Field σ} {v : Value}
    (hfield : schema.fields.find? (·.key == field.key) = some field) (hrefuses : field.Refuses v)
    (hmem : (field.key, v) ∈ fields) :
    ∃ mismatch, schema.decode (.object fields) = .error mismatch := by
  have hread : ∀ s, ∃ mismatch, schema.readField s (field.key, v) = .error mismatch := by
    intro s
    rw [readField, hfield]
    exact hrefuses s
  obtain ⟨mismatch, hmismatch⟩ := foldlM_eq_error hmem hread schema.start
  exact ⟨mismatch, by rw [decode, readObject, hmismatch]; rfl⟩

theorem readObject_eq_ok {s : σ} (h : schema.readObject fields = .ok s) :
    fields.foldlM schema.readField schema.start = .ok s := by
  rw [readObject] at h
  cases hfold : fields.foldlM schema.readField schema.start with
  | error mismatch =>
      rw [hfold] at h
      cases h
  | ok read =>
      rw [hfold] at h
      dsimp only [bind, Except.bind] at h
      split at h
      · cases h
      · exact h

/-- A part that only the field `key` sets is as in the beginning, if an object has no such field. -/
theorem part_of_decode {β : Type} {part : σ → β} {key : String}
    (hpart : ∀ field ∈ schema.fields, field.key = key ∨ field.Preserves part)
    (hkey : ∀ field ∈ fields, field.1 ≠ key) {s : σ} (h : schema.decode (.object fields) = .ok s) :
    part s = part schema.start := by
  refine part_of_foldlM (fun field hfield s s' hread => ?_) (readObject_eq_ok h)
  rw [readField] at hread
  split at hread
  · rename_i f hfind
    have hname : f.key = field.1 := by simpa using List.find?_some hfind
    rcases hpart f (List.mem_of_find?_eq_some hfind) with heq | hpreserves
    · exact absurd (hname.symm.trans heq) (hkey field hfield)
    · exact hpreserves _ _ _ hread
  · cases hread
    rfl

end Schema

end Json

/-! ## Fields of a node -/

namespace Document

open Json

theorem radius_onlyTakes : OnlyTakes radius ["a number", "an array"] := by
  intro v hkind
  cases v with
  | number n => exact absurd List.mem_cons_self hkind
  | array items => exact absurd (List.mem_cons_of_mem _ List.mem_cons_self) hkind
  | _ => exact ⟨_, rfl⟩

/-- The kinds of values that the fields of a node can have. -/
def fieldKinds : List (String × List String) :=
  [("name", ["a string"]),
    ("visible", ["null", "a boolean"]),
    ("opacity", ["null", "a number"]),
    ("blendMode", ["null", "a string"]),
    ("absoluteBoundingBox", ["null", "an object", "an array"]),
    ("fills", ["an array"]),
    ("strokes", ["an array"]),
    ("strokeWeight", ["null", "a number"]),
    ("effects", ["an array"]),
    ("layoutGrow", ["null", "a number"]),
    ("layoutMode", ["null", "a string"]),
    ("primaryAxisSizingMode", ["null", "a string"]),
    ("counterAxisSizingMode", ["null", "a string"]),
    ("primaryAxisAlignItems", ["null", "a string"]),
    ("counterAxisAlignItems", ["null", "a string"]),
    ("padding", ["null", "a number"]),
    ("paddingTop", ["null", "a number"]),
    ("paddingRight", ["null", "a number"]),
    ("paddingBottom", ["null", "a number"]),
    ("paddingLeft", ["null", "a number"]),
    ("itemSpacing", ["null", "a number"]),
    ("cornerRadius", ["null", "a number", "an array"]),
    ("rectangleCornerRadii", ["null", "an array"]),
    ("clipsContent", ["null", "a boolean"]),
    ("componentId", ["null", "a string"]),
    ("characters", ["null", "a string"]),
    ("style", ["null", "an object", "an array"]),
    ("characterStyleOverrides", ["an array"]),
    ("styleOverrideTable", ["an object"]),
    ("styleOverrideRanges", ["an array"])]

theorem find?_nodeSchema : ∀ field ∈ nodeSchema.fields,
    nodeSchema.fields.find? (·.key == field.key) = some field := by
  simp only [nodeSchema, List.forall_mem_cons]
  and_intros
  all_goals first | rfl | exact nofun

/-- Every field of a node refuses the values of all other kinds. -/
theorem exists_field_of_mem_fieldKinds : ∀ entry ∈ fieldKinds, ∃ field,
    nodeSchema.fields.find? (·.key == entry.1) = some field ∧
      ∀ v : Value, v.kind ∉ entry.2 → field.Refuses v := by
  simp only [fieldKinds, List.forall_mem_cons]
  and_intros
  -- what a field refuses is settled by its decoder and by whether it may be null
  all_goals first
    | exact ⟨_, rfl, fun _ => nullable_refuses float_onlyTakes⟩
    | exact ⟨_, rfl, fun _ => nullable_refuses string_onlyTakes⟩
    | exact ⟨_, rfl, fun _ => nullable_refuses bool_onlyTakes⟩
    | exact ⟨_, rfl, fun _ => nullable_refuses radius_onlyTakes⟩
    | exact ⟨_, rfl, fun _ => nullable_refuses (list_onlyTakes _)⟩
    | exact ⟨_, rfl, fun _ => nullable_refuses (decode_onlyTakes _)⟩
    | exact ⟨_, rfl, fun _ => defaulted_refuses string_onlyTakes⟩
    | exact ⟨_, rfl, fun _ => defaulted_refuses (list_onlyTakes _)⟩
    | exact ⟨_, rfl, fun _ => defaulted_refuses (mapping_onlyTakes _)⟩
    | exact nofun

/-- The box, the characters and the style of a node are set by one field each. -/
theorem part_nodeSchema : ∀ field ∈ nodeSchema.fields,
    (field.key = "absoluteBoundingBox" ∨ field.Preserves NodeSource.bounds) ∧
      (field.key = "characters" ∨ field.Preserves NodeSource.characters) ∧
      (field.key = "style" ∨ field.Preserves NodeSource.style) := by
  simp only [nodeSchema, List.forall_mem_cons]
  and_intros
  all_goals first
    | exact .inr (nullable_preserves fun _ _ => rfl)
    | exact .inr (defaulted_preserves fun _ _ => rfl)
    | exact .inl rfl
    | exact nofun

end Document

end SceneMarkup
