/-
  SceneMarkup/Proofs/Style/Record.lean --- what setting, subtracting and sorting
  declarations does to a record.

  WHAT THIS FILE IS FOR.  Records are built by setting declarations one after the other,
  and looked up by property or by a key made of all declarations in order.  Since no
  property is declared twice, a record without its order is the set of its declarations:
  its values and its key depend on that set alone.
-/
import Mathlib.Data.List.Sort
import Mathlib.Data.Prod.Lex
import Mathlib.Data.String.Basic
import SceneMarkup.Style.Record

set_option autoImplicit false

namespace SceneMarkup

namespace Declarations

/-! ## Setting a declaration -/

/-- A property that is not declared comes last when it is set. -/
theorem set_of_not_mem {ds : List Declaration} {property : String}
    (h : property ∉ ds.map (·.1)) (value : String) :
    set ds property value = ds ++ [(property, value)] := by
  induction ds with
  | nil => rfl
  | cons d rest ih =>
      rw [List.map_cons, List.mem_cons, not_or] at h
      rw [set, if_neg (Ne.symm h.1), ih h.2, List.cons_append]

/-- A property that is declared is set in its place. -/
theorem map_set_of_mem {ds : List Declaration} {property : String} (h : property ∈ ds.map (·.1))
    (value : String) : (set ds property value).map (·.1) = ds.map (·.1) := by
  induction ds with
  | nil => simp at h
  | cons d rest ih =>
      by_cases hd : d.1 = property
      · rw [set, if_pos hd, List.map_cons, List.map_cons, hd]
      · rw [List.map_cons, List.mem_cons] at h
        have hrest : property ∈ rest.map (·.1) := h.resolve_left (Ne.symm hd)
        rw [set, if_neg hd, List.map_cons, List.map_cons, ih hrest]

theorem mem_of_mem_set {ds : List Declaration} {property value : String} {d : Declaration}
    (h : d ∈ set ds property value) : d ∈ ds ∨ d = (property, value) := by
  induction ds with
  | nil =>
      rw [set, List.mem_singleton] at h
      exact Or.inr h
  | cons e rest ih =>
      unfold set at h
      split at h
      · rcases List.mem_cons.1 h with h | h
        · exact Or.inr h
        · exact Or.inl (List.mem_cons_of_mem e h)
      · rcases List.mem_cons.1 h with rfl | h
        · exact Or.inl List.mem_cons_self
        · rcases ih h with h | h
          · exact Or.inl (List.mem_cons_of_mem e h)
          · exact Or.inr h

theorem mem_set_self (ds : List Declaration) (property value : String) :
    (property, value) ∈ set ds property value := by
  induction ds with
  | nil => exact List.mem_singleton_self _
  | cons e rest ih =>
      unfold set
      split
      · exact List.mem_cons_self
      · exact List.mem_cons_of_mem e ih

/-- Setting a property leaves the declarations of others alone. -/
theorem mem_set_of_mem {ds : List Declaration} {property value : String} {d : Declaration}
    (h : d ∈ ds) (hne : d.1 ≠ property) : d ∈ set ds property value := by
  induction ds with
  | nil => simp at h
  | cons e rest ih =>
      unfold set
      split
      · rename_i he
        rcases List.mem_cons.1 h with rfl | h
        · exact absurd he hne
        · exact List.mem_cons_of_mem _ h
      · rcases List.mem_cons.1 h with rfl | h
        · exact List.mem_cons_self
        · exact List.mem_cons_of_mem e (ih h)

/-! ## Sorting -/

theorem before_iff (d e : Declaration) : before d e = true ↔ toLex d < toLex e := by
  rw [Prod.Lex.lt_iff, before, Bool.or_eq_true, decide_eq_true_eq, Bool.and_eq_true, beq_iff_eq,
    decide_eq_true_eq]
  rfl

theorem insertSorted_eq (d : Declaration) (ds : List Declaration) :
    insertSorted d ds = ds.orderedInsert (fun d e => toLex d ≤ toLex e) d := by
  induction ds with
  | nil => rfl
  | cons e rest ih =>
      rw [insertSorted, List.orderedInsert_cons]
      by_cases h : toLex d ≤ toLex e
      · rw [if_neg (by rw [before_iff]; exact not_lt_of_ge h), if_pos h]
      · rw [if_pos ((before_iff e d).2 (lt_of_not_ge h)), if_neg h, ih]

/-- Sorting is insertion in the order of properties and then of values. -/
theorem sort_eq (ds : List Declaration) :
    sort ds = ds.insertionSort fun d e => toLex d ≤ toLex e := by
  rw [sort, List.insertionSort]
  congr 1
  funext d ds
  exact insertSorted_eq d ds

theorem mem_sort {ds : List Declaration} {d : Declaration} : d ∈ sort ds ↔ d ∈ ds := by
  rw [sort_eq, List.mem_insertionSort]

theorem sort_eq_of_perm {ds es : List Declaration} (h : ds.Perm es) : sort ds = sort es := by
  rw [sort_eq, sort_eq]
  refine List.Perm.eq_of_pairwise ?_ (List.pairwise_insertionSort _ ds)
    (List.pairwise_insertionSort _ es) ?_
  · intro d e _ _ hde hed
    exact toLex_inj.1 (le_antisymm hde hed)
  · exact (List.perm_insertionSort _ ds).trans (h.trans (List.perm_insertionSort _ es).symm)

end Declarations

namespace Record

/-! ## Properties -/

/-- The properties that are declared, in order. -/
def properties (r : Record) : List String := r.declarations.map (·.1)

theorem nodup_declarations (r : Record) : r.declarations.Nodup := List.Nodup.of_map _ r.nodup

/-- A record has one value for a property. -/
theorem value_eq_of_mem {r : Record} {property value value' : String}
    (h : (property, value) ∈ r.declarations) (h' : (property, value') ∈ r.declarations) :
    value = value' :=
  congrArg Prod.snd (List.inj_on_of_nodup_map r.nodup h h' rfl)

theorem get?_eq_some_iff {r : Record} {property value : String} :
    r.get? property = some value ↔ (property, value) ∈ r.declarations := by
  rw [get?, Declarations.get?, Option.map_eq_some_iff]
  constructor
  · rintro ⟨⟨p, v⟩, hfind, rfl⟩
    have hp : p = property := by simpa using List.find?_some hfind
    rw [← hp]
    exact List.mem_of_find?_eq_some hfind
  · intro h
    cases hfind : r.declarations.find? fun d => d.1 == property with
    | none =>
        rw [List.find?_eq_none] at hfind
        exact absurd (hfind _ h) (by simp)
    | some d =>
        have hd : d.1 = property := by simpa using List.find?_some hfind
        refine ⟨d, rfl, ?_⟩
        have hmem : (property, d.2) ∈ r.declarations := by
          rw [← hd]
          exact List.mem_of_find?_eq_some hfind
        exact value_eq_of_mem hmem h

theorem has_iff {r : Record} {property : String} :
    r.has property = true ↔ property ∈ r.properties := by
  rw [has, Option.isSome_iff_exists, properties, List.mem_map]
  constructor
  · rintro ⟨value, hvalue⟩
    exact ⟨(property, value), get?_eq_some_iff.1 hvalue, rfl⟩
  · rintro ⟨⟨p, value⟩, hmem, rfl⟩
    exact ⟨value, get?_eq_some_iff.2 hmem⟩

theorem isEmpty_eq_false_of_mem {r : Record} {d : Declaration} (h : d ∈ r.declarations) :
    r.isEmpty = false := by
  rw [isEmpty, List.isEmpty_eq_false_iff]
  exact List.ne_nil_of_mem h

/-! ## Records of lists -/

theorem setAll_append (r : Record) (ds es : List Declaration) :
    r.setAll (ds ++ es) = (r.setAll ds).setAll es := List.foldl_append

theorem ofList_append (ds es : List Declaration) :
    ofList (ds ++ es) = (ofList ds).setAll es := setAll_append empty ds es

/-- Setting properties that are all new is appending their declarations. -/
theorem declarations_setAll {r : Record} {ds : List Declaration}
    (h : (r.properties ++ ds.map (·.1)).Nodup) :
    (r.setAll ds).declarations = r.declarations ++ ds := by
  induction ds generalizing r with
  | nil => rw [List.append_nil]; rfl
  | cons d rest ih =>
      have hnew : d.1 ∉ r.properties := fun hmem =>
        (List.nodup_append.1 h).2.2 d.1 hmem d.1 (by simp) rfl
      have hset : (r.set d.1 d.2).declarations = r.declarations ++ [d] :=
        Declarations.set_of_not_mem hnew d.2
      have hrest : ((r.set d.1 d.2).properties ++ rest.map (·.1)).Nodup := by
        rw [properties, hset, List.map_append, List.append_assoc]
        exact h
      exact (ih hrest).trans (by rw [hset, List.append_assoc, List.singleton_append])

/-- A list that declares no property twice is its own record. -/
theorem declarations_ofList {ds : List Declaration} (h : (ds.map (·.1)).Nodup) :
    (ofList ds).declarations = ds :=
  declarations_setAll (r := empty) h

theorem mem_of_mem_setAll {r : Record} {ds : List Declaration} {d : Declaration}
    (h : d ∈ (r.setAll ds).declarations) : d ∈ r.declarations ∨ d ∈ ds := by
  induction ds generalizing r with
  | nil => exact Or.inl h
  | cons e rest ih =>
      rcases ih h with h | h
      · rcases Declarations.mem_of_mem_set h with h | h
        · exact Or.inl h
        · exact Or.inr (by rw [h]; exact List.mem_cons_self)
      · exact Or.inr (List.mem_cons_of_mem e h)

theorem mem_setAll_of_mem {r : Record} {ds : List Declaration} {d : Declaration}
    (h : d ∈ r.declarations) (hnot : d.1 ∉ ds.map (·.1)) : d ∈ (r.setAll ds).declarations := by
  induction ds generalizing r with
  | nil => exact h
  | cons e rest ih =>
      rw [List.map_cons, List.mem_cons, not_or] at hnot
      exact ih (Declarations.mem_set_of_mem h hnot.1) hnot.2

/-- What is set last of its property stays. -/
theorem mem_setAll_of_nodup (r : Record) {ds : List Declaration} {d : Declaration}
    (h : d ∈ ds) (hnodup : (ds.map (·.1)).Nodup) : d ∈ (r.setAll ds).declarations := by
  induction ds generalizing r with
  | nil => simp at h
  | cons e rest ih =>
      rw [List.map_cons, List.nodup_cons] at hnodup
      rcases List.mem_cons.1 h with rfl | h
      · have hset : d ∈ (r.set d.1 d.2).declarations :=
          Declarations.mem_set_self r.declarations d.1 d.2
        exact mem_setAll_of_mem (r := r.set d.1 d.2) hset hnodup.1
      · exact ih (r.set e.1 e.2) h hnodup.2

theorem mem_of_mem_ofList {ds : List Declaration} {d : Declaration}
    (h : d ∈ (ofList ds).declarations) : d ∈ ds := by
  rcases mem_of_mem_setAll h with h | h
  · simp [empty] at h
  · exact h

theorem mem_difference {r base : Record} {d : Declaration} :
    d ∈ (r.difference base).declarations ↔ d ∈ r.declarations ∧ d ∉ base.declarations := by
  obtain ⟨property, value⟩ := d
  rw [difference, filter, List.mem_filter, bne_iff_ne, ne_eq, get?_eq_some_iff]

theorem mem_properties_setAll {r : Record} {ds : List Declaration} {property : String} :
    property ∈ (r.setAll ds).properties ↔ property ∈ r.properties ∨ property ∈ ds.map (·.1) := by
  induction ds generalizing r with
  | nil => simp [setAll]
  | cons d rest ih =>
      have hset : property ∈ (r.set d.1 d.2).properties ↔
          property ∈ r.properties ∨ property = d.1 :=
        Declarations.mem_properties_set
      refine Iff.trans ih ?_
      rw [hset, List.map_cons, List.mem_cons, or_assoc]

theorem get?_set_of_ne {r : Record} {property value p : String} (h : p ≠ property) :
    (r.set property value).get? p = r.get? p := by
  ext v
  rw [get?_eq_some_iff, get?_eq_some_iff]
  constructor
  · intro hmem
    rcases Declarations.mem_of_mem_set hmem with hmem | hset
    · exact hmem
    · exact absurd (congrArg Prod.fst hset) h
  · intro hmem
    exact Declarations.mem_set_of_mem hmem h

/-- `after` has the values of some declarations, and for all other properties those of `before`. -/
structure Sets (before : Record) (ds : List Declaration) (after : Record) : Prop where
  value : ∀ d ∈ ds, after.get? d.1 = some d.2
  others : ∀ property, property ∉ ds.map (·.1) → after.get? property = before.get? property

/-- Setting declarations of different properties leaves all others alone. -/
theorem sets_setAll (r : Record) {ds : List Declaration} (h : (ds.map (·.1)).Nodup) :
    r.Sets ds (r.setAll ds) := by
  refine ⟨fun d hd => get?_eq_some_iff.2 (mem_setAll_of_nodup r hd h), ?_⟩
  clear h
  induction ds generalizing r with
  | nil => exact fun property _ => rfl
  | cons d rest ih =>
      intro property hnot
      rw [List.map_cons, List.mem_cons, not_or] at hnot
      exact (ih (r.set d.1 d.2) property hnot.2).trans (get?_set_of_ne hnot.1)

theorem properties_set_of_mem {r : Record} {property : String} (h : property ∈ r.properties)
    (value : String) : (r.set property value).properties = r.properties :=
  Declarations.map_set_of_mem h value

theorem properties_set_of_not_mem {r : Record} {property : String} (h : property ∉ r.properties)
    (value : String) : (r.set property value).properties = r.properties ++ [property] := by
  have hset : (r.set property value).declarations = r.declarations ++ [(property, value)] :=
    Declarations.set_of_not_mem h value
  rw [properties, hset, List.map_append]
  rfl

/-- A property that is set comes last or has its place already. -/
theorem properties_set_sublist {r : Record} {order : List String}
    (h : r.properties.Sublist order) (property value : String) :
    (r.set property value).properties.Sublist (order ++ [property]) := by
  by_cases hmem : property ∈ r.properties
  · rw [properties_set_of_mem hmem]
    exact h.trans (List.sublist_append_left order [property])
  · rw [properties_set_of_not_mem hmem]
    exact h.append (List.Sublist.refl [property])

/-! ## Keys -/

/-- Two records hold the same declarations, in whatever orders. -/
def SameDeclarations (r s : Record) : Prop := ∀ d, d ∈ r.declarations ↔ d ∈ s.declarations

theorem SameDeclarations.perm {r s : Record} (h : r.SameDeclarations s) :
    r.declarations.Perm s.declarations :=
  (List.perm_ext_iff_of_nodup r.nodup_declarations s.nodup_declarations).2 h

theorem SameDeclarations.canonicalKey_eq {r s : Record} (h : r.SameDeclarations s) :
    r.canonicalKey = s.canonicalKey := by
  rw [canonicalKey, canonicalKey, sorted, sorted, Declarations.sort_eq_of_perm h.perm]

end Record

end SceneMarkup
