/-
  SceneMarkup/Proofs/Style/Merge.lean --- a record merged into another, and how little of
  it that takes.

  WHAT THIS FILE IS FOR.  Merging replaces values in their places and puts new properties
  last.  A difference keeps the declarations that merging would change something by.  So
  the difference to a base does for the base what the whole record does, and nothing that
  lacks one of its declarations does the same.
-/
import SceneMarkup.Proofs.Style.Cascade

set_option autoImplicit false

namespace SceneMarkup.Record

/-! ## Merging -/

theorem has_set_of_ne {r : Record} {property value p : String} (h : p ≠ property) :
    (r.set property value).has p = r.has p := by
  rw [has, has, get?_set_of_ne h]

/-- Properties that are set keep their places, and those that are new come last, in the order in
which they are set. -/
theorem properties_setAll {ds : List Declaration} (h : (ds.map (·.1)).Nodup) (r : Record) :
    (r.setAll ds).properties = r.properties ++ (ds.map (·.1)).filter fun p => !r.has p := by
  induction ds generalizing r with
  | nil => exact (List.append_nil _).symm
  | cons d rest ih =>
      rw [List.map_cons, List.nodup_cons] at h
      have hothers : (rest.map (·.1)).filter (fun p => !(r.set d.1 d.2).has p) =
          (rest.map (·.1)).filter fun p => !r.has p := by
        refine List.filter_congr fun p hp => ?_
        have hne : p ≠ d.1 := by
          rintro rfl
          exact h.1 hp
        rw [has_set_of_ne hne]
      have hstep := ih h.2 (r.set d.1 d.2)
      rw [hothers] at hstep
      refine Eq.trans hstep ?_
      rw [List.map_cons]
      by_cases hmem : d.1 ∈ r.properties
      · have hhas : r.has d.1 = true := has_iff.2 hmem
        rw [properties_set_of_mem hmem, List.filter_cons_of_neg (by simp [hhas])]
      · have hhas : r.has d.1 = false :=
          Bool.eq_false_iff.2 fun hhas => hmem (has_iff.1 hhas)
        rw [properties_set_of_not_mem hmem, List.filter_cons_of_pos (by simp [hhas]),
          List.append_assoc, List.singleton_append]

theorem properties_merge (r other : Record) :
    (r.merge other).properties = r.properties ++ other.properties.filter fun p => !r.has p :=
  properties_setAll other.nodup r

/-- A merged record has the new value of a property, or the old one where there is no new one. -/
theorem get?_merge (r other : Record) (property : String) :
    (r.merge other).get? property = (other.get? property).or (r.get? property) := by
  have hsets : r.Sets other.declarations (r.merge other) := r.sets_setAll other.nodup
  cases hvalue : other.get? property with
  | some value => exact hsets.value (property, value) (get?_eq_some_iff.1 hvalue)
  | none =>
      refine hsets.others property fun hmem => ?_
      have hhas : other.has property = true := has_iff.2 hmem
      rw [has, hvalue] at hhas
      cases hhas

/-! ## Merging a difference -/

/-- A record holds some of the declarations of another, in their order. -/
def IsPartOf (r s : Record) : Prop := r.declarations.Sublist s.declarations

theorem difference_isPartOf (r base : Record) : (r.difference base).IsPartOf r :=
  List.filter_sublist

/-- A part is what a record has of the part's declarations. -/
theorem IsPartOf.filter_eq {r whole : Record} (h : r.IsPartOf whole) :
    whole.declarations.filter (· ∈ r.declarations) = r.declarations := by
  have hself : r.declarations.filter (· ∈ r.declarations) = r.declarations :=
    List.filter_eq_self.2 fun d hd => decide_eq_true hd
  have hsublist : r.declarations.Sublist (whole.declarations.filter (· ∈ r.declarations)) := by
    have hfilter := List.Sublist.filter (· ∈ r.declarations) h
    rwa [hself] at hfilter
  have hsubset : whole.declarations.filter (· ∈ r.declarations) ⊆ r.declarations :=
    fun d hd => of_decide_eq_true (List.mem_filter.1 hd).2
  have hnodup : (whole.declarations.filter (· ∈ r.declarations)).Nodup :=
    whole.nodup_declarations.filter _
  exact (hsublist.eq_of_length_le (List.subperm_of_subset hnodup hsubset).length_le).symm

/-- Parts of one record have one order, so one is part of another if its declarations are among
those of the other. -/
theorem IsPartOf.of_subset {r s whole : Record} (hr : r.IsPartOf whole) (hs : s.IsPartOf whole)
    (h : r.declarations ⊆ s.declarations) : r.IsPartOf s := by
  have hself : r.declarations.filter (· ∈ s.declarations) = r.declarations :=
    List.filter_eq_self.2 fun d hd => decide_eq_true (h hd)
  have hfilter := List.Sublist.filter (· ∈ s.declarations) hr
  rwa [hself, hs.filter_eq] at hfilter

/-- Of the properties of a difference, those that the base does not declare are all that the record
has and the base does not. -/
theorem filter_properties_difference (r base : Record) :
    ((r.difference base).properties.filter fun p => !base.has p) =
      r.properties.filter fun p => !base.has p := by
  rw [properties, properties, List.filter_map, List.filter_map, difference, filter,
    List.filter_filter]
  congr 1
  refine List.filter_congr fun d _ => ?_
  cases hvalue : base.get? d.1 with
  | none => simp [has, hvalue]
  | some value => simp [has, hvalue]

theorem get?_merge_difference (r base : Record) (property : String) :
    (base.merge (r.difference base)).get? property =
      if r.has property then r.get? property else base.get? property := by
  rw [get?_merge, get?_difference, has]
  cases hr : r.get? property with
  | none => simp
  | some value =>
      by_cases hsame : some value = base.get? property
      · simp [← hsame]
      · simp [hsame]

/-- Whatever gives a base the values of a record declares all by which the record differs. -/
theorem difference_subset {r base other : Record}
    (h : ∀ property, (base.merge other).get? property =
      (base.merge (r.difference base)).get? property) :
    (r.difference base).declarations ⊆ other.declarations := by
  rintro ⟨property, value⟩ hmem
  obtain ⟨hr, hbase⟩ := mem_difference.1 hmem
  have hvalue := h property
  rw [get?_merge, get?_merge, get?_eq_some_iff.2 hmem, Option.some_or] at hvalue
  rcases Option.or_eq_some_iff.1 hvalue with hother | ⟨-, hkept⟩
  · exact get?_eq_some_iff.1 hother
  · exact absurd (get?_eq_some_iff.1 hkept) hbase

theorem isEmpty_difference_iff (r base : Record) :
    (r.difference base).isEmpty = true ↔ r.declarations ⊆ base.declarations := by
  rw [isEmpty, List.isEmpty_iff, List.eq_nil_iff_forall_not_mem]
  refine forall_congr' fun d => ?_
  rw [mem_difference, not_and, not_not]

/-- A difference that is merged into its base gives each property the value of the record, where it
has one, and else that of the base. The properties of the base come first and then those that only
the record has, each in their order. The difference is a part of the record, and the least one that
does this: whatever gives the same values declares all of it. It is empty if and only if the base
declares all that the record does. -/
theorem difference_least (r base : Record) :
    (∀ property, (base.merge (r.difference base)).get? property =
        if r.has property then r.get? property else base.get? property) ∧
      (base.merge (r.difference base)).properties =
        base.properties ++ r.properties.filter (fun p => !base.has p) ∧
      (base.merge (r.difference base)).properties.Nodup ∧
      (r.difference base).IsPartOf r ∧
      (∀ other : Record,
        (∀ property, (base.merge other).get? property =
          (base.merge (r.difference base)).get? property) →
        (r.difference base).declarations ⊆ other.declarations ∧
          (other.IsPartOf r → (r.difference base).IsPartOf other)) ∧
      ((r.difference base).isEmpty = true ↔ r.declarations ⊆ base.declarations) := by
  refine ⟨get?_merge_difference r base, ?_, Record.nodup _, difference_isPartOf r base, ?_,
    isEmpty_difference_iff r base⟩
  · rw [properties_merge, filter_properties_difference]
  · intro other h
    have hsubset := difference_subset h
    exact ⟨hsubset, fun hpart => (difference_isPartOf r base).of_subset hpart hsubset⟩

/-- A bold run of faded text: its color is that of the base, and what is left of it without the
color is what it takes to make the base look like it. -/
theorem difference_least_of_bold_run :
    let base : Record := .ofList [("font-weight", "400"), ("color", "#000000")]
    let run : Record :=
      .ofList [("color", "#000000"), ("opacity", "0.5"), ("font-weight", "700")]
    (run.difference base).declarations = [("opacity", "0.5"), ("font-weight", "700")] ∧
      (base.merge (run.difference base)).properties = ["font-weight", "color", "opacity"] ∧
      (base.merge (run.difference base)).get? "font-weight" = some "700" ∧
      (base.merge run).get? = (base.merge (run.difference base)).get? ∧
      (run.difference base).IsPartOf run := by
  intro base run
  obtain ⟨hvalue, hproperties, -, -, hleast, -⟩ := difference_least run base
  have hsame : base.merge run = base.merge (run.difference base) := by decide
  refine ⟨by decide, hproperties, hvalue "font-weight", by rw [hsame], ?_⟩
  exact (hleast run fun property => by rw [hsame]).2 (List.Sublist.refl _)

end SceneMarkup.Record
