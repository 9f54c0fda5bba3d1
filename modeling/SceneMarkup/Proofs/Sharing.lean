/-
  SceneMarkup/Proofs/Sharing.lean --- which records share a class, and what its rule says.

  WHAT THIS FILE IS FOR.  Classes are found by the keys of records.  `Made` holds of all
  classes that are given from the beginning: their names are all different, and each has
  one rule, with the declarations of some record that has the key.  Whether that record
  is any record with the key depends on what a key tells about a record.  `Named` holds
  of them if the names that are suggested can stand in a stylesheet.
-/
import SceneMarkup.Proofs.ClassName
import SceneMarkup.Proofs.Classes

set_option autoImplicit false

namespace SceneMarkup.Emission.Classes

/-- The classes made for some records: every name is in use once, rules and names are in step, and
every rule holds the declarations of a record that its key was taken from. -/
structure Made (classes : Classes) (records : List Record) : Prop where
  used_eq : classes.namer.used = classes.byKey.map (·.2)
  names_eq : classes.rules.map (·.className) = (classes.byKey.map (·.2)).reverse
  nodup : (classes.byKey.map (·.2)).Nodup
  rule_of_mem : ∀ key given, (key, given) ∈ classes.byKey →
    ∃ record ∈ records, record.canonicalKey = key ∧ Rule.ofRecord given record ∈ classes.rules

theorem made_fresh (start : String) : Made (fresh start) [] := by
  refine ⟨rfl, rfl, List.nodup_nil, ?_⟩
  intro key given h
  simp [fresh] at h

theorem Made.give {classes : Classes} {records : List Record} (h : Made classes records)
    (request : ClassRequest) : Made (classes.give request) (records ++ [request.record]) := by
  rcases give_cases classes request with ⟨hsame, _⟩ | ⟨_, _, hgive⟩
  · rw [hsame]
    refine ⟨h.used_eq, h.names_eq, h.nodup, ?_⟩
    intro key given hmem
    obtain ⟨record, hrecord, hkey, hrule⟩ := h.rule_of_mem key given hmem
    exact ⟨record, List.mem_append_left _ hrecord, hkey, hrule⟩
  · have hfresh := ClassName.mint_not_mem classes.namer request.name request.fallback
    rw [h.used_eq] at hfresh
    rw [hgive]
    refine ⟨?_, ?_, List.nodup_cons.2 ⟨hfresh, h.nodup⟩, ?_⟩
    · rw [List.map_cons, ← h.used_eq]
      rfl
    · dsimp only
      rw [List.map_append, h.names_eq, List.map_cons, List.map_cons, List.reverse_cons]
      rfl
    · intro key given hmem
      rcases List.mem_cons.1 hmem with hnew | hmem
      · obtain ⟨rfl, rfl⟩ := Prod.mk.inj hnew
        exact ⟨request.record, by simp, rfl, by simp⟩
      · obtain ⟨record, hrecord, hkey, hrule⟩ := h.rule_of_mem key given hmem
        exact ⟨record, List.mem_append_left _ hrecord, hkey, List.mem_append_left _ hrule⟩

theorem Made.serve {classes : Classes} {records : List Record} (h : Made classes records)
    (requests : List ClassRequest) :
    Made (classes.serve requests) (records ++ requests.map (·.record)) := by
  induction requests generalizing classes records with
  | nil => rwa [serve_nil, List.map_nil, List.append_nil]
  | cons request rest ih =>
      have hrest := ih (h.give request)
      rwa [List.append_assoc, List.singleton_append] at hrest

theorem Made.nodup_names {classes : Classes} {records : List Record} (h : Made classes records) :
    (classes.rules.map (·.className)).Nodup := by
  rw [h.names_eq]
  exact List.nodup_reverse.2 h.nodup

/-- Every rule holds the declarations of one of the records. -/
theorem Made.origin_of_rule {classes : Classes} {records : List Record} (h : Made classes records)
    {rule : Rule} (hrule : rule ∈ classes.rules) :
    ∃ record ∈ records, rule = .ofRecord rule.className record := by
  have hname : rule.className ∈ classes.rules.map (·.className) := List.mem_map_of_mem hrule
  rw [h.names_eq, List.mem_reverse] at hname
  obtain ⟨⟨key, given⟩, hmem, hgiven⟩ := List.mem_map.1 hname
  obtain ⟨record, hrecord, _, hmade⟩ := h.rule_of_mem key given hmem
  refine ⟨record, hrecord, ?_⟩
  rw [← hgiven]
  exact List.inj_on_of_nodup_map h.nodup_names hrule hmade hgiven.symm

theorem mem_of_lookup {key given : String} {byKey : List (String × String)}
    (h : byKey.lookup key = some given) : (key, given) ∈ byKey := by
  induction byKey with
  | nil => simp at h
  | cons entry rest ih =>
      rw [List.lookup_cons] at h
      split at h
      · rename_i heq
        rw [beq_iff_eq] at heq
        cases h
        rw [heq]
        exact List.mem_cons_self
      · exact List.mem_cons_of_mem _ (ih h)

/-- A known record that is not empty has its class by its key. -/
theorem lookup_of_classOf {classes : Classes} {record : Record} {given : String}
    (h : classes.classOf record = some given) :
    classes.byKey.lookup record.canonicalKey = some given := by
  unfold classOf at h
  split at h
  · simp at h
  · exact h

/-- Records that have classes share one if and only if they have the same key. -/
theorem Made.classOf_eq_iff {classes : Classes} {records : List Record} (h : Made classes records)
    {first second : Record} {given given' : String} (hfirst : classes.classOf first = some given)
    (hsecond : classes.classOf second = some given') :
    classes.classOf first = classes.classOf second ↔
      first.canonicalKey = second.canonicalKey := by
  have hmem := mem_of_lookup (lookup_of_classOf hfirst)
  have hmem' := mem_of_lookup (lookup_of_classOf hsecond)
  constructor
  · intro heq
    rw [hfirst, hsecond, Option.some.injEq] at heq
    exact congrArg Prod.fst (List.inj_on_of_nodup_map h.nodup hmem hmem' heq)
  · intro hkey
    have hlookup := lookup_of_classOf hfirst
    rw [hkey, lookup_of_classOf hsecond, Option.some.injEq] at hlookup
    rw [hfirst, hsecond, hlookup]

/-- The one rule of a class holds the declarations of a record with the same key. -/
theorem Made.rule_of_classOf {classes : Classes} {records : List Record}
    (h : Made classes records) {record : Record} {given : String}
    (hclass : classes.classOf record = some given) :
    ∃ origin ∈ records, origin.canonicalKey = record.canonicalKey ∧
      Rule.ofRecord given origin ∈ classes.rules ∧
      ∀ rule ∈ classes.rules, rule.className = given → rule = .ofRecord given origin := by
  obtain ⟨origin, horigin, hkey, hrule⟩ :=
    h.rule_of_mem _ _ (mem_of_lookup (lookup_of_classOf hclass))
  refine ⟨origin, horigin, hkey, hrule, ?_⟩
  intro rule hmem hname
  exact List.inj_on_of_nodup_map h.nodup_names hmem hrule hname

/-! ## Names -/

open Style (IsName isNameChar)

/-- Names begin with characters of names, and the name of every rule can stand in a stylesheet. -/
structure Named (classes : Classes) : Prop where
  start : ∀ c ∈ classes.namer.start.toList, isNameChar c = true
  isName : ∀ rule ∈ classes.rules, IsName rule.className

theorem named_fresh {start : String} (h : ∀ c ∈ start.toList, isNameChar c = true) :
    Named (fresh start) := by
  refine ⟨h, ?_⟩
  intro rule hrule
  simp [fresh] at hrule

theorem Named.give {classes : Classes} (h : Named classes) {request : ClassRequest}
    (hrequest : IsName (ClassName.suggest request.name request.fallback)) :
    Named (classes.give request) := by
  rcases give_cases classes request with ⟨hsame, _⟩ | ⟨_, _, hgive⟩
  · rw [hsame]
    exact h
  · rw [hgive]
    refine ⟨h.start, ?_⟩
    rw [List.forall_mem_append, List.forall_mem_singleton]
    exact ⟨h.isName, ClassName.isName_mint h.start hrequest⟩

theorem Named.serve {classes : Classes} (h : Named classes) {requests : List ClassRequest}
    (hrequests : ∀ q ∈ requests, IsName (ClassName.suggest q.name q.fallback)) :
    Named (classes.serve requests) := by
  induction requests generalizing classes with
  | nil => rwa [serve_nil]
  | cons request rest ih =>
      rw [List.forall_mem_cons] at hrequests
      rw [serve_cons]
      exact ih (h.give hrequests.1) hrequests.2

end SceneMarkup.Emission.Classes
