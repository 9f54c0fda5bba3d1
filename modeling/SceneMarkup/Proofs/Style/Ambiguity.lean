/-
  SceneMarkup/Proofs/Style/Ambiguity.lean --- which records a key tells from all others.

  WHAT THIS FILE IS FOR.  A key puts `:` behind a property and `;` behind a value, and
  escapes neither.  The records of a scene can be told from their keys all the same, but
  emission takes any records.  A key may be cut at any of its colons into a property and
  a value, so among all records it tells only those in which there is nothing to cut; and
  elements whose records a key confuses share the class, and the rule, of the first.
-/
import SceneMarkup.Proofs.Compile

set_option autoImplicit false

namespace SceneMarkup

open Style (keyText toList_keyText eq_of_append_cons)

namespace Record

/-! ## One declaration -/

/-- The record of one declaration. -/
def one (property value : String) : Record := ⟨[(property, value)], List.nodup_singleton _⟩

/-- No other declarations than those of `r` give the key of `r`. -/
def Told (r : Record) : Prop := ∀ s : Record, s.canonicalKey = r.canonicalKey → s.SameDeclarations r

theorem toList_canonicalKey (r : Record) :
    r.canonicalKey.toList = r.sorted.flatMap fun d => (keyText d).toList := by
  have hkey : r.canonicalKey = String.join (r.sorted.map keyText) := rfl
  rw [hkey, String.toList_join, List.flatMap_map]

theorem toList_canonicalKey_one (property value : String) :
    (one property value).canonicalKey.toList =
      property.toList ++ ':' :: (value.toList ++ [';']) := by
  rw [toList_canonicalKey]
  exact (List.append_nil _).trans (toList_keyText (property, value))

theorem length_sorted (r : Record) : r.sorted.length = r.declarations.length := by
  rw [sorted, Declarations.sort_eq, List.length_insertionSort]

/-- A record whose key has a colon with more text behind it than the last `;` is confused with the
one declaration on both sides of that colon. -/
theorem Told.eq_of_cut {r : Record} (h : r.Told) {property value : List Char}
    (hcut : r.canonicalKey.toList = property ++ ':' :: (value ++ [';'])) :
    r.declarations = [(String.ofList property, String.ofList value)] := by
  have hkey : (one (String.ofList property) (String.ofList value)).canonicalKey =
      r.canonicalKey := by
    rw [← String.toList_inj, toList_canonicalKey_one, String.toList_ofList, String.toList_ofList,
      hcut]
  exact List.perm_singleton.1 (h _ hkey).perm.symm

/-! ## Keys that tell their records -/

/-- Every declaration puts a colon into the key. -/
theorem length_le_count_colon (ds : List Declaration) :
    ds.length ≤ (ds.flatMap fun d => (keyText d).toList).count ':' := by
  induction ds with
  | nil => exact Nat.zero_le _
  | cons d rest ih =>
      have hone : 1 ≤ (keyText d).toList.count ':' := by
        rw [List.one_le_count_iff, toList_keyText]
        exact List.mem_append_right _ List.mem_cons_self
      rw [List.flatMap_cons, List.count_append, List.length_cons]
      omega

/-- A key ends with the `;` of its last declaration. -/
theorem exists_cut {r : Record} (h : r.declarations ≠ []) :
    ∃ property value, r.canonicalKey.toList = property ++ ':' :: (value ++ [';']) := by
  have hsorted : r.sorted ≠ [] := by
    intro hnil
    apply h
    rw [← List.length_eq_zero_iff, ← length_sorted, hnil]
    rfl
  obtain ⟨d, rest, hd⟩ := List.exists_cons_of_ne_nil hsorted
  have hends : ∀ ds : List Declaration, ∃ value : List Char,
      d.2.toList ++ ';' :: (ds.flatMap fun d => (keyText d).toList) = value ++ [';'] := by
    intro ds
    rcases List.eq_nil_or_concat ds with rfl | ⟨before, last, rfl⟩
    · exact ⟨d.2.toList, rfl⟩
    · refine ⟨d.2.toList ++ ';' :: ((before.flatMap fun d => (keyText d).toList) ++
        (last.1.toList ++ ':' :: last.2.toList)), ?_⟩
      simp [toList_keyText]
  obtain ⟨value, hvalue⟩ := hends rest
  refine ⟨d.1.toList, value, ?_⟩
  rw [toList_canonicalKey, hd, List.flatMap_cons, toList_keyText, List.append_assoc,
    List.cons_append, List.append_assoc, List.singleton_append, hvalue]

theorem told_of_empty {r : Record} (h : r.declarations = []) : r.Told := by
  intro s hkey
  have hr : r.canonicalKey.toList = [] := by
    rw [toList_canonicalKey, sorted, h]
    rfl
  have hcount := length_le_count_colon s.sorted
  rw [← toList_canonicalKey, hkey, hr, List.count_nil, length_sorted] at hcount
  have hs : s.declarations = [] := List.length_eq_zero_iff.1 (Nat.le_zero.1 hcount)
  intro d
  rw [h, hs]

theorem told_of_no_colon {r : Record} {d : Declaration} (h : r.declarations = [d])
    (hproperty : ':' ∉ d.1.toList) (hvalue : ':' ∉ d.2.toList) : r.Told := by
  intro s hkey
  have hr : r.canonicalKey.toList = (keyText d).toList := by
    rw [toList_canonicalKey, sorted, h]
    exact List.append_nil _
  -- the one colon of the key leaves room for one declaration only
  have hone : (keyText d).toList.count ':' = 1 := by
    rw [toList_keyText, List.count_append, List.count_cons_self, List.count_append,
      List.count_eq_zero.2 hproperty, List.count_eq_zero.2 hvalue]
    rfl
  have hcount := length_le_count_colon s.sorted
  rw [← toList_canonicalKey, hkey, hr, hone] at hcount
  have hsorted : s.sorted.length = 1 := by
    refine Nat.le_antisymm hcount (Nat.one_le_iff_ne_zero.2 fun hzero => ?_)
    have hnil := congrArg String.toList hkey
    rw [toList_canonicalKey, List.length_eq_zero_iff.1 hzero, hr, toList_keyText] at hnil
    simp at hnil
  obtain ⟨e, he⟩ := List.length_eq_one_iff.1 hsorted
  have hchars := congrArg String.toList hkey
  rw [toList_canonicalKey, he, List.flatMap_singleton, hr] at hchars
  have hcolon : ':' ∉ e.1.toList := by
    have hcounted := congrArg (List.count ':') hchars
    rw [hone, toList_keyText, List.count_append, List.count_cons_self] at hcounted
    rw [← List.count_eq_zero]
    omega
  rw [toList_keyText, toList_keyText] at hchars
  obtain ⟨hname, hrest⟩ := eq_of_append_cons hcolon hproperty hchars
  obtain rfl : e = d := Prod.ext (String.toList_inj.1 hname)
    (String.toList_inj.1 (List.append_cancel_right hrest))
  intro d'
  rw [h, ← Declarations.mem_sort, ← sorted, he]

/-- Among all records, a key tells the empty record and those of one declaration without a colon
in it. -/
theorem told_iff (r : Record) :
    r.Told ↔ r.declarations = [] ∨
      ∃ d, r.declarations = [d] ∧ ':' ∉ d.1.toList ∧ ':' ∉ d.2.toList := by
  constructor
  · intro h
    by_cases hempty : r.declarations = []
    · exact Or.inl hempty
    obtain ⟨property, value, hcut⟩ := exists_cut hempty
    obtain ⟨d, hd⟩ : ∃ d, r.declarations = [d] := ⟨_, h.eq_of_cut hcut⟩
    have hkey : r.canonicalKey.toList = d.1.toList ++ ':' :: (d.2.toList ++ [';']) := by
      rw [toList_canonicalKey, sorted, hd]
      exact (List.append_nil _).trans (toList_keyText d)
    -- a cut elsewhere would give a property of another length
    have honly : ∀ first second : List Char,
        r.canonicalKey.toList = first ++ ':' :: (second ++ [';']) →
          first.length = d.1.toList.length := by
      intro first second hfirst
      have hsame : d = (String.ofList first, String.ofList second) :=
        List.singleton_inj.1 (hd.symm.trans (h.eq_of_cut hfirst))
      rw [hsame, String.toList_ofList]
    refine Or.inr ⟨d, hd, ?_, ?_⟩
    · intro hmem
      obtain ⟨before, behind, hsplit⟩ := List.append_of_mem hmem
      have hlength := honly before (behind ++ ':' :: d.2.toList) (by
        rw [hkey, hsplit]
        simp)
      rw [hsplit, List.length_append, List.length_cons] at hlength
      omega
    · intro hmem
      obtain ⟨before, behind, hsplit⟩ := List.append_of_mem hmem
      have hlength := honly (d.1.toList ++ ':' :: before) behind (by
        rw [hkey, hsplit]
        simp)
      rw [List.length_append, List.length_cons] at hlength
      omega
  · rintro (hempty | ⟨d, hd, hproperty, hvalue⟩)
    · exact told_of_empty hempty
    · exact told_of_no_colon hd hproperty hvalue

/-- Properties end at the first colon and values at the first `;`. -/
def Delimited (r : Record) : Prop :=
  ∀ d ∈ r.declarations, ':' ∉ d.1.toList ∧ ';' ∉ d.2.toList

/-- Among the records without delimiters in their properties and values, a key tells each. -/
theorem Delimited.canonicalKey_eq_iff {r s : Record} (hr : r.Delimited) (hs : s.Delimited) :
    r.canonicalKey = s.canonicalKey ↔ r.SameDeclarations s := by
  refine Style.canonicalKey_eq_iff_of_first ?_
  intro d hd e he rest others h
  rw [toList_keyText, toList_keyText, List.append_assoc, List.append_assoc, List.cons_append,
    List.cons_append, List.append_assoc, List.append_assoc] at h
  obtain ⟨hname, hbehind⟩ := eq_of_append_cons (hr d hd).1 (hs e he).1 h
  obtain ⟨hvalue, hrest⟩ := eq_of_append_cons (hr d hd).2 (hs e he).2 hbehind
  exact ⟨Prod.ext (String.toList_inj.1 hname) (String.toList_inj.1 hvalue), hrest⟩

theorem canonicalKey_eq_empty_iff (r : Record) : r.canonicalKey = "" ↔ r.isEmpty = true := by
  rw [isEmpty, List.isEmpty_iff]
  constructor
  · intro hkey
    by_contra hne
    obtain ⟨property, value, hcut⟩ := exists_cut hne
    rw [hkey] at hcut
    simp at hcut
  · intro hempty
    have hsame : r.SameDeclarations empty := fun d => by rw [hempty]; rfl
    exact hsame.canonicalKey_eq

end Record

namespace Emission.Classes

/-! ## Classes for any records -/

/-- Requests are answered alike if and only if their records have the same key. -/
theorem Made.classOf_eq_iff_of_knows {classes : Classes} {records : List Record}
    (h : Made classes records) {first second : Record} (hfirst : classes.Knows first)
    (hsecond : classes.Knows second) :
    classes.classOf first = classes.classOf second ↔
      first.canonicalKey = second.canonicalKey := by
  have hnone : ∀ {record : Record}, record.isEmpty = true → classes.classOf record = none :=
    fun hempty => if_pos hempty
  cases hempty : first.isEmpty with
  | true =>
      rw [hnone hempty, (first.canonicalKey_eq_empty_iff).2 hempty]
      cases hempty' : second.isEmpty with
      | true => rw [hnone hempty', (second.canonicalKey_eq_empty_iff).2 hempty']; simp
      | false =>
          obtain ⟨given, hgiven⟩ := hsecond.exists_classOf hempty'
          have hkey : second.canonicalKey ≠ "" := by
            rw [ne_eq, second.canonicalKey_eq_empty_iff, hempty']
            exact Bool.false_ne_true
          rw [hgiven]
          simp [hkey.symm]
  | false =>
      obtain ⟨given, hgiven⟩ := hfirst.exists_classOf hempty
      cases hempty' : second.isEmpty with
      | true =>
          have hkey : first.canonicalKey ≠ "" := by
            rw [ne_eq, first.canonicalKey_eq_empty_iff, hempty]
            exact Bool.false_ne_true
          rw [hgiven, hnone hempty', (second.canonicalKey_eq_empty_iff).2 hempty']
          simp [hkey]
      | false =>
          obtain ⟨given', hgiven'⟩ := hsecond.exists_classOf hempty'
          exact h.classOf_eq_iff hgiven hgiven'

/-- The first of some records that has a key. -/
def firstWith (key : String) (records : List Record) : Option Record :=
  records.find? fun record => record.canonicalKey == key

/-- All of the records are known, and the rule of a class holds the declarations of the first
record that has its key. -/
structure Founded (classes : Classes) (records : List Record) : Prop where
  knows : ∀ record ∈ records, classes.Knows record
  rule_of_lookup : ∀ key given, classes.byKey.lookup key = some given →
    ∃ record, firstWith key records = some record ∧ Rule.ofRecord given record ∈ classes.rules

theorem founded_fresh (start : String) : Founded (fresh start) [] := by
  refine ⟨?_, ?_⟩
  · intro record hrecord
    simp at hrecord
  · intro key given h
    simp [fresh] at h

/-- A key that has no class is not the key of a known record with declarations. -/
theorem Founded.firstWith_eq_none {classes : Classes} {records : List Record}
    (h : Founded classes records) {record : Record} (hempty : record.isEmpty = false)
    (hnew : classes.byKey.lookup record.canonicalKey = none) :
    firstWith record.canonicalKey records = none := by
  refine List.find?_eq_none.2 fun other hother => ?_
  rw [beq_iff_eq]
  intro hkey
  rcases h.knows other hother with hnothing | ⟨given, hgiven⟩
  · rw [(other.canonicalKey_eq_empty_iff).2 hnothing] at hkey
    rw [(record.canonicalKey_eq_empty_iff).1 hkey.symm] at hempty
    cases hempty
  · rw [hkey, hnew] at hgiven
    cases hgiven

theorem Founded.give {classes : Classes} {records : List Record} (h : Founded classes records)
    (request : ClassRequest) : Founded (classes.give request) (records ++ [request.record]) := by
  have hknows : ∀ record ∈ records ++ [request.record], (classes.give request).Knows record := by
    rw [List.forall_mem_append, List.forall_mem_singleton]
    exact ⟨fun record hrecord => (h.knows record hrecord).mono (keeps_give classes request),
      knows_give classes request⟩
  -- what came first among the records still does
  have hkept : ∀ key record, firstWith key records = some record →
      firstWith key (records ++ [request.record]) = some record := by
    intro key record hfirst
    rw [firstWith, List.find?_append, ← firstWith, hfirst]
    rfl
  refine ⟨hknows, ?_⟩
  rcases give_cases classes request with ⟨hsame, -⟩ | ⟨hempty, hnew, hgive⟩
  · rw [hsame]
    intro key given hlookup
    obtain ⟨record, hfirst, hrule⟩ := h.rule_of_lookup key given hlookup
    exact ⟨record, hkept key record hfirst, hrule⟩
  · rw [hgive]
    intro key given hlookup
    by_cases hkey : key = request.record.canonicalKey
    · subst hkey
      have hgiven : (classes.namer.mint request.name request.fallback).1 = given := by
        rw [List.lookup_cons_self] at hlookup
        exact Option.some.inj hlookup
      refine ⟨request.record, ?_, ?_⟩
      · rw [firstWith, List.find?_append, ← firstWith, h.firstWith_eq_none hempty hnew,
          Option.none_or, List.find?_cons_of_pos (by simp)]
      · rw [hgiven]
        exact List.mem_append_right _ (List.mem_singleton_self _)
    · rw [List.lookup_cons, beq_false_of_ne hkey] at hlookup
      obtain ⟨record, hfirst, hrule⟩ := h.rule_of_lookup key given hlookup
      exact ⟨record, hkept key record hfirst, List.mem_append_left _ hrule⟩

theorem Founded.serve {classes : Classes} {records : List Record} (h : Founded classes records)
    (requests : List ClassRequest) :
    Founded (classes.serve requests) (records ++ requests.map (·.record)) := by
  induction requests generalizing classes records with
  | nil => rwa [serve_nil, List.map_nil, List.append_nil]
  | cons request rest ih =>
      have hrest := ih (h.give request)
      rwa [List.append_assoc, List.singleton_append] at hrest

end Emission.Classes

/-! ## Emission of any records -/

/-- The records that ask for classes when a forest is emitted under some styles, in order. -/
def recordsIn (options : EmitOptions) (resolved : List Resolved) (roots : List Node) :
    List Record :=
  (Sketch.requestsIn (Sketch.ofForest options resolved roots)).map (·.record)

/-- Keys do not depend on the order of declarations, and they tell records apart whose properties
have no `:` and whose values have no `;` in them. Among all records, a key tells the empty record
and those of one declaration without a colon, and no others. Emission gives elements one class if
and only if the keys of their records are the same, whatever the records are, and the one rule of a
class holds the declarations of the first record with its key; so that the elements of a class have
the rule's declarations exactly where the key tells its records apart. -/
theorem canonicalKey_tells_iff (first second : Record) (options : EmitOptions)
    (roots : List Node) (resolved : List Resolved) :
    (first.SameDeclarations second → first.canonicalKey = second.canonicalKey) ∧
    (first.Delimited → second.Delimited →
      (first.canonicalKey = second.canonicalKey ↔ first.SameDeclarations second)) ∧
    ((∀ s : Record, s.canonicalKey = first.canonicalKey → s.SameDeclarations first) ↔
      first.declarations = [] ∨
        ∃ d, first.declarations = [d] ∧ ':' ∉ d.1.toList ∧ ':' ∉ d.2.toList) ∧
    (resolved.map (·.nodeId) = (Walker.start roots).rest.map (·.id) →
      ∃ emission, emit options (Walker.start roots).rest resolved = .ok emission ∧
        ∃ classOf : Record → Option String,
          emission.markup = Sketch.markupIn classOf (Sketch.ofForest options resolved roots) ∧
          ∀ r ∈ recordsIn options resolved roots,
            (classOf r = none ↔ r.declarations = []) ∧
            (∀ s ∈ recordsIn options resolved roots,
              classOf r = classOf s ↔ r.canonicalKey = s.canonicalKey) ∧
            ∀ given, classOf r = some given →
              ∃ origin, Emission.Classes.firstWith r.canonicalKey
                  (recordsIn options resolved roots) = some origin ∧
                Rule.ofRecord given origin ∈ emission.stylesheet ∧
                ∀ rule ∈ emission.stylesheet, rule.className = given →
                  rule = .ofRecord given origin) := by
  refine ⟨Record.SameDeclarations.canonicalKey_eq, Record.Delimited.canonicalKey_eq_iff,
    Record.told_iff first, ?_⟩
  intro h
  rw [Walker.rest_start] at h ⊢
  have hmade := made_classesOf options (Sketch.ofForest options resolved roots)
  have hfounded : Emission.Classes.Founded
      (Emission.classesOf options (Sketch.ofForest options resolved roots))
      (recordsIn options resolved roots) :=
    (Emission.Classes.founded_fresh options.classStart).serve _
  refine ⟨_, Emission.emit_of_ids_eq options h, _, rfl, ?_⟩
  intro r hr
  have hknows := hfounded.knows r hr
  refine ⟨?_, fun s hs => hmade.classOf_eq_iff_of_knows hknows (hfounded.knows s hs), ?_⟩
  · constructor
    · intro hnone
      cases hempty : r.isEmpty with
      | true => exact List.isEmpty_iff.1 hempty
      | false =>
          obtain ⟨given, hgiven⟩ := hknows.exists_classOf hempty
          rw [hnone] at hgiven
          cases hgiven
    · intro hempty
      exact if_pos (List.isEmpty_iff.2 hempty)
  · intro given hgiven
    obtain ⟨origin, hfirst, hrule⟩ :=
      hfounded.rule_of_lookup _ _ (Emission.Classes.lookup_of_classOf hgiven)
    refine ⟨origin, hfirst, hrule, ?_⟩
    intro rule hmem hname
    exact List.inj_on_of_nodup_map hmade.nodup_names hmem hrule hname

/-- Two nodes declare the same in different orders and share a class, whose rule is in the order of
the first; a third one declares something else and has another class. -/
theorem canonicalKey_tells_iff_reordered :
    let first : Record := .ofList [("width", "1px"), ("color", "red")]
    let second : Record := .ofList [("color", "red"), ("width", "1px")]
    let third : Record := .ofList [("color", "blue")]
    let placeholder (id : String) : Node := ⟨Layer.ofKind id (.placeholder "X"), []⟩
    let roots : List Node := [placeholder "a", placeholder "b", placeholder "c"]
    let resolved : List Resolved := [⟨"a", first, []⟩, ⟨"b", second, []⟩, ⟨"c", third, []⟩]
    resolved.map (·.nodeId) = (Walker.start roots).rest.map (·.id) ∧ third.Told ∧
      ∃ emission, emit ⟨"", true, false⟩ (Walker.start roots).rest resolved = .ok emission ∧
        ∃ given other, given ≠ other ∧
          emission.markup = [.element ⟨"div", some given, [("data-placeholder", "X")]⟩ [],
            .element ⟨"div", some given, [("data-placeholder", "X")]⟩ [],
            .element ⟨"div", some other, [("data-placeholder", "X")]⟩ []] ∧
          Rule.ofRecord given first ∈ emission.stylesheet := by
  intro first second third placeholder roots resolved
  have hids : resolved.map (·.nodeId) = (Walker.start roots).rest.map (·.id) := rfl
  obtain ⟨hsame, -, -, hemits⟩ :=
    canonicalKey_tells_iff first second ⟨"", true, false⟩ roots resolved
  obtain ⟨-, -, htold, -⟩ := canonicalKey_tells_iff third third ⟨"", true, false⟩ roots resolved
  obtain ⟨emission, hemits, classOf, hmarkup, hclasses⟩ := hemits hids
  have hrecords : recordsIn ⟨"", true, false⟩ resolved roots = [first, second, third] := rfl
  rw [hrecords] at hclasses
  have hkey : first.canonicalKey = second.canonicalKey :=
    hsame fun d => by
      show d ∈ [("width", "1px"), ("color", "red")] ↔ d ∈ [("color", "red"), ("width", "1px")]
      simp [or_comm]
  have hthird : third.Told := htold.2 (Or.inr ⟨_, rfl, by decide, by decide⟩)
  have hother : first.canonicalKey ≠ third.canonicalKey := by
    intro heq
    have hmem := (hthird first heq ("width", "1px")).1 List.mem_cons_self
    exact absurd hmem (by decide)
  obtain ⟨hnone, hiff, hrule⟩ := hclasses first (by simp)
  obtain ⟨given, hgiven⟩ : ∃ given, classOf first = some given :=
    Option.ne_none_iff_exists'.1 fun h => List.cons_ne_nil _ _ (hnone.1 h)
  obtain ⟨other, hthirdClass⟩ : ∃ other, classOf third = some other :=
    Option.ne_none_iff_exists'.1 fun h =>
      List.cons_ne_nil _ _ ((hclasses third (by simp)).1.1 h)
  have hsecond : classOf second = some given := ((hiff second (by simp)).2 hkey).symm.trans hgiven
  refine ⟨hids, hthird, emission, hemits, given, other, ?_, ?_, ?_⟩
  · rintro rfl
    exact hother ((hiff third (by simp)).1 (hgiven.trans hthirdClass.symm))
  · rw [hmarkup]
    show [Markup.element ⟨"div", classOf first, [("data-placeholder", "X")]⟩ [],
      .element ⟨"div", classOf second, [("data-placeholder", "X")]⟩ [],
      .element ⟨"div", classOf third, [("data-placeholder", "X")]⟩ []] = _
    rw [hgiven, hsecond, hthirdClass]
  · obtain ⟨origin, hfirst, horigin, -⟩ := hrule given hgiven
    rw [Emission.Classes.firstWith, List.find?_cons_of_pos (by simp), Option.some.injEq] at hfirst
    rw [hfirst]
    exact horigin

/-- A value with delimiters in it is confused with two declarations: both elements have the class
of the first, whose rule declares no width. -/
theorem same_class_of_delimiters :
    let first : Record := .ofList [("color", "red;width:1px")]
    let second : Record := .ofList [("color", "red"), ("width", "1px")]
    let placeholder (id : String) : Node := ⟨Layer.ofKind id (.placeholder "X"), []⟩
    first.canonicalKey = second.canonicalKey ∧ ¬ first.SameDeclarations second ∧
      ∃ emission, emit ⟨"", true, false⟩ (Walker.start [placeholder "a", placeholder "b"]).rest
          [⟨"a", first, []⟩, ⟨"b", second, []⟩] = .ok emission ∧
        emission.markup.map (·.tag?) =
          [some ⟨"div", some "placeholder", [("data-placeholder", "X")]⟩,
            some ⟨"div", some "placeholder", [("data-placeholder", "X")]⟩] ∧
        emission.stylesheet = [⟨"placeholder", [("color", "red;width:1px")]⟩] := by
  intro first second placeholder
  refine ⟨by decide +kernel, ?_, _, rfl, by decide +kernel, by decide +kernel⟩
  intro hsame
  have hmem : ("width", "1px") ∈ first.declarations :=
    (hsame ("width", "1px")).2 (List.mem_cons_of_mem _ List.mem_cons_self)
  exact absurd hmem (by decide)

end SceneMarkup
