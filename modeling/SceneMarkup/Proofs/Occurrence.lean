/-
  SceneMarkup/Proofs/Occurrence.lean --- markup and stylesheet speak of the same classes.

  WHAT THIS FILE IS FOR.  A rule is made when its class is first asked for, and classes are
  asked for in the order of the markup.  So the rules stand in the order in which their
  classes first occur in the markup, and no rule is without an element.
-/
import SceneMarkup.Proofs.Compile
import SceneMarkup.Proofs.Markup.Merged

set_option autoImplicit false

namespace SceneMarkup

/-! ## First occurrences -/

theorem eraseDups_of_nodup {names : List String} (h : names.Nodup) : names.eraseDups = names := by
  induction names with
  | nil => rfl
  | cons name rest ih =>
      obtain ⟨hname, hrest⟩ := List.nodup_cons.1 h
      have hothers : rest.filter (fun other => !other == name) = rest := by
        refine List.filter_eq_self.2 fun other hother => ?_
        have hne : other ≠ name := fun heq => hname (heq ▸ hother)
        simp [hne]
      rw [List.eraseDups_cons, hothers, ih hrest]

/-- A name that stands further left as well is not a first occurrence. -/
theorem eraseDups_append_cons_of_mem {names : List String} {name : String} (h : name ∈ names)
    (others : List String) : (names ++ name :: others).eraseDups = (names ++ others).eraseDups := by
  rw [List.eraseDups_append, List.eraseDups_append, List.removeAll, List.removeAll,
    List.filter_cons_of_neg (by simp [h])]

namespace Emission.Classes

/-- The names of the classes, in the order in which they were made. -/
def names (classes : Classes) : List String := classes.rules.map (·.className)

theorem Made.mem_names {classes : Classes} {records : List Record} (h : Made classes records)
    {record : Record} {given : String} (hclass : classes.classOf record = some given) :
    given ∈ classes.names := by
  obtain ⟨origin, -, -, hrule, -⟩ := h.rule_of_classOf hclass
  exact List.mem_map_of_mem hrule

/-- A request makes no name, or the one that it is answered with, and then the name is new. -/
theorem Made.names_give {classes : Classes} {records : List Record} (h : Made classes records)
    (request : ClassRequest) (later : List String) :
    ((classes.give request).names ++ later).eraseDups =
      (classes.names ++
        (((classes.give request).classOf request.record).toList ++ later)).eraseDups := by
  rcases give_cases classes request with ⟨hsame, -⟩ | ⟨hempty, -, hgive⟩
  · rw [hsame]
    cases hclass : classes.classOf request.record with
    | none => rfl
    | some given => exact (eraseDups_append_cons_of_mem (h.mem_names hclass) later).symm
  · have hclass : (classes.give request).classOf request.record =
        some (classes.namer.mint request.name request.fallback).1 := by
      rw [hgive, classOf, hempty, List.lookup_cons_self]
      rfl
    have hnames : (classes.give request).names =
        classes.names ++ [(classes.namer.mint request.name request.fallback).1] := by
      rw [hgive, names, List.map_append]
      rfl
    rw [hclass, hnames, List.append_assoc]
    rfl

/-- After some requests the names are those there were and those of the answers, in the order of
their first occurrences. -/
theorem Made.names_serve {classes : Classes} {records : List Record} (h : Made classes records)
    (requests : List ClassRequest) :
    (classes.serve requests).names =
      (classes.names ++
        requests.filterMap fun q => (classes.serve requests).classOf q.record).eraseDups := by
  induction requests generalizing classes records with
  | nil =>
      rw [serve_nil, List.filterMap_nil, List.append_nil]
      exact (eraseDups_of_nodup h.nodup_names).symm
  | cons request rest ih =>
      have hanswer : ((classes.give request).serve rest).classOf request.record =
          (classes.give request).classOf request.record :=
        (knows_give classes request).classOf_eq (keeps_serve _ rest)
      rw [serve_cons, ih (h.give request), h.names_give]
      refine congrArg (fun later => (classes.names ++ later).eraseDups) ?_
      rw [List.filterMap_cons, hanswer]
      cases (classes.give request).classOf request.record with
      | none => rfl
      | some given => rfl

end Emission.Classes

/-! ## Tags -/

namespace Sketch

mutual

theorem map_className_tags_markup (classOf : Record → Option String) : ∀ sketch : Sketch,
    (sketch.markup classOf).tags.map (·.className) =
      sketch.requests.map fun q => classOf q.record
  | .text _ => rfl
  | .element name request attributes children => by
      rw [markup, requests, Markup.tags, List.map_cons, List.map_cons,
        map_className_tagsIn_markupIn classOf children]

/-- The classes of the elements are the answers to the requests, one for each and in order. -/
theorem map_className_tagsIn_markupIn (classOf : Record → Option String) :
    ∀ sketches : List Sketch,
      (Markup.tagsIn (markupIn classOf sketches)).map (·.className) =
        (requestsIn sketches).map fun q => classOf q.record
  | [] => rfl
  | sketch :: rest => by
      rw [markupIn, requestsIn, Markup.tagsIn, List.map_append, List.map_append,
        map_className_tags_markup classOf sketch, map_className_tagsIn_markupIn classOf rest]

end

end Sketch

/-! ## Output -/

/-- The classes that occur in some markup, as often as they do and in order. -/
def Markup.classesIn (roots : List Markup) : List String :=
  (Markup.tagsIn roots).filterMap (·.className)

theorem classesIn_markupIn (classOf : Record → Option String) (sketches : List Sketch) :
    Markup.classesIn (Sketch.markupIn classOf sketches) =
      (Sketch.requestsIn sketches).filterMap fun q => classOf q.record := by
  have hmap := congrArg (List.filterMap id) (Sketch.map_className_tagsIn_markupIn classOf sketches)
  rwa [List.filterMap_map, List.filterMap_map] at hmap

/-- The names of the rules are the classes that occur in the markup, in the order in which they
first occur there. -/
theorem names_classesOf (options : EmitOptions) (sketches : List Sketch) :
    (Emission.classesOf options sketches).names =
      (Markup.classesIn
        (Sketch.markupIn (Emission.classesOf options sketches).classOf sketches)).eraseDups := by
  rw [classesIn_markupIn]
  exact (Emission.Classes.made_fresh options.classStart).names_serve (Sketch.requestsIn sketches)

/-- Every element that is made for a forest gets a class. -/
theorem isSome_className_of_mem_tagsIn {options : EmitOptions} {roots : List Node} {tag : Tag}
    (h : tag ∈ Markup.tagsIn (Sketch.markupIn
      (Emission.classesOf options (sketchesOf options roots)).classOf
      (sketchesOf options roots))) : tag.className.isSome = true := by
  have hmem := List.mem_map_of_mem (f := (·.className)) h
  rw [Sketch.map_className_tagsIn_markupIn] at hmem
  obtain ⟨q, hq, hclass⟩ := List.mem_map.1 hmem
  obtain ⟨given, hgiven⟩ := exists_class_of_mem_requests hq
  rw [← hclass, hgiven]
  rfl

/-- Every rule of a forest has declarations: its record is that of a node or of a run. -/
theorem declarations_ne_nil_of_mem_rules {options : EmitOptions} {roots : List Node} {rule : Rule}
    (h : rule ∈ (Emission.classesOf options (sketchesOf options roots)).rules) :
    rule.declarations ≠ [] := by
  obtain ⟨record, hrecord, hrule⟩ := (made_classesOf options _).origin_of_rule h
  obtain ⟨q, hq, rfl⟩ := List.mem_map.1 hrecord
  intro hnone
  rw [hrule] at hnone
  have hempty : q.record.isEmpty = true := List.isEmpty_iff.2 hnone
  rw [(produced_of_mem_requests hq).2] at hempty
  cases hempty

/-- Every element of a compiled scene has a class. The rules have different names, these are the
classes that occur in the markup, and they come in the order of their first occurrences. No rule is
without declarations. -/
theorem markup_stylesheet_agree (tree : SceneTree) (options : Options) (out : Output)
    (h : compileTree tree options = .ok out) :
    (∀ tag ∈ Markup.tagsIn out.markup, tag.className.isSome = true) ∧
      (out.stylesheet.map (·.className)).Nodup ∧
      (∀ name, name ∈ Markup.classesIn out.markup ↔ name ∈ out.stylesheet.map (·.className)) ∧
      (∀ rule ∈ out.stylesheet, rule.declarations ≠ []) ∧
      out.stylesheet.map (·.className) = (Markup.classesIn out.markup).eraseDups := by
  obtain ⟨roots, -, rfl⟩ := exists_roots_of_compileParsed h
  have hnames := names_classesOf options.emitOptions (sketchesOf options.emitOptions roots)
  refine ⟨fun tag => isSome_className_of_mem_tagsIn, (made_classesOf _ _).nodup_names, ?_,
    fun rule => declarations_ne_nil_of_mem_rules, hnames⟩
  intro name
  exact List.mem_eraseDups.symm.trans (Iff.of_eq (congrArg (name ∈ ·) hnames.symm))

/-- Two nodes share a record, a text of the same name is called differently, a run of it has a
class of its own, and a hidden node that is left out has no rule. -/
theorem markup_stylesheet_agree_shared_record :
    let named (node : Layer) : Layer := { node with name := "Card" }
    let own : StyleOverride := ⟨some "Serif", none, none, none, none, none, none, none, none⟩
    let text : TextBlock := ⟨"Hi you", .ofFont "Inter" 400 16, [], [(1, own)], [⟨3, 6, 1⟩]⟩
    let hidden : Layer := { Layer.ofKind "d" (.text (.ofStyle "No" (.ofFont "Mono" 400 9))) with
      visible := false }
    let tree : SceneTree := ⟨none, [⟨named (.ofKind "a" (.frame .plain)), []⟩,
      ⟨named (.ofKind "b" (.text text)), []⟩, ⟨hidden, []⟩,
      ⟨named (.ofKind "c" (.frame .plain)), []⟩]⟩
    let options : Options := { Options.default with includeHidden := false }
    ∃ out, compileTree tree options = .ok out ∧
      Markup.classesIn out.markup = ["card", "card-2", "card-run", "card"] ∧
      out.stylesheet.map (·.className) = ["card", "card-2", "card-run"] := by
  intro named own text hidden tree options
  have hcompiles : compileTree tree options = .ok (outputOf [] options tree.roots) :=
    compileParsed_eq tree [] options
  obtain ⟨-, -, -, -, horder⟩ := markup_stylesheet_agree tree options _ hcompiles
  have hclasses : Markup.classesIn (outputOf [] options tree.roots).markup =
      ["card", "card-2", "card-run", "card"] := by decide +kernel
  refine ⟨_, hcompiles, hclasses, ?_⟩
  rw [horder, hclasses]
  decide

end SceneMarkup
