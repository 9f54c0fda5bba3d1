/-
  SceneMarkup/Proofs/ClassPrefix.lean --- class names that all begin alike.

  WHAT THIS FILE IS FOR.  Class names may be given a beginning of their own.  A namer
  that puts it in front of every name goes through the same numbers as one that does not:
  a name with the beginning is in use if and only if the name without it is in use there
  (`firstFree_append`).  So two emissions that differ in the beginning keep their classes
  alike step by step (`give_beginWith`), and their outputs are alike in all but the names.
-/
import SceneMarkup.Proofs.SceneSketch

set_option autoImplicit false

namespace SceneMarkup

/-! ## Names -/

namespace ClassName

theorem candidate_append (start base : String) (k : Nat) :
    candidate (start ++ base) k = start ++ candidate base k := by
  cases k with
  | zero => rfl
  | succ k =>
      rw [candidate, candidate, String.append_assoc, String.append_assoc, String.append_assoc]

theorem append_mem_map_append_iff (start : String) {used : List String} {name : String} :
    start ++ name ∈ used.map (start ++ ·) ↔ name ∈ used :=
  List.mem_map_of_injective fun _ _ h => String.append_right_inj start |>.1 h

/-- With the same beginning in front of the base and of all names in use, the first free name has it
in front, and no other number. -/
theorem firstFree_append (start : String) (used : List String) (base : String) :
    firstFree (used.map (start ++ ·)) (start ++ base) = start ++ firstFree used base := by
  -- with the beginning a candidate is in use where it is without, so the same are passed over
  simp only [firstFree, candidate_append, append_mem_map_append_iff, List.length_map]

namespace Namer

/-- The namer that has given the same names with a beginning in front, and will go on so. -/
def beginWith (start : String) (namer : Namer) : Namer :=
  ⟨start ++ namer.start, namer.used.map (start ++ ·)⟩

theorem mint_beginWith (start : String) (namer : Namer) (name fallback : String) :
    (namer.beginWith start).mint name fallback =
      (start ++ (namer.mint name fallback).1, (namer.mint name fallback).2.beginWith start) := by
  simp only [mint, beginWith, String.append_assoc, firstFree_append, List.map_cons]

end Namer

end ClassName

/-! ## Output -/

/-- A rule whose class is called differently. -/
def Rule.mapClass (f : String → String) (rule : Rule) : Rule :=
  { rule with className := f rule.className }

namespace Markup

mutual

/-- A piece of markup whose classes are called differently. -/
def mapClasses (f : String → String) : Markup → Markup
  | .text content => .text content
  | .element tag children =>
      .element { tag with className := tag.className.map f } (mapClassesIn f children)

/-- Some pieces of markup whose classes are called differently. -/
def mapClassesIn (f : String → String) : List Markup → List Markup
  | [] => []
  | m :: rest => m.mapClasses f :: mapClassesIn f rest

end

end Markup

/-- An output whose classes are called differently, in the markup and in the stylesheet. -/
def Output.mapClasses (f : String → String) (out : Output) : Output :=
  { out with
    markup := Markup.mapClassesIn f out.markup
    stylesheet := out.stylesheet.map (Rule.mapClass f) }

namespace Sketch

mutual

theorem markup_map (f : String → String) (classOf : Record → Option String) : ∀ sketch : Sketch,
    sketch.markup (fun record => (classOf record).map f) = (sketch.markup classOf).mapClasses f
  | .text _ => rfl
  | .element name request attributes children => by
      rw [markup, markup, Markup.mapClasses, markupIn_map f classOf children]

/-- Calling classes differently before or after they are put into a sketch is the same. -/
theorem markupIn_map (f : String → String) (classOf : Record → Option String) :
    ∀ sketches : List Sketch, markupIn (fun record => (classOf record).map f) sketches =
      Markup.mapClassesIn f (markupIn classOf sketches)
  | [] => rfl
  | sketch :: rest => by
      rw [markupIn, markupIn, Markup.mapClassesIn, markup_map f classOf sketch,
        markupIn_map f classOf rest]

end

end Sketch

/-! ## Classes -/

namespace Emission.Classes

/-- The classes that were made for the same keys, with a beginning in front of their names. -/
def beginWith (start : String) (classes : Classes) : Classes :=
  ⟨classes.namer.beginWith start, classes.byKey.map fun (key, given) => (key, start ++ given),
    classes.rules.map (Rule.mapClass (start ++ ·))⟩

theorem fresh_eq_beginWith (start : String) : fresh start = (fresh "").beginWith start := by
  rw [fresh, fresh, beginWith, ClassName.Namer.beginWith, ClassName.Namer.fresh,
    ClassName.Namer.fresh, String.append_empty]
  rfl

theorem lookup_beginWith (start : String) (classes : Classes) (key : String) :
    (classes.beginWith start).byKey.lookup key =
      (classes.byKey.lookup key).map (start ++ ·) := by
  rw [beginWith]
  induction classes.byKey with
  | nil => rfl
  | cons known rest ih =>
      rw [List.map_cons, List.lookup_cons, List.lookup_cons, ih]
      cases key == known.1 with
      | true => rfl
      | false => rfl

theorem classOf_beginWith (start : String) (classes : Classes) (record : Record) :
    (classes.beginWith start).classOf record = (classes.classOf record).map (start ++ ·) := by
  rw [classOf, classOf, lookup_beginWith]
  split
  · rfl
  · rfl

/-- A request is answered alike, with or without the beginning: by the same known class, or by a new
one of the same number. -/
theorem give_beginWith (start : String) (classes : Classes) (request : ClassRequest) :
    (classes.beginWith start).give request = (classes.give request).beginWith start := by
  cases hempty : request.record.isEmpty with
  | true => rw [give, give, classFor_of_isEmpty _ hempty, classFor_of_isEmpty _ hempty]
  | false =>
      have hknown := lookup_beginWith start classes request.record.canonicalKey
      cases hlookup : classes.byKey.lookup request.record.canonicalKey with
      | some given =>
          rw [hlookup, Option.map_some] at hknown
          rw [give, give, classFor_of_lookup _ hempty hknown, classFor_of_lookup _ hempty hlookup]
      | none =>
          rw [hlookup, Option.map_none] at hknown
          rw [give, give, classFor_of_new _ hempty hknown, classFor_of_new _ hempty hlookup]
          have hmint := ClassName.Namer.mint_beginWith start classes.namer request.name
            request.fallback
          simp only [beginWith, hmint, List.map_cons, List.map_append, List.map_nil]
          rfl

theorem serve_beginWith (start : String) (classes : Classes) (requests : List ClassRequest) :
    (classes.beginWith start).serve requests = (classes.serve requests).beginWith start := by
  induction requests generalizing classes with
  | nil => rfl
  | cons request rest ih => rw [serve_cons, serve_cons, give_beginWith, ih]

end Emission.Classes

/-! ## Compiling -/

/-- The elements of a forest do not depend on how the names of their classes begin. -/
theorem sketchesIn_classStart (options : EmitOptions) (start : String) (parent : Option Layer)
    (depth index : Nat) (nodes : List Node) :
    sketchesIn { options with classStart := start } parent depth index nodes =
      sketchesIn options parent depth index nodes := by
  induction nodes using forest_induction generalizing parent depth index with
  | nil => rfl
  | cons layer children rest ihChildren ihRest =>
      rw [sketchesIn_cons, sketchesIn_cons, ihChildren, ihRest]
      rfl

/-- A beginning of class names stands in front of each of them, and nothing else is changed. -/
theorem outputOf_classStart (earlier : Diagnostics) (options : Options) (start : String)
    (roots : List Node) :
    outputOf earlier { options with classStart := some start } roots =
      (outputOf earlier { options with classStart := none } roots).mapClasses (start ++ ·) := by
  let plain : EmitOptions := { options.emitOptions with classStart := "" }
  let sketches := sketchesOf plain roots
  let classes := Emission.classesOf plain sketches
  have hsketches : sketchesOf { plain with classStart := start } roots = sketches :=
    sketchesIn_classStart plain start none 0 0 roots
  have hclasses : Emission.classesOf { plain with classStart := start } sketches =
      classes.beginWith start := by
    rw [Emission.classesOf, Emission.Classes.fresh_eq_beginWith,
      Emission.Classes.serve_beginWith]
    rfl
  have hclassOf : (classes.beginWith start).classOf =
      fun record => (classes.classOf record).map (start ++ ·) :=
    funext fun record => Emission.Classes.classOf_beginWith start classes record
  have hmarkup : Sketch.markupIn (classes.beginWith start).classOf sketches =
      Markup.mapClassesIn (start ++ ·) (Sketch.markupIn classes.classOf sketches) := by
    rw [hclassOf, Sketch.markupIn_map]
  change (⟨Sketch.markupIn (Emission.classesOf { plain with classStart := start }
      (sketchesOf { plain with classStart := start } roots)).classOf
      (sketchesOf { plain with classStart := start } roots),
    (Emission.classesOf { plain with classStart := start }
      (sketchesOf { plain with classStart := start } roots)).rules, _, _, _⟩ : Output) = _
  rw [hsketches, hclasses, hmarkup]
  rfl

end SceneMarkup
