/-
  SceneMarkup/Proofs/Compile.lean --- what compiling a scene puts out.

  WHAT THIS FILE IS FOR.  A scene is compiled once its roots are selected: styles always
  belong to their walk, so nothing else can fail.  The output is the sketch of the roots
  with classes put in (`outputOf`), where the classes are those of the records of nodes
  and runs.  A class and a record of a scene tell each other.
-/
import SceneMarkup.Compile
import SceneMarkup.Proofs.Emission
import SceneMarkup.Proofs.Sharing
import SceneMarkup.Proofs.Style.Key

set_option autoImplicit false

namespace SceneMarkup

/-! ## Output -/

/-- The trees that the options select. -/
def rootsOf (tree : SceneTree) (options : Options) : Except CompileError (List Node) :=
  match options.rootNode with
  | none => .ok tree.roots
  | some id =>
      match tree.find? id with
      | some node => .ok [node]
      | none => .error (.rootNotFound id)

theorem walkOf_eq (tree : SceneTree) (options : Options) :
    walkOf tree options = (rootsOf tree options).map Walker.start := by
  unfold walkOf rootsOf
  cases options.rootNode with
  | none => rfl
  | some id =>
      dsimp only
      cases tree.find? id with
      | none => rfl
      | some node => rfl

/-- The elements of a forest under the styles of its nodes. -/
def sketchesOf (options : EmitOptions) (roots : List Node) : List Sketch :=
  Sketch.ofForest options (Style.resolve (preorder roots)) roots

/-- The output for the trees that were selected. -/
def outputOf (earlier : Diagnostics) (options : Options) (roots : List Node) : Output :=
  let sketches := sketchesOf options.emitOptions roots
  let classes := Emission.classesOf options.emitOptions sketches
  ⟨Sketch.markupIn classes.classOf sketches, classes.rules,
    earlier ++ Style.diagnostics (preorder roots) ++
      Emission.omissions options.emitOptions roots,
    options.flavor, options.componentName⟩

theorem emit_resolve (options : EmitOptions) (roots : List Node) :
    emit options (preorder roots) (Style.resolve (preorder roots)) =
      let sketches := sketchesOf options roots
      .ok ⟨Sketch.markupIn (Emission.classesOf options sketches).classOf sketches,
        (Emission.classesOf options sketches).rules, Emission.omissions options roots⟩ := by
  have hids : (Style.resolve (preorder roots)).map (·.nodeId) = (preorder roots).map (·.id) := by
    rw [Style.resolve, List.map_map]
    rfl
  exact Emission.emit_of_ids_eq options hids

/-- Compiling fails only where no node has the id that is asked for. -/
theorem compileParsed_eq (tree : SceneTree) (earlier : Diagnostics) (options : Options) :
    compileParsed tree earlier options =
      (rootsOf tree options).map (outputOf earlier options) := by
  rw [compileParsed, walkOf_eq]
  cases rootsOf tree options with
  | error error => rfl
  | ok roots =>
      simp only [Except.map, bind, Except.bind, Walker.rest_start, emit_resolve]
      rfl

theorem exists_roots_of_compileParsed {tree : SceneTree} {earlier : Diagnostics}
    {options : Options} {out : Output} (h : compileParsed tree earlier options = .ok out) :
    ∃ roots, rootsOf tree options = .ok roots ∧ out = outputOf earlier options roots := by
  rw [compileParsed_eq] at h
  cases hroots : rootsOf tree options with
  | error error =>
      rw [hroots] at h
      cases h
  | ok roots =>
      rw [hroots] at h
      cases h
      exact ⟨roots, rfl, rfl⟩

/-! ## Requests -/

/-- The records of a node and of those runs of its text that have declarations. -/
def recordsOf (entry : Entry) : List Record :=
  Style.record entry :: ((Style.resolveEntry entry).runs.map (·.record)).filter (!·.isEmpty)

/-- The nodes of a forest that become elements, with their places. -/
def keptEntries (options : EmitOptions) (roots : List Node) : List Entry :=
  (Emission.withFate .kept (Emission.fates options.includeHidden none
    ((preorder roots).zip (Style.resolve (preorder roots))))).map (·.1)

theorem suffice_resolve (options : EmitOptions) (roots : List Node) :
    Emission.Suffice options.includeHidden (Style.resolve (preorder roots)) roots := by
  refine Emission.suffice_of_le options.includeHidden ?_
  rw [Style.resolve, List.length_map, preorder, length_entriesIn]

theorem map_layer_keptEntries (options : EmitOptions) (roots : List Node) :
    (keptEntries options roots).map (·.layer) = shownIn options.includeHidden roots := by
  rw [keptEntries, List.map_map]
  exact Emission.map_layer_kept (suffice_resolve options roots) none 0 0

theorem map_record_requestsOf (entry : Entry) :
    (Emission.requestsOf (entry, Style.resolveEntry entry)).map (·.record) = recordsOf entry := by
  rw [Emission.requestsOf, List.map_cons, recordsOf]
  refine congrArg (Style.record entry :: ·) ?_
  unfold Sketch.ownContent Style.resolveEntry
  cases entry.layer.kind with
  | text text => exact Sketch.map_record_requestsIn_ofText _ _ _
  | _ => rfl

/-- The records that ask for classes are those of the nodes that become elements, and of their
runs. -/
theorem map_record_requestsIn_sketchesOf (options : EmitOptions) (roots : List Node) :
    (Sketch.requestsIn (sketchesOf options roots)).map (·.record) =
      (keptEntries options roots).flatMap recordsOf := by
  have hstyle : ∀ styled ∈ Emission.withFate .kept (Emission.fates options.includeHidden none
      ((preorder roots).zip (Style.resolve (preorder roots)))),
      styled = (styled.1, Style.resolveEntry styled.1) := by
    intro styled hstyled
    have hzip := Emission.mem_of_mem_withFate hstyled
    rw [Style.resolve, List.zip_map_right] at hzip
    obtain ⟨⟨entry, other⟩, hpair, rfl⟩ := List.mem_map.1 hzip
    have hsame : entry = other := by
      obtain ⟨i, hi, hget⟩ := List.getElem_of_mem hpair
      rw [List.getElem_zip, Prod.mk.injEq] at hget
      rw [← hget.1, ← hget.2]
    rw [hsame]
    rfl
  rw [sketchesOf, ← Emission.flatMap_requestsOf_kept (suffice_resolve options roots) none 0 0,
    List.map_flatMap, keptEntries, List.flatMap_map]
  refine List.flatMap_congr fun styled hstyled => ?_
  rw [hstyle styled hstyled]
  exact map_record_requestsOf styled.1

theorem mem_recordsOf {entry : Entry} {r : Record} (h : r ∈ recordsOf entry) :
    Style.Produced r ∧ r.isEmpty = false := by
  rcases List.mem_cons.1 h with rfl | h
  · exact ⟨.node entry, Style.isEmpty_record entry⟩
  · obtain ⟨hrun, hempty⟩ := List.mem_filter.1 h
    obtain ⟨resolved, hresolved, rfl⟩ := List.mem_map.1 hrun
    refine ⟨?_, by simpa using hempty⟩
    unfold Style.resolveEntry at hresolved
    dsimp only at hresolved
    split at hresolved
    · rename_i text _
      unfold Style.resolveRuns at hresolved
      split at hresolved
      · obtain ⟨run, _, rfl⟩ := List.mem_map.1 hresolved
        exact .run _ text run
      · simp at hresolved
    · simp at hresolved

theorem produced_of_mem_requests {options : EmitOptions} {roots : List Node} {q : ClassRequest}
    (h : q ∈ Sketch.requestsIn (sketchesOf options roots)) :
    Style.Produced q.record ∧ q.record.isEmpty = false := by
  have hrecord : q.record ∈ (Sketch.requestsIn (sketchesOf options roots)).map (·.record) :=
    List.mem_map_of_mem h
  rw [map_record_requestsIn_sketchesOf] at hrecord
  obtain ⟨entry, _, hentry⟩ := List.mem_flatMap.1 hrecord
  exact mem_recordsOf hentry

/-! ## Classes -/

theorem made_classesOf (options : EmitOptions) (sketches : List Sketch) :
    Emission.Classes.Made (Emission.classesOf options sketches)
      ((Sketch.requestsIn sketches).map (·.record)) := by
  have hmade := (Emission.Classes.made_fresh options.classStart).serve (Sketch.requestsIn sketches)
  rwa [List.nil_append] at hmade

theorem exists_class_of_mem_requests {options : EmitOptions} {roots : List Node}
    {q : ClassRequest} (h : q ∈ Sketch.requestsIn (sketchesOf options roots)) :
    ∃ given, (Emission.classesOf options (sketchesOf options roots)).classOf q.record =
      some given :=
  (Emission.Classes.knows_serve h).exists_classOf (produced_of_mem_requests h).2

/-- The class of an element has one rule, with the declarations of the element's own record. -/
theorem rule_of_mem_requests {options : EmitOptions} {roots : List Node} {q : ClassRequest}
    (h : q ∈ Sketch.requestsIn (sketchesOf options roots)) :
    ∃ given, (Emission.classesOf options (sketchesOf options roots)).classOf q.record =
        some given ∧
      Rule.ofRecord given q.record ∈ (Emission.classesOf options (sketchesOf options roots)).rules ∧
      ∀ rule ∈ (Emission.classesOf options (sketchesOf options roots)).rules,
        rule.className = given → rule = .ofRecord given q.record := by
  obtain ⟨given, hgiven⟩ := exists_class_of_mem_requests h
  obtain ⟨origin, horigin, hkey, hrule, hone⟩ := (made_classesOf options _).rule_of_classOf hgiven
  obtain ⟨q', hq', rfl⟩ := List.mem_map.1 horigin
  have hproduced := (produced_of_mem_requests h).1
  have hproduced' := (produced_of_mem_requests hq').1
  -- the class was made for `q'`, whose record need not be the same but declares the same in order
  have hsame : q'.record.declarations = q.record.declarations :=
    hproduced'.ordered.declarations_eq hproduced.ordered
      ((hproduced'.canonicalKey_eq_iff hproduced).1 hkey)
  have hof : Rule.ofRecord given q'.record = Rule.ofRecord given q.record := by
    rw [Rule.ofRecord, Rule.ofRecord, hsame]
  rw [hof] at hrule hone
  exact ⟨given, hgiven, hrule, hone⟩

end SceneMarkup
