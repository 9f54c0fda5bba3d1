/-
  SceneMarkup/Proofs/Mismatch.lean --- when a walk and its styles do not fit, and when a
  scene is not compiled.

  WHAT THIS FILE IS FOR.  Emission pairs all nodes with their styles before it does
  anything else.  Going through the walk once, and looking at the id of a style only when
  its node is reached, comes to the same (`onePass_eq_emit`), since the id is looked at
  before it is known whether the node is left out.  Styles that are taken from the walk
  itself always fit, so a scene is compiled unless it lacks the node that is asked for.
-/
import SceneMarkup.Proofs.Selection

set_option autoImplicit false

namespace SceneMarkup

namespace Emission

/-! ## One pass -/

/-- The first style that is not that of its node, with the node. -/
def unfit? (all : List Styled) : Option Styled :=
  all.find? fun styled => styled.1.id != styled.2.nodeId

theorem unfit?_cons (styled : Styled) (rest : List Styled) : unfit? (styled :: rest) =
    if styled.1.id != styled.2.nodeId then some styled else unfit? rest := by
  rw [unfit?, List.find?_cons]
  cases styled.1.id != styled.2.nodeId <;> rfl

/-- What emission has when it is at some node: the depth of the node that was left out last, as long
as the node may be below it, the classes so far, the open elements, and the remarks so far. -/
structure Pass where
  skip : Option Nat
  classes : Classes
  assembly : Assembly
  remarks : Diagnostics
  deriving Repr, Inhabited

namespace Pass

variable {options : EmitOptions} {pass : Pass} {styled : Styled}

/-- Nothing so far. -/
def start (options : EmitOptions) : Pass := ⟨none, .fresh options.classStart, .empty, []⟩

/-- Goes on to a node with its style. -/
def after (options : EmitOptions) (pass : Pass) (styled : Styled) : Pass :=
  if pass.skip.any fun depth => depth < styled.1.depth then pass
  else if !styled.1.layer.visible && !options.includeHidden then
    { pass with skip := some styled.1.depth, remarks := pass.remarks ++ [omission styled] }
  else
    let made := pieceOf options.emitNodeIds styled pass.classes
    ⟨none, made.2, pass.assembly.push made.1, pass.remarks⟩

/-- Goes on to a node, unless the style is that of another one. -/
def step (options : EmitOptions) (pass : Pass) (styled : Styled) :
    Except ResolutionMismatch Pass :=
  if styled.1.id != styled.2.nodeId then .error (.node styled.1.id styled.2.nodeId)
  else .ok (pass.after options styled)

/-- What there is in the end, when all elements are complete. -/
def finish (pass : Pass) : Emission :=
  ⟨(pass.assembly.closeTo 0).roots, pass.classes.rules, pass.remarks⟩

/-- What there would be in the end if the rest of the nodes were decided on, made into pieces and
put together one after the other, starting from what there is. -/
def completed (options : EmitOptions) (pass : Pass) (rest : List Styled) : Emission :=
  let decided := fates options.includeHidden pass.skip rest
  let (pieces, classes) := piecesOf options.emitNodeIds (withFate .kept decided) pass.classes
  ⟨((pieces.foldl Assembly.push pass.assembly).closeTo 0).roots, classes.rules,
    pass.remarks ++ (withFate .omitted decided).map omission⟩

theorem completed_nil (options : EmitOptions) (pass : Pass) :
    pass.completed options [] = pass.finish := by
  simp only [completed, fates, withFate, List.filter_nil, List.map_nil, piecesOf, List.foldl_nil,
    List.append_nil]
  rfl

theorem completed_start (options : EmitOptions) (all : List Styled) :
    (start options).completed options all = ofStyled options all := rfl

/-- Going on to the next node leaves the same to be completed. -/
theorem completed_after (options : EmitOptions) (pass : Pass) (styled : Styled)
    (rest : List Styled) :
    (pass.after options styled).completed options rest =
      pass.completed options (styled :: rest) := by
  have hbelow : ∀ fate all, Fate.below ≠ fate →
      withFate fate ((styled, .below) :: all) = withFate fate all :=
    fun fate all hfate => withFate_cons_other hfate styled all
  unfold after
  split
  · rename_i hskip
    simp only [completed, fates, if_pos hskip, hbelow _ _ (show Fate.below ≠ .kept by decide),
      hbelow _ _ (show Fate.below ≠ .omitted by decide)]
  · rename_i hskip
    split
    · rename_i hhidden
      simp only [completed, fates, if_neg hskip, if_pos hhidden,
        withFate_cons_other (show Fate.omitted ≠ .kept by decide),
        withFate_cons_same .omitted, List.map_cons, List.append_assoc, List.singleton_append]
    · rename_i hshown
      simp only [completed, fates, if_neg hskip, if_neg hshown, withFate_cons_same .kept,
        withFate_cons_other (show Fate.kept ≠ .omitted by decide), piecesOf, List.foldl_cons]

/-- Steps are taken until the first style that is not that of its node. -/
theorem foldlM_step (all : List Styled) :
    (all.foldlM (step options) pass).map finish =
      match unfit? all with
      | some styled => .error (.node styled.1.id styled.2.nodeId)
      | none => .ok (pass.completed options all) := by
  induction all generalizing pass with
  | nil => rw [completed_nil]; rfl
  | cons styled rest ih =>
      cases hid : styled.1.id != styled.2.nodeId with
      | true =>
          have hrefused : pass.step options styled =
              .error (.node styled.1.id styled.2.nodeId) := by rw [step, if_pos hid]
          rw [List.foldlM_cons, hrefused, unfit?_cons, if_pos hid]
          rfl
      | false =>
          have htaken : pass.step options styled = .ok (pass.after options styled) := by
            rw [step, hid, if_neg Bool.false_ne_true]
          rw [unfit?_cons, hid, if_neg Bool.false_ne_true, ← completed_after, ← ih,
            List.foldlM_cons, htaken]
          rfl

end Pass

/-- Emission that goes through a walk once. -/
def onePass (options : EmitOptions) (entries : List Entry) (resolved : List Resolved) :
    Except ResolutionMismatch Emission :=
  if entries.length ≠ resolved.length then .error (.count entries.length resolved.length)
  else ((entries.zip resolved).foldlM (Pass.step options) (.start options)).map Pass.finish

theorem pair_eq (entries : List Entry) (resolved : List Resolved) :
    pair entries resolved =
      if entries.length ≠ resolved.length then .error (.count entries.length resolved.length)
      else
        match unfit? (entries.zip resolved) with
        | some styled => .error (.node styled.1.id styled.2.nodeId)
        | none => .ok (entries.zip resolved) := by
  rw [pair]
  by_cases hlength : entries.length ≠ resolved.length
  · rw [if_pos hlength, if_pos hlength]
  · rw [if_neg hlength, if_neg hlength]
    split
    · rename_i entry style hfound
      have hunfit : unfit? (entries.zip resolved) = some (entry, style) := hfound
      rw [hunfit]
    · rename_i hfound
      have hunfit : unfit? (entries.zip resolved) = none := hfound
      rw [hunfit]

/-- Going through the walk once puts out the same, or is refused in the same way. -/
theorem onePass_eq_emit (options : EmitOptions) (entries : List Entry)
    (resolved : List Resolved) :
    onePass options entries resolved = emit options entries resolved := by
  rw [onePass, emit, pair_eq]
  split
  · rfl
  · rw [Pass.foldlM_step, Pass.completed_start]
    cases unfit? (entries.zip resolved) with
    | none => rfl
    | some styled => rfl

/-! ## Styles that do not fit -/

variable {entries : List Entry} {resolved : List Resolved}

/-- The first pair that does not fit stands at the first place where the ids differ. -/
theorem unfit?_zip_eq_some_iff {styled : Styled} :
    unfit? (entries.zip resolved) = some styled ↔
      ∃ (i : Nat) (h : i < entries.length) (h' : i < resolved.length),
        entries[i].id ≠ resolved[i].nodeId ∧
        (∀ (j : Nat) (hj : j < i), entries[j].id = resolved[j].nodeId) ∧
        styled = (entries[i], resolved[i]) := by
  rw [unfit?, List.find?_eq_some_iff_getElem]
  constructor
  · rintro ⟨hid, i, hi, rfl, hbefore⟩
    rw [List.length_zip] at hi
    refine ⟨i, by omega, by omega, by simpa using hid, fun j hj => ?_, by rw [List.getElem_zip]⟩
    simpa using hbefore j hj
  · rintro ⟨i, hi, hi', hid, hbefore, rfl⟩
    refine ⟨by simpa using hid, i, by rw [List.length_zip]; omega, by rw [List.getElem_zip],
      fun j hj => ?_⟩
    simpa using hbefore j hj

theorem pair_eq_error_iff {mismatch : ResolutionMismatch} :
    pair entries resolved = .error mismatch ↔
      entries.length ≠ resolved.length ∧ mismatch = .count entries.length resolved.length ∨
      entries.length = resolved.length ∧ ∃ styled,
        unfit? (entries.zip resolved) = some styled ∧
          mismatch = .node styled.1.id styled.2.nodeId := by
  rw [pair_eq]
  by_cases hlength : entries.length = resolved.length
  · rw [if_neg (not_not_intro hlength)]
    cases unfit? (entries.zip resolved) with
    | none => simp [hlength]
    | some styled => simp [hlength, eq_comm]
  · simp [hlength, eq_comm]

theorem emit_eq_error_iff_pair {options : EmitOptions} {mismatch : ResolutionMismatch} :
    emit options entries resolved = .error mismatch ↔
      pair entries resolved = .error mismatch := by
  rw [emit]
  cases pair entries resolved with
  | error _ => rw [Except.map, Except.error.injEq, Except.error.injEq]
  | ok _ => simp [Except.map]

/-- Emission is refused for a number of styles that is not that of the nodes, and otherwise for the
first style that is not that of its node. -/
theorem emit_eq_error_iff {options : EmitOptions} {mismatch : ResolutionMismatch} :
    emit options entries resolved = .error mismatch ↔
      entries.length ≠ resolved.length ∧ mismatch = .count entries.length resolved.length ∨
      entries.length = resolved.length ∧
        ∃ (i : Nat) (h : i < entries.length) (h' : i < resolved.length),
          entries[i].id ≠ resolved[i].nodeId ∧
          (∀ (j : Nat) (hj : j < i), entries[j].id = resolved[j].nodeId) ∧
          mismatch = .node entries[i].id resolved[i].nodeId := by
  rw [emit_eq_error_iff_pair, pair_eq_error_iff]
  refine or_congr_right (and_congr_right fun _ => ?_)
  constructor
  · rintro ⟨styled, hfind, rfl⟩
    obtain ⟨i, hi, hi', hid, hbefore, rfl⟩ := unfit?_zip_eq_some_iff.1 hfind
    exact ⟨i, hi, hi', hid, hbefore, rfl⟩
  · rintro ⟨i, hi, hi', hid, hbefore, rfl⟩
    exact ⟨_, unfit?_zip_eq_some_iff.2 ⟨i, hi, hi', hid, hbefore, rfl⟩, rfl⟩

/-- Emission is refused if and only if there are more or fewer styles than nodes or some style is
not that of its node. -/
theorem exists_mismatch_iff (options : EmitOptions) :
    (∃ mismatch, emit options entries resolved = .error mismatch) ↔
      entries.length ≠ resolved.length ∨
        ∃ (i : Nat) (_ : i < entries.length) (_ : i < resolved.length),
          entries[i].id ≠ resolved[i].nodeId := by
  constructor
  · rintro ⟨mismatch, h⟩
    rcases emit_eq_error_iff.1 h with ⟨hlength, -⟩ | ⟨-, i, hi, hi', hid, -, -⟩
    · exact .inl hlength
    · exact .inr ⟨i, hi, hi', hid⟩
  · intro h
    by_cases hlength : entries.length = resolved.length
    · obtain ⟨i, hi, hi', hid⟩ := h.resolve_left (not_not_intro hlength)
      have hmem : (entries[i], resolved[i]) ∈ entries.zip resolved :=
        List.mem_iff_getElem.2 ⟨i, by rw [List.length_zip]; omega, List.getElem_zip⟩
      have hfound : (unfit? (entries.zip resolved)).isSome = true :=
        List.find?_isSome.2 ⟨_, hmem, by simpa using hid⟩
      obtain ⟨styled, hstyled⟩ := Option.isSome_iff_exists.1 hfound
      exact ⟨_, emit_eq_error_iff_pair.2 (pair_eq_error_iff.2
        (.inr ⟨hlength, styled, hstyled, rfl⟩))⟩
    · exact ⟨_, emit_eq_error_iff.2 (.inl ⟨hlength, rfl⟩)⟩

end Emission

/-! ## Scenes that are not compiled -/

/-- The ids of the nodes of a scene, in order. -/
def SceneTree.ids (tree : SceneTree) : List String :=
  (RoseTree.labelsIn (treesIn tree.roots)).map Layer.id

theorem find?_eq_none_iff_not_mem_ids (tree : SceneTree) (id : String) :
    tree.find? id = none ↔ id ∉ tree.ids := by
  rw [SceneTree.find?_eq_none_iff, Walker.rest_start, preorder, SceneTree.ids,
    ← map_layer_entriesIn none 0 0, List.map_map, List.mem_map, not_exists]
  exact forall_congr' fun entry => not_and.symm

/-- No style of a walk is refused, so a scene is compiled unless it lacks the node that is asked
for. -/
theorem compileParsed_eq_error_iff (tree : SceneTree) (earlier : Diagnostics) (options : Options)
    (error : CompileError) :
    compileParsed tree earlier options = .error error ↔
      ∃ id, options.rootNode = some id ∧ id ∉ tree.ids ∧ error = .rootNotFound id := by
  rw [compileParsed_eq, rootsOf]
  cases options.rootNode with
  | none => simp [Except.map]
  | some id =>
      have hfind := find?_eq_none_iff_not_mem_ids tree id
      cases hnode : tree.find? id with
      | none => simp [Except.map, hnode, hfind.1 hnode, eq_comm]
      | some node =>
          have hmem : id ∈ tree.ids := by
            by_contra hnot
            rw [hfind.2 hnot] at hnode
            cases hnode
          simp [Except.map, hnode, hmem]

/-- Going through a walk once, with or without hidden nodes, puts out what emission puts out.
Emission is refused if and only if the styles are not as many as the nodes or at some place are
those of another node, also where nodes are left out. The styles of a walk are never refused, so a
scene is not compiled if and only if it lacks the node that is asked for, and this is the error. -/
theorem refused_iff_mismatched :
    (∀ (options : EmitOptions) (entries : List Entry) (resolved : List Resolved),
      Emission.onePass options entries resolved = emit options entries resolved ∧
      ((∃ mismatch, emit options entries resolved = .error mismatch) ↔
        entries.length ≠ resolved.length ∨
          ∃ (i : Nat) (_ : i < entries.length) (_ : i < resolved.length),
            entries[i].id ≠ resolved[i].nodeId)) ∧
    (∀ (options : EmitOptions) (roots : List Node), ∃ emission,
      emit options (Walker.start roots).rest (Style.resolve (Walker.start roots).rest) =
        .ok emission) ∧
    ∀ (tree : SceneTree) (options : Options) (error : CompileError),
      compileTree tree options = .error error ↔
        ∃ id, options.rootNode = some id ∧ id ∉ tree.ids ∧ error = .rootNotFound id := by
  refine ⟨fun options entries resolved => ?_, fun options roots => ?_,
    fun tree options error => compileParsed_eq_error_iff tree [] options error⟩
  · exact ⟨Emission.onePass_eq_emit options entries resolved, Emission.exists_mismatch_iff options⟩
  · rw [Walker.rest_start]
    exact ⟨_, emit_resolve options roots⟩

end SceneMarkup
