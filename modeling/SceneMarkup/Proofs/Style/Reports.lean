/-
  SceneMarkup/Proofs/Style/Reports.lean --- how often the problems of a text are reported.

  WHAT THIS FILE IS FOR.  The fills of a text are reported once, however many runs have
  them.  The fills of an overriding style are reported wherever a run of the style comes
  up, so the number of warnings depends on how the style's characters lie in the text.
-/
import Mathlib.Algebra.Order.BigOperators.Ring.Finset
import SceneMarkup.Proofs.Style.Fill
import SceneMarkup.Proofs.Style.Tiling

set_option autoImplicit false

namespace SceneMarkup

/-! ## Texts without overrides -/

namespace TextBlock

/-- If no id other than zero is given to a character, no character has one. -/
theorem styleAt_eq_zero {text : TextBlock} (h : text.hasOverrides = false) (i : Nat) :
    text.styleAt i = 0 := by
  obtain ⟨hcharacters, hranges⟩ := Bool.or_eq_false_iff.1 h
  rw [List.any_eq_false] at hcharacters hranges
  have hown : text.characterStyles[i]?.getD 0 = 0 := by
    cases hid : text.characterStyles[i]? with
    | none => rfl
    | some id => simpa using hcharacters id (List.mem_of_getElem? hid)
  have hrange : ∀ id ∈ rangeIds text.ranges i, id = 0 := by
    intro id hid
    obtain ⟨range, hmem, hsome⟩ := List.mem_filterMap.1 hid
    rw [StyleRange.idAt?, Option.ite_none_right_eq_some, Option.some.injEq] at hsome
    obtain ⟨⟨hstart, hstop⟩, rfl⟩ := hsome
    have hcovers : range.start < range.stop := by omega
    simpa [hcovers] using hranges range hmem
  have hid : (rangeIds text.ranges i).getLast?.getD (text.characterStyles[i]?.getD 0) = 0 := by
    cases hlast : (rangeIds text.ranges i).getLast? with
    | none => exact hown
    | some id => exact hrange id (List.mem_of_getLast? hlast)
  rw [styleAt, hid]
  exact ite_self 0

theorem styleId_eq_zero {text : TextBlock} (h : text.hasOverrides = false) {run : Run}
    (hrun : run ∈ text.runs) : run.styleId = 0 := by
  have hsplit := text.splitInto_runs
  obtain ⟨-, hlt, -⟩ := hsplit.tile.bounds run hrun
  rw [hsplit.styles run hrun run.start (Nat.le_refl _) hlt]
  exact styleAt_eq_zero h run.start

/-- The ids of the runs of a text. -/
def usedIds (text : TextBlock) : Finset Nat := (text.runs.map (·.styleId)).toFinset

/-- The number of runs with an id. -/
def runsWith (text : TextBlock) (id : Nat) : Nat := (text.runs.map (·.styleId)).count id

/-- The fills that the characters with an id have of their own. -/
def ownFills (text : TextBlock) (id : Nat) : List Paint :=
  if id = 0 then [] else ((text.overrides.get? id).bind (·.fills)).getD []

theorem one_le_runsWith {text : TextBlock} {id : Nat} (h : id ∈ text.usedIds) :
    1 ≤ text.runsWith id :=
  List.one_le_count_iff.2 (List.mem_toFinset.1 h)

/-- A sum over runs is a sum over the ids that are in use, each as often as there are runs
with it. -/
theorem sum_map_runs (text : TextBlock) (f : Nat → Nat) :
    (text.runs.map fun run => f run.styleId).sum =
      ∑ id ∈ text.usedIds, text.runsWith id * f id := by
  have hmap : (text.runs.map fun run => f run.styleId) =
      (text.runs.map (·.styleId)).map f := (List.map_map ..).symm
  rw [hmap, Finset.sum_list_map_count]
  rfl

end TextBlock

namespace Style

/-! ## Problems of runs -/

theorem runProblems_eq (text : TextBlock) (run : Run) :
    runProblems text run = fillProblems (text.ownFills run.styleId) := by
  rw [runProblems, overrideOf?, TextBlock.ownFills]
  by_cases hid : run.styleId = 0
  · rw [if_pos hid, if_pos hid]
    rfl
  · rw [if_neg hid, if_neg hid]
    cases text.overrides.get? run.styleId with
    | none => rfl
    | some own => cases hfills : own.fills <;> simp [hfills, fillProblems, visibleLayers]

/-- The problems of a text are those of its fills, its strokes and its effects, and for each run
those of the fills that its style has of its own. -/
theorem problems_of_text {layer : Layer} {text : TextBlock} (h : layer.kind = .text text) :
    problems layer =
      fillProblems layer.fills ++ strokeProblems true layer.strokeWeight layer.strokes ++
        effectProblems true layer.effects ++
        text.runs.flatMap fun run => fillProblems (text.ownFills run.styleId) := by
  have htext : problems layer = textProblems layer text := by rw [problems, h]
  rw [htext, textProblems]
  rw [List.append_cancel_left_eq]
  cases hoverrides : text.hasOverrides with
  | true => exact List.flatMap_congr fun run _ => runProblems_eq text run
  | false =>
      -- no run has an id then, and the base style has no fills of its own to report
      refine (List.flatMap_eq_nil_iff.2 fun run hrun => ?_).symm
      rw [TextBlock.ownFills, if_pos (TextBlock.styleId_eq_zero hoverrides hrun)]
      rfl

theorem diagnostics_singleton (entry : Entry) :
    diagnostics [entry] = (problems entry.layer).map (Problem.diagnostic entry.id) :=
  List.append_nil _

/-- The number of warnings about a text if those about an overriding style were given once. -/
def reportedOnce (layer : Layer) (text : TextBlock) : Nat :=
  undrawn layer.fills + (strokeProblems true layer.strokeWeight layer.strokes).length +
    (effectProblems true layer.effects).length +
    ∑ id ∈ text.usedIds, undrawn (text.ownFills id)

theorem length_problems_of_text {layer : Layer} {text : TextBlock} (h : layer.kind = .text text) :
    (problems layer).length =
      undrawn layer.fills + (strokeProblems true layer.strokeWeight layer.strokes).length +
        (effectProblems true layer.effects).length +
        ∑ id ∈ text.usedIds, text.runsWith id * undrawn (text.ownFills id) := by
  have hruns : (text.runs.flatMap fun run => fillProblems (text.ownFills run.styleId)).length =
      ∑ id ∈ text.usedIds, text.runsWith id * undrawn (text.ownFills id) := by
    rw [List.length_flatMap, ← text.sum_map_runs fun id => undrawn (text.ownFills id)]
    exact congrArg List.sum (List.map_congr_left fun run _ => length_fillProblems _)
  rw [problems_of_text h, List.length_append, List.length_append, List.length_append, hruns,
    length_fillProblems]

/-- A text is warned about once for every visible fill that cannot be drawn, for its strokes and
effects, and for every run once for every visible fill that the run's style has of its own and that
cannot be drawn. So each problem of an overriding style is reported as often as there are runs in
the style; all are reported once if and only if every style with problems is that of one run. -/
theorem length_warnings_of_text (entry : Entry) (text : TextBlock)
    (h : entry.layer.kind = .text text) :
    diagnostics [entry] = (fillProblems entry.layer.fills ++
        strokeProblems true entry.layer.strokeWeight entry.layer.strokes ++
        effectProblems true entry.layer.effects ++
        text.runs.flatMap fun run => fillProblems (text.ownFills run.styleId)).map
          (Problem.diagnostic entry.id) ∧
      (∀ fills, (fillProblems fills).length = undrawn fills) ∧
      (diagnostics [entry]).length =
        undrawn entry.layer.fills +
          (strokeProblems true entry.layer.strokeWeight entry.layer.strokes).length +
          (effectProblems true entry.layer.effects).length +
          ∑ id ∈ text.usedIds, text.runsWith id * undrawn (text.ownFills id) ∧
      reportedOnce entry.layer text ≤ (diagnostics [entry]).length ∧
      ((diagnostics [entry]).length = reportedOnce entry.layer text ↔
        ∀ id ∈ text.usedIds, undrawn (text.ownFills id) ≠ 0 → text.runsWith id = 1) := by
  have hlength : (diagnostics [entry]).length =
      undrawn entry.layer.fills +
        (strokeProblems true entry.layer.strokeWeight entry.layer.strokes).length +
        (effectProblems true entry.layer.effects).length +
        ∑ id ∈ text.usedIds, text.runsWith id * undrawn (text.ownFills id) := by
    rw [diagnostics_singleton, List.length_map, length_problems_of_text h]
  have hle : ∀ id ∈ text.usedIds,
      undrawn (text.ownFills id) ≤ text.runsWith id * undrawn (text.ownFills id) :=
    fun id hid => Nat.le_mul_of_pos_left _ (TextBlock.one_le_runsWith hid)
  refine ⟨?_, length_fillProblems, hlength, ?_, ?_⟩
  · rw [diagnostics_singleton, problems_of_text h]
  · rw [hlength, reportedOnce]
    exact Nat.add_le_add_left (Finset.sum_le_sum hle) _
  · rw [hlength, reportedOnce, Nat.add_left_cancel_iff, eq_comm, Finset.sum_eq_sum_iff_of_le hle]
    refine forall₂_congr fun id hid => ?_
    constructor
    · intro heq hne
      exact (Nat.eq_of_mul_eq_mul_right (Nat.pos_of_ne_zero hne)
        ((Nat.one_mul _).trans heq)).symm
    · intro hone
      by_cases hzero : undrawn (text.ownFills id) = 0
      · rw [hzero, Nat.mul_zero]
      · rw [hone hzero, Nat.one_mul]

/-- Two characters with an overriding style that cannot be drawn are warned about once if they
stand next to each other. -/
theorem length_warnings_of_neighbors :
    let video : Paint := ⟨.unsupported "VIDEO", 1, true⟩
    let own : StyleOverride := ⟨none, none, none, none, none, none, none, none, some [video]⟩
    let text : TextBlock := ⟨"aab", .ofFont "Inter" 400 16, [1, 1, 0], [(1, own)], []⟩
    let entry : Entry := .ofNode none 0 0 ⟨Layer.ofKind "n" (.text text), []⟩
    entry.layer.kind = .text text ∧
      (diagnostics [entry]).length = reportedOnce entry.layer text ∧
      diagnostics [entry] = [.warning "n" "unsupported paint type `VIDEO`, skipped"] := by
  intro video own text entry
  obtain ⟨hlist, -, -, -, honce⟩ := length_warnings_of_text entry text rfl
  have hruns : text.runs = [⟨0, ['a', 'a'], 1⟩, ⟨2, ['b'], 0⟩] := by decide +revert
  refine ⟨rfl, honce.2 ?_, ?_⟩
  · intro id hid _
    have hcases : id = 1 ∨ id = 0 := by simpa [TextBlock.usedIds, hruns] using hid
    rw [TextBlock.runsWith, hruns]
    rcases hcases with rfl | rfl <;> rfl
  · rw [hlist, hruns]
    rfl

/-- The same characters with another one between them are warned about twice. -/
theorem length_warnings_ne_reportedOnce :
    let video : Paint := ⟨.unsupported "VIDEO", 1, true⟩
    let own : StyleOverride := ⟨none, none, none, none, none, none, none, none, some [video]⟩
    let text : TextBlock := ⟨"aba", .ofFont "Inter" 400 16, [1, 0, 1], [(1, own)], []⟩
    let entry : Entry := .ofNode none 0 0 ⟨Layer.ofKind "n" (.text text), []⟩
    diagnostics [entry] = [.warning "n" "unsupported paint type `VIDEO`, skipped",
        .warning "n" "unsupported paint type `VIDEO`, skipped"] ∧
      reportedOnce entry.layer text = 1 := by
  intro video own text entry
  have hruns : text.runs = [⟨0, ['a'], 1⟩, ⟨1, ['b'], 0⟩, ⟨2, ['a'], 1⟩] := by decide +revert
  have hused : text.usedIds = insert 1 {0} := by
    rw [TextBlock.usedIds, hruns]
    decide
  refine ⟨?_, ?_⟩
  · rw [diagnostics_singleton, problems_of_text rfl, hruns]
    rfl
  · rw [reportedOnce, hused, Finset.sum_pair (by decide)]
    rfl

end Style

end SceneMarkup
