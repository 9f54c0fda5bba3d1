/-
  SceneMarkup/Proofs/Style/Run.lean --- the runs of a text are its characters.

  WHAT THIS FILE IS FOR.  However the characters of a text come by their style ids, there
  is one id for each of them, and putting characters with the same id together neither
  loses one nor makes an empty run.
-/
import SceneMarkup.Style.Run

set_option autoImplicit false

namespace SceneMarkup

namespace Run

/-- The runs of some characters are these characters in order. -/
theorem flatMap_characters_ofStyled (start : Nat) (styled : List (Char × Nat)) :
    (ofStyled start styled).flatMap (·.characters) = styled.map (·.1) := by
  induction styled generalizing start with
  | nil => rfl
  | cons first rest ih =>
      obtain ⟨c, id⟩ := first
      rw [List.map_cons, ← ih (start + 1), ofStyled]
      cases ofStyled (start + 1) rest with
      | nil => rfl
      | cons next runs =>
          dsimp only
          split
          · rfl
          · rfl

theorem characters_ne_nil (start : Nat) (styled : List (Char × Nat)) :
    ∀ run ∈ ofStyled start styled, run.characters ≠ [] := by
  induction styled generalizing start with
  | nil => simp [ofStyled]
  | cons first rest ih =>
      obtain ⟨c, id⟩ := first
      have hrest := ih (start + 1)
      rw [ofStyled]
      cases hruns : ofStyled (start + 1) rest with
      | nil => simp
      | cons next runs =>
          rw [hruns, List.forall_mem_cons] at hrest
          dsimp only
          split
          · simpa using hrest.2
          · simpa using hrest

end Run

namespace TextBlock

theorem length_ownStyles (length : Nat) (given : List Nat) :
    (ownStyles length given).length = length := by
  rw [ownStyles, List.length_append, List.length_take, List.length_replicate]
  omega

theorem length_foldl_applyRange (ranges : List StyleRange) (ids : List Nat) :
    (ranges.foldl applyRange ids).length = ids.length := by
  induction ranges generalizing ids with
  | nil => rfl
  | cons range rest ih => rw [List.foldl_cons, ih, applyRange, List.length_mapIdx]

/-- Each character has one style id. -/
theorem length_styleIds (text : TextBlock) :
    text.styleIds.length = text.characters.toList.length := by
  rw [styleIds, List.length_map, length_foldl_applyRange, length_ownStyles]

/-- The runs of a text are its characters in order. -/
theorem flatMap_characters_runs (text : TextBlock) :
    text.runs.flatMap (·.characters) = text.characters.toList := by
  rw [runs, Run.flatMap_characters_ofStyled]
  exact List.map_fst_zip (Nat.le_of_eq text.length_styleIds.symm)

theorem characters_ne_nil_of_mem_runs {text : TextBlock} {run : Run} (h : run ∈ text.runs) :
    run.characters ≠ [] := Run.characters_ne_nil _ _ run h

end TextBlock

end SceneMarkup
