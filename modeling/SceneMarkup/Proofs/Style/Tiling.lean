/-
  SceneMarkup/Proofs/Style/Tiling.lean --- the runs of a text cover it exactly.

  WHAT THIS FILE IS FOR.  Which style a character has can be said without runs
  (`TextBlock.styleAt`).  The runs of a text lie one behind the other from its first
  character to its last and have the characters and the style of their places.  No others
  do of which no two in a row have the same style, and fewer cannot.
-/
import Mathlib.Data.List.Chain
import SceneMarkup.Proofs.Document.Layer
import SceneMarkup.Proofs.Style.Run

set_option autoImplicit false

namespace SceneMarkup

namespace Run

/-! ## Runs one behind the other -/

/-- Runs that lie one behind the other between two positions, none of them empty. -/
def Tile : Nat → Nat → List Run → Prop
  | start, finish, [] => start = finish
  | start, finish, run :: rest => run.start = start ∧ start < run.stop ∧ Tile run.stop finish rest

/-- The part of a list that is at the place of a run. -/
def slice {α : Type} (run : Run) (items : List α) : List α :=
  (items.drop run.start).take (run.stop - run.start)

/-- The characters of a run, each with the style of the run. -/
def styled (run : Run) : List (Char × Nat) := run.characters.map fun c => (c, run.styleId)

variable {α : Type} {start finish : Nat} {run : Run} {runs : List Run}

theorem stop_sub_start (run : Run) : run.stop - run.start = run.characters.length :=
  Nat.add_sub_cancel_left _ _

theorem length_styled (run : Run) : run.styled.length = run.characters.length :=
  List.length_map _

theorem getElem?_slice {k : Nat} (h : k < run.characters.length) (items : List α) :
    (run.slice items)[k]? = items[run.start + k]? := by
  rw [slice, stop_sub_start, List.getElem?_take_of_lt h, List.getElem?_drop]

theorem map_slice {β : Type} (f : α → β) (run : Run) (items : List α) :
    (run.slice items).map f = run.slice (items.map f) := by
  rw [slice, List.map_take, List.map_drop, slice]

theorem characters_ne_nil_of_lt (h : run.start < run.stop) : run.characters ≠ [] := by
  rw [← List.length_pos_iff, ← stop_sub_start]
  exact Nat.sub_pos_of_lt h

namespace Tile

theorem start_le_finish (h : Tile start finish runs) : start ≤ finish := by
  induction runs generalizing start with
  | nil => exact Nat.le_of_eq h
  | cons run rest ih => exact Nat.le_trans (Nat.le_of_lt h.2.1) (ih h.2.2)

theorem bounds (h : Tile start finish runs) :
    ∀ run ∈ runs, start ≤ run.start ∧ run.start < run.stop ∧ run.stop ≤ finish := by
  induction runs generalizing start with
  | nil => exact List.forall_mem_nil _
  | cons first rest ih =>
      obtain ⟨rfl, hlt, hrest⟩ := h
      rw [List.forall_mem_cons]
      refine ⟨⟨Nat.le_refl _, hlt, hrest.start_le_finish⟩, fun run hrun => ?_⟩
      obtain ⟨hstart, hrun⟩ := ih hrest run hrun
      exact ⟨Nat.le_trans (Nat.le_of_lt hlt) hstart, hrun⟩

/-- Every position between the two is in a run. -/
theorem exists_mem (h : Tile start finish runs) {i : Nat} (hstart : start ≤ i)
    (hfinish : i < finish) :
    ∃ run ∈ runs, run.start ≤ i ∧ i < run.stop := by
  induction runs generalizing start with
  | nil => exact absurd hfinish (Nat.not_lt.2 (Nat.le_trans (Nat.le_of_eq h.symm) hstart))
  | cons first rest ih =>
      obtain ⟨rfl, -, hrest⟩ := h
      rcases Nat.lt_or_ge i first.stop with hi | hi
      · exact ⟨first, List.mem_cons_self, hstart, hi⟩
      · obtain ⟨run, hrun, hin⟩ := ih hrest hi
        exact ⟨run, List.mem_cons_of_mem _ hrun, hin⟩

/-- The parts of a list at the places of the runs make up all that is between the two positions. -/
theorem flatMap_slice (h : Tile start finish runs) (items : List α) :
    runs.flatMap (·.slice items) = (items.drop start).take (finish - start) := by
  induction runs generalizing start with
  | nil =>
      cases h
      rw [List.flatMap_nil, Nat.sub_self, List.take_zero]
  | cons run rest ih =>
      obtain ⟨rfl, hlt, hrest⟩ := h
      have hsplit : finish - run.start = (run.stop - run.start) + (finish - run.stop) := by
        have := hrest.start_le_finish
        omega
      have hnext : run.start + (run.stop - run.start) = run.stop :=
        Nat.add_sub_of_le (Nat.le_of_lt hlt)
      rw [List.flatMap_cons, ih hrest, hsplit, List.take_add, List.drop_drop, hnext, slice]

/-- What is listed for the characters of the runs is found again at their places. -/
theorem slice_flatMap {f : Run → List α} (hlength : ∀ run, (f run).length = run.characters.length)
    (h : Tile start finish runs) :
    ∀ run ∈ runs,
      ((runs.flatMap f).drop (run.start - start)).take (run.stop - run.start) = f run := by
  induction runs generalizing start with
  | nil => exact List.forall_mem_nil _
  | cons first rest ih =>
      obtain ⟨rfl, -, hrest⟩ := h
      rw [List.forall_mem_cons]
      constructor
      · rw [Nat.sub_self, List.drop_zero, List.flatMap_cons, stop_sub_start, ← hlength,
          List.take_left]
      · intro run hrun
        have hplace : run.start - first.start = (f first).length + (run.start - first.stop) := by
          have := (hrest.bounds run hrun).1
          rw [hlength, ← stop_sub_start]
          rw [stop] at this ⊢
          omega
        rw [hplace, List.flatMap_cons, List.drop_length_add_append]
        exact ih hrest run hrun

end Tile

/-! ## One run in front of others -/

/-- Runs with one more in front, which is joined with the first if both have the same style. -/
def prepend (run : Run) : List Run → List Run
  | [] => [run]
  | next :: runs =>
      if next.styleId = run.styleId then
        ⟨run.start, run.characters ++ next.characters, run.styleId⟩ :: runs
      else run :: next :: runs

theorem ofStyled_cons (start : Nat) (c : Char) (id : Nat) (rest : List (Char × Nat)) :
    ofStyled start ((c, id) :: rest) = prepend ⟨start, [c], id⟩ (ofStyled (start + 1) rest) := by
  rw [ofStyled]
  cases ofStyled (start + 1) rest with
  | nil => rfl
  | cons next runs => rfl

theorem prepend_of_ne (h : ∀ next ∈ runs.head?, run.styleId ≠ next.styleId) :
    prepend run runs = run :: runs := by
  cases runs with
  | nil => rfl
  | cons next rest => exact if_neg (h next rfl).symm

theorem length_prepend_le (run : Run) (runs : List Run) :
    (prepend run runs).length ≤ (run :: runs).length := by
  cases runs with
  | nil => exact Nat.le_refl _
  | cons next rest =>
      rw [prepend]
      split
      · exact Nat.le_succ _
      · exact Nat.le_refl _

/-- Two runs with the same style are put in front like the run they make. -/
theorem prepend_prepend (start id : Nat) (first others : List Char) (runs : List Run) :
    prepend ⟨start, first, id⟩ (prepend ⟨start + first.length, others, id⟩ runs) =
      prepend ⟨start, first ++ others, id⟩ runs := by
  cases runs with
  | nil => exact if_pos rfl
  | cons next rest =>
      rw [prepend, prepend]
      split
      · rw [prepend, if_pos rfl, List.append_assoc]
      · rw [prepend, if_pos rfl]

theorem tile_prepend (hlt : run.start < run.stop) (h : Tile run.stop finish runs) :
    Tile run.start finish (prepend run runs) := by
  cases runs with
  | nil => exact ⟨rfl, hlt, h⟩
  | cons next rest =>
      rw [prepend]
      split
      · obtain ⟨hstart, hnext, hrest⟩ := h
        have hstop : run.start + (run.characters ++ next.characters).length = next.stop := by
          rw [List.length_append, ← Nat.add_assoc, ← stop, ← hstart, ← stop]
        refine ⟨rfl, ?_, ?_⟩
        · exact Nat.lt_of_lt_of_eq (Nat.lt_trans hlt hnext) hstop.symm
        · rw [stop, hstop]
          exact hrest
      · exact ⟨rfl, hlt, h⟩

theorem flatMap_styled_prepend (run : Run) (runs : List Run) :
    (prepend run runs).flatMap styled = run.styled ++ runs.flatMap styled := by
  cases runs with
  | nil => rfl
  | cons next rest =>
      rw [prepend]
      split
      · rename_i hsame
        rw [List.flatMap_cons, List.flatMap_cons, ← List.append_assoc, styled, styled, styled,
          List.map_append, hsame]
      · rfl

/-- Runs of which no two in a row have the same style. -/
abbrev Differ (runs : List Run) : Prop := runs.IsChain fun run next => run.styleId ≠ next.styleId

theorem differ_prepend (run : Run) (h : Differ runs) : Differ (prepend run runs) := by
  cases runs with
  | nil => exact List.IsChain.singleton _
  | cons next rest =>
      rw [prepend]
      split
      · rename_i hsame
        cases rest with
        | nil => exact List.IsChain.singleton _
        | cons following rest =>
            rw [Differ, List.isChain_cons_cons] at h ⊢
            exact ⟨hsame ▸ h.1, h.2⟩
      · rename_i hother
        exact List.IsChain.cons_cons (Ne.symm hother) h

/-! ## The runs of characters with styles -/

theorem tile_ofStyled (start : Nat) (items : List (Char × Nat)) :
    Tile start (start + items.length) (ofStyled start items) := by
  induction items generalizing start with
  | nil => rfl
  | cons first rest ih =>
      have hrest := ih (start + 1)
      rw [Nat.add_assoc, Nat.add_comm 1] at hrest
      rw [ofStyled_cons]
      exact @tile_prepend _ ⟨start, [first.1], first.2⟩ _ (Nat.lt_succ_self start) hrest

theorem flatMap_styled_ofStyled (start : Nat) (items : List (Char × Nat)) :
    (ofStyled start items).flatMap styled = items := by
  induction items generalizing start with
  | nil => rfl
  | cons first rest ih =>
      rw [ofStyled_cons, flatMap_styled_prepend, ih]
      rfl

theorem differ_ofStyled (start : Nat) (items : List (Char × Nat)) :
    Differ (ofStyled start items) := by
  induction items generalizing start with
  | nil => exact List.IsChain.nil
  | cons first rest ih =>
      rw [ofStyled_cons]
      exact differ_prepend _ (ih _)

theorem ofStyled_styled_append (start id : Nat) (characters : List Char) (hne : characters ≠ [])
    (more : List (Char × Nat)) :
    ofStyled start ((characters.map fun c => (c, id)) ++ more) =
      prepend ⟨start, characters, id⟩ (ofStyled (start + characters.length) more) := by
  induction characters generalizing start with
  | nil => exact absurd rfl hne
  | cons c rest ih =>
      rw [List.map_cons, List.cons_append, ofStyled_cons]
      cases rest with
      | nil => rfl
      | cons next rest =>
          have hstop : start + (c :: next :: rest).length = start + 1 + (next :: rest).length := by
            rw [List.length_cons, Nat.add_assoc, Nat.add_comm 1]
          rw [ih (start + 1) (List.cons_ne_nil _ _), hstop]
          exact prepend_prepend start id [c] (next :: rest) _

/-- The characters of runs are not cut into more of them. -/
theorem length_ofStyled_le (h : Tile start finish runs) :
    (ofStyled start (runs.flatMap styled)).length ≤ runs.length := by
  induction runs generalizing start with
  | nil => exact Nat.le_refl _
  | cons run rest ih =>
      obtain ⟨rfl, hlt, hrest⟩ := h
      rw [List.flatMap_cons, styled, ofStyled_styled_append _ _ _ (characters_ne_nil_of_lt hlt)]
      exact Nat.le_trans (length_prepend_le _ _) (Nat.succ_le_succ (ih hrest))

/-- Runs that differ are found again. -/
theorem ofStyled_flatMap_styled (h : Tile start finish runs) (hdiffer : Differ runs) :
    ofStyled start (runs.flatMap styled) = runs := by
  induction runs generalizing start with
  | nil => rfl
  | cons run rest ih =>
      obtain ⟨rfl, hlt, hrest⟩ := h
      rw [Differ, List.isChain_cons] at hdiffer
      rw [List.flatMap_cons, styled, ofStyled_styled_append _ _ _ (characters_ne_nil_of_lt hlt)]
      change prepend run (ofStyled run.stop _) = _
      rw [ih hrest hdiffer.2, prepend_of_ne hdiffer.1]

end Run

/-! ## The style of a character -/

namespace StyleRange

/-- The id that a range gives to a position, if it is in the range. None is in a range that ends
before it starts. -/
def idAt? (range : StyleRange) (i : Nat) : Option Nat :=
  if range.start ≤ i ∧ i < range.stop then some range.styleId else none

/-- The part of a range within a text of a given length. -/
def clamp (length : Nat) (range : StyleRange) : StyleRange :=
  ⟨min range.start length, min range.stop length, range.styleId⟩

theorem idAt?_clamp {length i : Nat} (h : i < length) (range : StyleRange) :
    (range.clamp length).idAt? i = range.idAt? i := by
  have hcovers : min range.start length ≤ i ∧ i < min range.stop length ↔
      range.start ≤ i ∧ i < range.stop := by omega
  rw [idAt?, idAt?]
  exact if_congr hcovers rfl rfl

/-- What becomes of a range when a document is read covers the same characters of the text. -/
theorem idAt?_styleRange {length i : Nat} (h : i < length) (id : String) (range : StyleRange) :
    ((Document.styleRange id length range).value.bind fun kept => kept.idAt? i) =
      range.idAt? i := by
  rw [Document.styleRange]
  split
  · rename_i hreversed
    exact (if_neg (by omega)).symm
  · exact range.idAt?_clamp h

end StyleRange

namespace TextBlock

/-- The ids that ranges give to a position, in order. -/
def rangeIds (ranges : List StyleRange) (i : Nat) : List Nat :=
  ranges.filterMap fun range => range.idAt? i

/-- The style of the character at a position: what the last range says that covers it, or else what
is said about the character itself. An id without a style is zero, as is that of a character about
which nothing is said. -/
def styleAt (text : TextBlock) (i : Nat) : Nat :=
  let id := (rangeIds text.ranges i).getLast?.getD (text.characterStyles[i]?.getD 0)
  if text.overrides.has id then id else 0

theorem getElem?_ownStyles {length i : Nat} (h : i < length) (given : List Nat) :
    (ownStyles length given)[i]? = some (given[i]?.getD 0) := by
  rw [ownStyles, List.getElem?_append, List.length_take]
  split
  · rename_i hi
    rw [List.getElem?_take_of_lt h, List.getElem?_eq_getElem (by omega), Option.getD_some]
  · rename_i hi
    rw [List.getElem?_replicate_of_lt (by omega), List.getElem?_eq_none (by omega),
      Option.getD_none]

theorem getElem?_applyRange (ids : List Nat) (range : StyleRange) (i : Nat) :
    (applyRange ids range)[i]? = ids[i]?.map fun id => (range.idAt? i).getD id := by
  rw [applyRange, List.getElem?_mapIdx, StyleRange.idAt?]
  split
  · rfl
  · rfl

/-- After all ranges a position has the id that the last of them gives to it. -/
theorem getElem?_foldl_applyRange (ranges : List StyleRange) (ids : List Nat) (i : Nat) :
    (ranges.foldl applyRange ids)[i]? =
      ids[i]?.map fun id => (rangeIds ranges i).getLast?.getD id := by
  induction ranges generalizing ids with
  | nil => exact Option.map_id'.symm
  | cons range rest ih =>
      rw [List.foldl_cons, ih, getElem?_applyRange, Option.map_map, rangeIds, rangeIds,
        List.filterMap_cons]
      cases range.idAt? i with
      | none => rfl
      | some given =>
          dsimp only
          rw [List.getLast?_cons]
          rfl

/-- The style ids of a text are those of its characters one by one. -/
theorem styleIds_eq (text : TextBlock) :
    text.styleIds = (List.range text.characters.toList.length).map text.styleAt := by
  refine List.ext_getElem? fun i => ?_
  rcases Nat.lt_or_ge i text.characters.toList.length with hi | hi
  · rw [styleIds, List.getElem?_map, getElem?_foldl_applyRange, getElem?_ownStyles hi,
      List.getElem?_map, List.getElem?_range hi]
    rfl
  · rw [List.getElem?_eq_none (text.length_styleIds ▸ hi),
      List.getElem?_eq_none (by rwa [List.length_map, List.length_range])]

/-- Texts with the same characters, of which each has the same style, have the same runs. -/
theorem runs_congr {text other : TextBlock} (hcharacters : text.characters = other.characters)
    (hstyles : ∀ i < other.characters.toList.length, text.styleAt i = other.styleAt i) :
    text.runs = other.runs := by
  have hids : text.styleIds = other.styleIds := by
    rw [styleIds_eq, styleIds_eq, hcharacters]
    exact List.map_congr_left fun i hi => hstyles i (List.mem_range.1 hi)
  rw [runs, runs, hids, hcharacters]

/-- Ids behind the last character and what is not covered in the text do not count. -/
theorem styleAt_within (text : TextBlock) {length i : Nat} (h : i < length)
    {ranges : List StyleRange} (hranges : rangeIds ranges i = rangeIds text.ranges i) :
    styleAt { text with characterStyles := text.characterStyles.take length, ranges := ranges } i =
      text.styleAt i := by
  rw [styleAt, styleAt, hranges, List.getElem?_take_of_lt h]

theorem rangeIds_map_clamp {length i : Nat} (h : i < length) (ranges : List StyleRange) :
    rangeIds (ranges.map (·.clamp length)) i = rangeIds ranges i := by
  rw [rangeIds, List.filterMap_map]
  exact List.filterMap_congr fun range _ => range.idAt?_clamp h

theorem rangeIds_styleRange {length i : Nat} (h : i < length) (id : String)
    (ranges : List StyleRange) :
    rangeIds (Noted.some (Document.styleRange id length) ranges).value i = rangeIds ranges i := by
  rw [rangeIds, Noted.value_some, List.filterMap_filterMap]
  exact List.filterMap_congr fun range _ => range.idAt?_styleRange h id

theorem value_characterStyles (id : String) (length : Nat) (given : List Nat) :
    (Document.characterStyles id length given).value = given.take length := by
  rw [Document.characterStyles]
  split
  · rfl
  · rename_i hle
    exact (List.take_of_length_le (Nat.le_of_not_lt hle)).symm

/-! ## Splitting a text -/

/-- Runs that make up a text: they lie one behind the other from its first character to its last,
and each has the characters at its place and their style. -/
structure SplitInto (text : TextBlock) (runs : List Run) : Prop where
  tile : Run.Tile 0 text.characters.toList.length runs
  characters : ∀ run ∈ runs, run.characters = run.slice text.characters.toList
  styles : ∀ run ∈ runs, ∀ i, run.start ≤ i → i < run.stop → run.styleId = text.styleAt i

/-- The characters of a text with their styles. -/
def styled (text : TextBlock) : List (Char × Nat) := text.characters.toList.zip text.styleIds

theorem runs_eq (text : TextBlock) : text.runs = Run.ofStyled 0 text.styled := rfl

theorem map_fst_styled (text : TextBlock) : text.styled.map (·.1) = text.characters.toList :=
  List.map_fst_zip (Nat.le_of_eq text.length_styleIds.symm)

theorem length_styled (text : TextBlock) :
    text.styled.length = text.characters.toList.length := by
  rw [← map_fst_styled, List.length_map]

theorem getElem?_styled (text : TextBlock) (i : Nat) :
    text.styled[i]? = text.characters.toList[i]?.map fun c => (c, text.styleAt i) := by
  rcases Nat.lt_or_ge i text.characters.toList.length with hi | hi
  · rw [styled, List.zip, List.getElem?_zipWith, styleIds_eq, List.getElem?_map,
      List.getElem?_range hi, List.getElem?_eq_getElem hi]
    rfl
  · rw [List.getElem?_eq_none (text.length_styled ▸ hi), List.getElem?_eq_none hi, Option.map_none]

/-- A run has the characters and the style of its place if it is that place of the text. -/
theorem characters_of_styled_eq {text : TextBlock} {run : Run}
    (h : run.styled = run.slice text.styled) :
    run.characters = run.slice text.characters.toList := by
  rw [← map_fst_styled, ← Run.map_slice, ← h, Run.styled, List.map_map]
  exact (List.map_id _).symm

theorem styles_of_styled_eq {text : TextBlock} {run : Run}
    (h : run.styled = run.slice text.styled) {i : Nat} (hstart : run.start ≤ i)
    (hstop : i < run.stop) : run.styleId = text.styleAt i := by
  obtain ⟨k, rfl⟩ := Nat.exists_eq_add_of_le hstart
  have hk : k < run.characters.length := Nat.lt_of_add_lt_add_left hstop
  have hplace : run.styled[k]? = (run.slice text.styled)[k]? := by rw [← h]
  rw [Run.getElem?_slice hk, getElem?_styled, Run.styled, List.getElem?_map,
    List.getElem?_eq_getElem hk, Option.map_some] at hplace
  obtain ⟨c, -, hc⟩ := Option.map_eq_some_iff.1 hplace.symm
  exact (congrArg Prod.snd hc).symm

theorem styled_eq_slice {text : TextBlock} {run : Run}
    (hcharacters : run.characters = run.slice text.characters.toList)
    (hstyles : ∀ i, run.start ≤ i → i < run.stop → run.styleId = text.styleAt i) :
    run.styled = run.slice text.styled := by
  refine List.ext_getElem? fun k => ?_
  rcases Nat.lt_or_ge k run.characters.length with hk | hk
  · have hstyle := hstyles (run.start + k) (Nat.le_add_right _ _) (Nat.add_lt_add_left hk _)
    have hchar := Run.getElem?_slice hk text.characters.toList
    rw [← hcharacters] at hchar
    rw [Run.getElem?_slice hk, getElem?_styled, Run.styled, List.getElem?_map, hchar, hstyle]
  · have hlength : (run.slice text.styled).length ≤ k :=
      Nat.le_trans (List.length_take_le _ _) (run.stop_sub_start ▸ hk)
    rw [List.getElem?_eq_none (run.length_styled ▸ hk), List.getElem?_eq_none hlength]

/-- A text is split into its runs. -/
theorem splitInto_runs (text : TextBlock) : text.SplitInto text.runs := by
  have htile := Run.tile_ofStyled 0 text.styled
  rw [Nat.zero_add, length_styled] at htile
  have hplace : ∀ run ∈ text.runs, run.styled = run.slice text.styled := by
    intro run hrun
    have hfound := htile.slice_flatMap Run.length_styled run hrun
    rw [Run.flatMap_styled_ofStyled] at hfound
    exact hfound.symm
  exact ⟨htile, fun run hrun => characters_of_styled_eq (hplace run hrun),
    fun run hrun _ => styles_of_styled_eq (hplace run hrun)⟩

/-- Whatever a text is split into has its characters with their styles. -/
theorem SplitInto.flatMap_styled {text : TextBlock} {runs : List Run} (h : text.SplitInto runs) :
    runs.flatMap Run.styled = text.styled := by
  have hplace : runs.flatMap Run.styled = runs.flatMap (·.slice text.styled) :=
    List.flatMap_congr fun run hrun => styled_eq_slice (h.characters run hrun) (h.styles run hrun)
  rw [hplace, h.tile.flatMap_slice, ← length_styled, List.drop_zero, Nat.sub_zero, List.take_length]

/-- The runs of a text split it, from its first character to its last, with nothing between them and
nothing twice; together they are its characters. They are the only runs that do so and of which no
two in a row have the same style, and no fewer runs do. Each character has the style that is said
for it. Ids and ranges beyond the end of the text change nothing, nor does cutting them off, as is
done when a document is read. -/
theorem runs_exact (text : TextBlock) :
    text.SplitInto text.runs ∧ Run.Differ text.runs ∧
      String.join (text.runs.map Run.text) = text.characters ∧
      (∀ runs, text.SplitInto runs → Run.Differ runs → runs = text.runs) ∧
      (∀ runs, text.SplitInto runs → text.runs.length ≤ runs.length) ∧
      (∀ i < text.characters.toList.length, ∃ run ∈ text.runs,
        run.start ≤ i ∧ i < run.stop ∧ run.styleId = text.styleAt i) ∧
      TextBlock.runs { text with
        characterStyles := text.characterStyles.take text.characters.toList.length
        ranges := text.ranges.map (·.clamp text.characters.toList.length) } = text.runs ∧
      ∀ id, TextBlock.runs { text with
        characterStyles :=
          (Document.characterStyles id text.characters.toList.length text.characterStyles).value
        ranges := (Noted.some (Document.styleRange id text.characters.toList.length)
          text.ranges).value } = text.runs := by
  have hsplit := text.splitInto_runs
  refine ⟨hsplit, Run.differ_ofStyled _ _, ?_, ?_, ?_, ?_, ?_, ?_⟩
  · rw [← String.toList_inj, String.toList_join, List.flatMap_map, ← flatMap_characters_runs]
    exact List.flatMap_congr fun run _ => String.toList_ofList
  · intro runs h hdiffer
    rw [runs_eq, ← h.flatMap_styled, Run.ofStyled_flatMap_styled h.tile hdiffer]
  · intro runs h
    rw [runs_eq, ← h.flatMap_styled]
    exact Run.length_ofStyled_le h.tile
  · intro i hi
    obtain ⟨run, hrun, hstart, hstop⟩ := hsplit.tile.exists_mem (Nat.zero_le i) hi
    exact ⟨run, hrun, hstart, hstop, hsplit.styles run hrun i hstart hstop⟩
  · exact runs_congr rfl fun i hi => text.styleAt_within hi (rangeIds_map_clamp hi text.ranges)
  · intro id
    rw [value_characterStyles]
    exact runs_congr rfl fun i hi => text.styleAt_within hi (rangeIds_styleRange hi id text.ranges)

/-- Runs merge where an id has no style, and where a later range takes back what an earlier one
gave. A reversed range covers nothing, and one that goes on behind the text ends with it. -/
example :
    let italic : StyleOverride :=
      ⟨none, none, none, none, none, some true, none, none, none⟩
    let text : TextBlock :=
      { characters := "abcdef", style := .ofFont "Inter" 400 16
        characterStyles := [7, 0, 1, 1, 1], overrides := [(1, italic)]
        ranges := [⟨3, 9, 1⟩, ⟨5, 2, 1⟩, ⟨3, 4, 0⟩] }
    text.runs = [⟨0, ['a', 'b'], 0⟩, ⟨2, ['c'], 1⟩, ⟨3, ['d'], 0⟩, ⟨4, ['e', 'f'], 1⟩] := by
  decide

end TextBlock

end SceneMarkup
