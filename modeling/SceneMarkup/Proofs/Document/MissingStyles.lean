/-
  SceneMarkup/Proofs/Document/MissingStyles.lean --- ids of a text that have no style.

  WHAT THIS FILE IS FOR.  Reading a document and splitting a text into runs look at the
  ids of a text apart from each other: the one warns of ids that have no style, the other
  gives their characters the base style.  Here both are held against the data that the
  document states: the ids that are warned of are exactly those that are used there and
  have no style (`those_textBlock`, `mem_missingStyles`), and no character gets the base
  style for another reason than that it is given no id, or the id zero.
-/
import SceneMarkup.Proofs.Document.Gradients
import SceneMarkup.Proofs.Style.Tiling

set_option autoImplicit false

namespace SceneMarkup

open RoseTree (labelsIn)

/-! ## Lists in increasing order -/

namespace Document

theorem mem_insertIncreasing {id n : Nat} {ids : List Nat} :
    n ∈ insertIncreasing id ids ↔ n = id ∨ n ∈ ids := by
  induction ids with
  | nil => exact List.mem_singleton.trans (or_iff_left List.not_mem_nil).symm
  | cons first rest ih =>
      rw [insertIncreasing]
      split
      · rw [List.mem_cons, ih, List.mem_cons, or_left_comm]
      · split
        · rename_i hsame
          rw [List.mem_cons, hsame, or_self_left]
        · exact List.mem_cons

theorem increasing_insertIncreasing (id : Nat) {ids : List Nat} (h : ids.Pairwise (· < ·)) :
    (insertIncreasing id ids).Pairwise (· < ·) := by
  induction ids with
  | nil => exact List.pairwise_singleton _ _
  | cons first rest ih =>
      obtain ⟨hfirst, hrest⟩ := List.pairwise_cons.1 h
      rw [insertIncreasing]
      split
      · rename_i hbefore
        refine List.pairwise_cons.2 ⟨fun n hn => ?_, ih hrest⟩
        rcases mem_insertIncreasing.1 hn with rfl | hn
        · exact hbefore
        · exact hfirst n hn
      · split
        · exact h
        · rename_i hnotBefore hne
          have hlt : id < first := by omega
          exact List.pairwise_cons.2
            ⟨List.forall_mem_cons.2 ⟨hlt, fun n hn => Nat.lt_trans hlt (hfirst n hn)⟩, h⟩

theorem mem_missingStyles {table : OverrideTable} {used : List Nat} {n : Nat} :
    n ∈ missingStyles table used ↔ n ∈ used ∧ n ≠ 0 ∧ table.has n = false := by
  have hmem : ∀ ids : List Nat, n ∈ ids.foldr insertIncreasing [] ↔ n ∈ ids := by
    intro ids
    induction ids with
    | nil => exact Iff.rfl
    | cons id rest ih => rw [List.foldr_cons, mem_insertIncreasing, ih, List.mem_cons]
  rw [missingStyles, hmem, List.mem_filter]
  simp

theorem increasing_missingStyles (table : OverrideTable) (used : List Nat) :
    (missingStyles table used).Pairwise (· < ·) := by
  rw [missingStyles]
  generalize used.filter (fun id => id != 0 && !table.has id) = ids
  induction ids with
  | nil => exact List.Pairwise.nil
  | cons id rest ih => exact increasing_insertIncreasing id ih

end Document

/-! ## Warnings -/

/-- How a warning of an id without a style ends. -/
def missingEnding : String := " not found in table, base style used"

/-- Whether a warning says that an id has no style. -/
def Diagnostic.statesMissing (d : Diagnostic) : Bool :=
  d.severity == .warning && endsIn missingEnding d.message

namespace Document

open Json (Fields Value)
open Noted (NoErrors each_bind those_bind those_eq_nil those_pure value_bind value_some)

variable {id : String} {source : NodeSource} {text : TextBlock}

theorem statesMissing_missingNote (id : String) (n : Nat) :
    (missingNote id n).statesMissing = true := endsIn_append_self _ _

theorem statesMissing_warning {ending : String} (id start : String)
    (h : endsIn missingEnding ending = false) (h' : endsIn ending missingEnding = false) :
    (Diagnostic.warning id (start ++ ending)).statesMissing = false :=
  endsIn_append_eq_false start h h'

theorem worded_statesMissing (id : String) : Worded id fun d => d.statesMissing = false where
  error _ := rfl
  unknown start := statesMissing_warning id start (by decide) (by decide)
  ignored _ := rfl
  disorder start := statesMissing_warning id start (by decide) (by decide)

/-- The warnings that are given for ids without a style say so. -/
theorem those_remarkMissing (ids : List Nat) :
    (remarkMissing id ids).those Diagnostic.statesMissing = ids.map (missingNote id) :=
  List.filter_eq_self.2 (List.forall_mem_map.2 fun n _ => statesMissing_missingNote id n)

/-- Of the ids of a text those that have no style are warned of, and no others. -/
theorem those_textBlock (h : (textBlock id source).value = some text) :
    (textBlock id source).those Diagnostic.statesMissing =
      (missingStyles text.overrides
        (text.characterStyles ++ text.ranges.map (·.styleId))).map (missingNote id) := by
  have hworded := worded_statesMissing id
  have hplain := hworded.toPlain
  rw [textBlock, value_bind] at h
  rw [textBlock, those_bind, those_eq_nil (each_textBase hplain source), List.nil_append]
  generalize (textBase id source).value = base at h ⊢
  cases base with
  | none => cases h
  | some base =>
      obtain ⟨characters, style⟩ := base
      cases h
      simp only [those_bind, those_pure, List.append_nil, List.nil_append,
        those_eq_nil (each_overrideTable hworded _ _),
        those_eq_nil (each_characterStyles hplain _ _),
        those_eq_nil (Noted.each_some.2 fun range _ => each_styleRange hplain _ range),
        those_remarkMissing]

/-- The layer of a text has the text that is read for it, and no other part of it is warned of as an
id without a style. -/
theorem those_layer {built : Layer} (h : (layer id .text source).value = some built)
    (htext : built.kind = .text text) :
    (textBlock id source).value = some text ∧
      (layer id .text source).those Diagnostic.statesMissing =
        (textBlock id source).those Diagnostic.statesMissing := by
  have hworded := worded_statesMissing id
  have hplain := hworded.toPlain
  rw [layer, value_bind, value_bind, nodeKind, value_bind] at h
  rw [layer, those_bind, those_bind, those_eq_nil (each_bounds hplain _), List.nil_append, nodeKind,
    those_bind, value_bind]
  cases hblock : (textBlock id source).value with
  | none =>
      rw [hblock] at h
      cases h
  | some block =>
      rw [hblock] at h
      cases h
      cases htext
      refine ⟨rfl, ?_⟩
      simp only [Option.map_some, Noted.value_pure, those_bind, those_pure, List.append_nil,
        those_eq_nil (each_keyword hplain _ _ _ _), those_eq_nil (each_paints hworded _ _)]

/-! ## The text that a document states -/

/-- The id that a document gives to a character: that of the last range which covers it, or else
its own. -/
def NodeSource.givenId (source : NodeSource) (i : Nat) : Nat :=
  (TextBlock.rangeIds source.ranges i).getLast?.getD (source.characterStyles[i]?.getD 0)

/-- An id other than zero that a document gives to one of `length` characters or to a range, and
for which it states no style. -/
structure NodeSource.Misses (source : NodeSource) (length n : Nat) : Prop where
  ne_zero : n ≠ 0
  used : (∃ i < length, source.characterStyles[i]? = some n) ∨
    ∃ range ∈ source.ranges, range.styleId = n
  noStyle : ∀ entry ∈ source.overrides, styleId? entry.1 ≠ some n

/-- A text has the characters, the ids and the styles that a document states. Ids behind the last
character are cut off, and ranges end with the text. -/
structure NodeSource.States (source : NodeSource) (text : TextBlock) : Prop where
  characters : source.characters = some text.characters
  characterStyles : text.characterStyles =
    source.characterStyles.take text.characters.toList.length
  ranges : text.ranges = source.ranges.map (·.clamp text.characters.toList.length)
  has_iff : ∀ n, text.overrides.has n = true ↔
    ∃ entry ∈ source.overrides, styleId? entry.1 = some n

theorem isSome_lastStyle?_iff {n : Nat} {overrides : List (String × StyleSource)} :
    (lastStyle? n overrides).isSome = true ↔ ∃ entry ∈ overrides, styleId? entry.1 = some n := by
  rw [lastStyle?, Option.isSome_map, List.getLast?_isSome, ne_eq, List.filter_eq_nil_iff]
  simp

theorem has_eq_isSome_get? (table : OverrideTable) (n : Nat) :
    table.has n = (table.get? n).isSome := by
  rw [OverrideTable.has, OverrideTable.get?, Option.isSome_map, List.isSome_find?]

theorem has_overrideTable_iff {n : Nat} {overrides : List (String × StyleSource)} :
    (overrideTable id [] overrides).value.has n = true ↔
      ∃ entry ∈ overrides, styleId? entry.1 = some n := by
  have hnone : OverrideTable.get? [] n = none := rfl
  rw [has_eq_isSome_get?, get?_overrideTable, hnone, Option.or_none, Option.isSome_map,
    isSome_lastStyle?_iff]

theorem characters_of_textBase {characters : String} {style : TextStyle}
    (h : (textBase id source).value = some (characters, style)) :
    source.characters = some characters := by
  unfold textBase at h
  split at h
  · cases h
  · cases h
  · rename_i stated _ hcharacters _
    obtain ⟨_, -, heq⟩ := Option.map_eq_some_iff.1 h
    cases heq
    exact hcharacters

/-- A range about which nothing is wrong ends with the text, if not before. -/
theorem value_styleRange {length : Nat} {range : StyleRange}
    (h : (styleRange id length range).NoErrors) :
    (styleRange id length range).value = some (range.clamp length) := by
  unfold styleRange at h ⊢
  split at h
  · exact absurd h (not_noErrors_fail _ _)
  · rename_i horder
    rw [if_neg horder]
    rfl

theorem value_styleRanges {length : Nat} {ranges : List StyleRange}
    (h : (Noted.some (styleRange id length) ranges).NoErrors) :
    (Noted.some (styleRange id length) ranges).value = ranges.map (·.clamp length) := by
  have hranges := Noted.each_some.1 h
  rw [value_some, ← List.filterMap_eq_map]
  exact List.filterMap_congr fun range hrange => value_styleRange (hranges range hrange)

/-- A text about which nothing is wrong is the one that the document states. -/
theorem states_of_textBlock (hnoErrors : (textBlock id source).NoErrors)
    (h : (textBlock id source).value = some text) : source.States text := by
  rw [textBlock, NoErrors, each_bind] at hnoErrors
  rw [textBlock, value_bind] at h
  cases hbase : (textBase id source).value with
  | none =>
      rw [hbase] at h
      cases h
  | some base =>
      obtain ⟨characters, style⟩ := base
      rw [hbase] at hnoErrors h
      cases h
      simp only [each_bind] at hnoErrors
      exact ⟨characters_of_textBase hbase, TextBlock.value_characterStyles _ _ _,
        value_styleRanges hnoErrors.2.2.2.1, fun n => has_overrideTable_iff⟩

/-- The id that is given to a character is its own or that of a range. -/
theorem used_of_givenId {length i : Nat} (hi : i < length) (hne : source.givenId i ≠ 0) :
    (∃ k < length, source.characterStyles[k]? = some (source.givenId i)) ∨
      ∃ range ∈ source.ranges, range.styleId = source.givenId i := by
  cases hlast : (TextBlock.rangeIds source.ranges i).getLast? with
  | some id =>
      have hgiven : source.givenId i = id := by rw [NodeSource.givenId, hlast, Option.getD_some]
      obtain ⟨range, hrange, hid⟩ := List.mem_filterMap.1 (List.mem_of_getLast? hlast)
      rw [StyleRange.idAt?, Option.ite_none_right_eq_some, Option.some.injEq] at hid
      exact .inr ⟨range, hrange, hid.2.trans hgiven.symm⟩
  | none =>
      have hgiven : source.givenId i = source.characterStyles[i]?.getD 0 := by
        rw [NodeSource.givenId, hlast, Option.getD_none]
      rw [hgiven] at hne ⊢
      cases hown : source.characterStyles[i]? with
      | none =>
          rw [hown] at hne
          exact absurd rfl hne
      | some id => exact .inl ⟨i, hi, hown⟩

namespace NodeSource.States

/-- A text has the ids of the characters and ranges that are stated, apart from those of characters
that there are not. -/
theorem mem_used_iff (h : source.States text) {n : Nat} :
    n ∈ text.characterStyles ++ text.ranges.map (·.styleId) ↔
      (∃ i < text.characters.toList.length, source.characterStyles[i]? = some n) ∨
        ∃ range ∈ source.ranges, range.styleId = n := by
  have hranges : text.ranges.map (·.styleId) = source.ranges.map (·.styleId) := by
    rw [h.ranges, List.map_map]
    rfl
  rw [List.mem_append, hranges, List.mem_map, h.characterStyles, List.mem_iff_getElem?]
  refine or_congr_left (exists_congr fun i => ?_)
  rw [List.getElem?_take, Option.ite_none_right_eq_some]

theorem mem_missingStyles_iff (h : source.States text) {n : Nat} :
    n ∈ missingStyles text.overrides (text.characterStyles ++ text.ranges.map (·.styleId)) ↔
      source.Misses text.characters.toList.length n := by
  have hnone : text.overrides.has n = false ↔
      ∀ entry ∈ source.overrides, styleId? entry.1 ≠ some n := by
    rw [← Bool.not_eq_true, h.has_iff]
    simp only [not_exists, not_and, ne_eq]
  rw [mem_missingStyles, h.mem_used_iff, hnone]
  exact ⟨fun ⟨used, hne, noStyle⟩ => ⟨hne, used, noStyle⟩,
    fun hmisses => ⟨hmisses.used, hmisses.ne_zero, hmisses.noStyle⟩⟩

/-- A character has the style that the document gives to it, if there is one. -/
theorem styleAt_eq (h : source.States text) {i : Nat} (hi : i < text.characters.toList.length) :
    text.styleAt i = if text.overrides.has (source.givenId i) then source.givenId i else 0 := by
  have hgiven : (TextBlock.rangeIds text.ranges i).getLast?.getD
      (text.characterStyles[i]?.getD 0) = source.givenId i := by
    rw [h.ranges, h.characterStyles, TextBlock.rangeIds_map_clamp hi,
      List.getElem?_take_of_lt hi, givenId]
  rw [TextBlock.styleAt, hgiven]

/-- A character that is given an id and has the base style is given an id without a style. -/
theorem misses_givenId (h : source.States text) {i : Nat}
    (hi : i < text.characters.toList.length) (hzero : text.styleAt i = 0)
    (hne : source.givenId i ≠ 0) :
    source.Misses text.characters.toList.length (source.givenId i) where
  ne_zero := hne
  used := used_of_givenId hi hne
  noStyle := by
    intro entry hentry hkey
    rw [h.styleAt_eq hi, if_pos ((h.has_iff _).2 ⟨entry, hentry, hkey⟩)] at hzero
    exact hne hzero

end NodeSource.States

/-! ## Documents -/

section

variable {α : Type} {nameOf : α → String} {remarks : α → Diagnostics} {items : List α}

theorem forNode_flatMap_of_not_mem (h : ∀ a ∈ items, ∀ d ∈ remarks a, d.nodeId = some (nameOf a))
    {id : String} (hid : id ∉ items.map nameOf) :
    Diagnostics.forNode (items.flatMap remarks) id = [] := by
  refine List.filter_eq_nil_iff.2 fun d hd => ?_
  obtain ⟨a, ha, hd⟩ := List.mem_flatMap.1 hd
  rw [h a ha d hd, beq_iff_eq, Option.some.injEq]
  exact fun heq => hid (heq ▸ List.mem_map_of_mem ha)

/-- Of the remarks on some items with different ids, those on one item are those that name its
id. -/
theorem forNode_flatMap (h : ∀ a ∈ items, ∀ d ∈ remarks a, d.nodeId = some (nameOf a))
    (hnodup : (items.map nameOf).Nodup) {a : α} (ha : a ∈ items) :
    Diagnostics.forNode (items.flatMap remarks) (nameOf a) = remarks a := by
  induction items with
  | nil => cases ha
  | cons first rest ih =>
      rw [List.forall_mem_cons] at h
      rw [List.map_cons, List.nodup_cons] at hnodup
      rw [List.flatMap_cons, Diagnostics.forNode, List.filter_append]
      rcases List.mem_cons.1 ha with rfl | ha
      · have hrest := forNode_flatMap_of_not_mem h.2 hnodup.1
        rw [Diagnostics.forNode] at hrest
        rw [hrest, List.append_nil]
        exact List.filter_eq_self.2 fun d hd => by rw [h.1 d hd, beq_self_eq_true]
      · have hne : nameOf first ≠ nameOf a := fun heq =>
          hnodup.1 (heq ▸ List.mem_map_of_mem ha)
        have hfirst : (remarks first).filter (fun d => d.nodeId == some (nameOf a)) = [] :=
          List.filter_eq_nil_iff.2 fun d hd => by
            rw [h.1 d hd, beq_iff_eq, Option.some.injEq]
            exact hne
        rw [hfirst, List.nil_append]
        exact ih h.2 hnodup.2 ha

end

/-- An object that is read as a text states the text, and of its remarks those on ids without a
style are on the ids that the text has and that have none. -/
theorem Usable.states {fields : Fields} (h : Usable fields)
    (htext : (layerOf fields).kind = .text text) :
    ∃ source, stated? fields = some (.text, source) ∧ source.States text ∧
      (remarksOn fields).filter Diagnostic.statesMissing =
        (missingStyles text.overrides
          (text.characterStyles ++ text.ranges.map (·.styleId))).map
            (missingNote (idOf fields)) := by
  have hfound := found_of_noErrors h.isError_eq_false
  unfold layerOf reading at htext
  unfold remarksOn reading
  dsimp only at htext ⊢
  generalize inspectTyped (idOf fields) fields = found at htext hfound ⊢
  cases hfound with
  | @unknown tag htag hclass => cases htext
  | @known tag nodeClass source built htag hclass hdecode hnoErrors hbuilt =>
      rw [Option.getD_some] at htext
      have hmakes := (layer_value hbuilt).2.1
      rw [htext] at hmakes
      cases hmakes
      obtain ⟨hblock, hnotes⟩ := those_layer hbuilt htext
      rw [layer, NoErrors, each_bind, each_bind, nodeKind, each_bind] at hnoErrors
      have hcut : (cutNotes built (childCount fields)).filter Diagnostic.statesMissing = [] :=
        List.filter_eq_nil_iff.2 fun d hd => by
          rw [each_cutNotes (P := fun d => d.statesMissing = false) (fun _ => rfl) d hd]
          exact Bool.false_ne_true
      refine ⟨source, stated?_eq_some htag hclass hdecode,
        states_of_textBlock hnoErrors.2.1.1 hblock, ?_⟩
      rw [List.filter_append, if_neg (by exact Bool.false_ne_true), hcut, List.append_nil]
      exact hnotes.trans (those_textBlock hblock)

/-- The remarks on a node of an accepted document are those on the object that it is read from. -/
theorem Accepted.exists_fields {v : Value} {parsed : Parsed} (h : Accepted v parsed) {entry : Entry}
    (hentry : entry ∈ preorder parsed.tree.roots) :
    ∃ fields ∈ labelsIn (sceneForest v), layerOf fields = entry.layer ∧
      idOf fields = entry.id ∧ parsed.diagnostics.forNode entry.id = remarksOn fields := by
  have hlayer : entry.layer ∈ (preorder parsed.tree.roots).map Entry.layer :=
    List.mem_map_of_mem hentry
  rw [h.map_layer_preorder] at hlayer
  obtain ⟨fields, hfields, heq⟩ := List.mem_map.1 hlayer
  have hid : idOf fields = entry.id := by
    rw [← (h.acceptable.each fields hfields).layerOf_spec.1, heq]
  refine ⟨fields, hfields, heq, hid, ?_⟩
  rw [h.diagnostics_eq, ← hid]
  exact forNode_flatMap (fun _ _ _ => nodeId_of_mem_remarksOn) h.acceptable.nodup_idsIn hfields

/-- Whatever text an accepted document has, its ids without a style are warned of, each once and in
increasing order: these are the ids other than zero that the document gives to characters of the
text or to ranges and for which it states no style. A run in the base style has only characters to
which no id is given, the id zero, or an id that is warned of. -/
theorem missing_styles_reported {v : Value} {parsed : Parsed} (h : ofValue v = .ok parsed)
    {entry : Entry} (hentry : entry ∈ preorder parsed.tree.roots) {text : TextBlock}
    (htext : entry.layer.kind = .text text) :
    ∃ fields ∈ labelsIn (sceneForest v), ∃ source, idOf fields = entry.id ∧
      stated? fields = some (.text, source) ∧ source.States text ∧
      ∃ ids : List Nat, ids.Pairwise (· < ·) ∧
        (parsed.diagnostics.forNode entry.id).filter Diagnostic.statesMissing =
          ids.map (missingNote entry.id) ∧
        (∀ n, n ∈ ids ↔ source.Misses text.characters.toList.length n) ∧
        ∀ run ∈ text.runs, run.styleId = 0 → ∀ i, run.start ≤ i → i < run.stop →
          source.givenId i ≠ 0 → source.givenId i ∈ ids := by
  have haccepted := accepted_of_ofValue h
  obtain ⟨fields, hfields, hlayer, hid, hremarks⟩ := haccepted.exists_fields hentry
  have husable := haccepted.acceptable.each fields hfields
  obtain ⟨source, hstated, hstates, hnotes⟩ := husable.states (hlayer ▸ htext)
  refine ⟨fields, hfields, source, hid, hstated, hstates, _, increasing_missingStyles _ _, ?_,
    fun n => hstates.mem_missingStyles_iff, ?_⟩
  · rw [hremarks, ← hid]
    exact hnotes
  · intro run hrun hzero i hstart hstop hne
    have hsplit := text.splitInto_runs
    have hi : i < text.characters.toList.length :=
      Nat.lt_of_lt_of_le hstop (hsplit.tile.bounds run hrun).2.2
    have hstyle : text.styleAt i = 0 := (hsplit.styles run hrun i hstart hstop).symm.trans hzero
    exact hstates.mem_missingStyles_iff.2 (hstates.misses_givenId hi hstyle hne)

/-- A text with one style, for the id 5. The ids 9 and 7 have none, and neither has 4, which is that
of a character behind the last. -/
def misstyled : Value :=
  .object [("absoluteBoundingBox", boxOf 30 10),
    ("characterStyleOverrides", .array [.ofInt 9, .ofInt 0, .ofInt 5, .ofInt 4]),
    ("characters", .string "abc"), ("id", .string "text"),
    ("style", .object [("fontFamily", .string "Inter"), ("fontSize", .ofInt 16),
      ("fontWeight", .ofInt 400)]),
    ("styleOverrideRanges", .array
      [.object [("end", .ofInt 2), ("start", .ofInt 1), ("styleId", .ofInt 7)],
        .object [("end", .ofInt 1), ("start", .ofInt 0), ("styleId", .ofInt 9)]]),
    ("styleOverrideTable", .object [("5", .object [])]), ("type", .string "TEXT")]

theorem missing_styles_reported_misstyled :
    ∃ parsed entry text, ofValue misstyled = .ok parsed ∧ entry ∈ preorder parsed.tree.roots ∧
      entry.layer.kind = .text text ∧
      ∃ (source : NodeSource) (ids : List Nat),
        (∀ n, n ∈ ids ↔ source.Misses text.characters.toList.length n) ∧
        (parsed.diagnostics.forNode entry.id).filter Diagnostic.statesMissing =
          ids.map (missingNote entry.id) ∧
        ids.map (missingNote entry.id) = [missingNote "text" 7, missingNote "text" 9] := by
  refine ⟨_, _, _, rfl, List.mem_cons_self, rfl, ?_⟩
  obtain ⟨_, _, source, _, _, _, ids, _, hnotes, hmisses, _⟩ :=
    missing_styles_reported (v := misstyled) rfl List.mem_cons_self rfl
  exact ⟨source, ids, hmisses, hnotes, hnotes.symm.trans (by decide +kernel)⟩

end Document

end SceneMarkup
