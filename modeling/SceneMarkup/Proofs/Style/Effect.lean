/-
  SceneMarkup/Proofs/Style/Effect.lean --- what becomes of each effect.

  WHAT THIS FILE IS FOR.  A list of effects goes four ways: into the shadows, the filters
  and the filters of what lies below, each of which is one property, and into warnings.
  `EffectsAccounted` says so effect by effect.  What a property lists can be read in its
  value, and depends on the effects of its sort alone.
-/
import SceneMarkup.Proofs.Style.Entries
import SceneMarkup.Proofs.Style.Order

set_option autoImplicit false

namespace SceneMarkup.Style

/-! ## Sorts -/

/-- The sorts of effects that are drawn. -/
inductive EffectSort where
  | shadow
  | filter
  | backdrop
  deriving DecidableEq, Repr, Inhabited

namespace EffectSort

/-- All sorts, in the order in which they are declared. -/
def all : List EffectSort := [.shadow, .filter, .backdrop]

theorem mem_all (sort : EffectSort) : sort ∈ all := by
  cases sort <;> decide

/-- The property that lists the effects of a sort. -/
def property (text : Bool) : EffectSort → String
  | .shadow => if text then "text-shadow" else "box-shadow"
  | .filter => "filter"
  | .backdrop => "backdrop-filter"

/-- What stands between two effects of a sort. -/
def separator : EffectSort → String
  | .shadow => ", "
  | .filter => " "
  | .backdrop => " "

/-- The mark by which a reader tells two effects of a sort apart. -/
def mark : EffectSort → Char
  | .shadow => ','
  | .filter => ' '
  | .backdrop => ' '

/-- What goes to the property of a sort. -/
def target : EffectSort → String → EffectTarget
  | .shadow => .shadow
  | .filter => .filter
  | .backdrop => .backdrop

/-- What a target adds to the property of a sort. -/
def entry? : EffectSort → EffectTarget → Option String
  | .shadow => EffectTarget.shadow?
  | .filter => EffectTarget.filter?
  | .backdrop => EffectTarget.backdrop?

theorem property_injective (text : Bool) : Function.Injective (property text) := by
  intro sort other h
  cases text <;> cases sort <;> cases other <;> first | rfl | exact absurd h (by decide)

theorem entry?_target (sort : EffectSort) (entry : String) :
    sort.entry? (sort.target entry) = some entry := by
  cases sort <;> rfl

theorem entry?_target_of_ne {sort other : EffectSort} (h : other ≠ sort) (entry : String) :
    other.entry? (sort.target entry) = none := by
  cases sort <;> cases other <;> first | rfl | exact absurd rfl h

theorem problem?_target (sort : EffectSort) (entry : String) :
    (sort.target entry).problem? = none := by
  cases sort <;> rfl

theorem entry?_problem (sort : EffectSort) (problem : Problem) :
    sort.entry? (.problem problem) = none := by
  cases sort <;> rfl

end EffectSort

/-! ## One effect -/

/-- What an effect draws on a text or on a box. -/
inductive EffectDraws (text : Bool) : EffectKind → EffectSort → String → Prop where
  | textShadow {shadow : Shadow} (onText : text = true) :
      EffectDraws text (.dropShadow shadow) .shadow (textShadow shadow)
  | boxShadow {shadow : Shadow} (onBox : text = false) :
      EffectDraws text (.dropShadow shadow) .shadow (boxShadow false shadow)
  | insetShadow {shadow : Shadow} (onBox : text = false) :
      EffectDraws text (.innerShadow shadow) .shadow (boxShadow true shadow)
  | filter {radius : Float} : EffectDraws text (.layerBlur radius) .filter (blur radius)
  | backdrop {radius : Float} : EffectDraws text (.backgroundBlur radius) .backdrop (blur radius)

/-- What keeps an effect from being drawn on a text or on a box. -/
inductive EffectLacks (text : Bool) : EffectKind → Problem → Prop where
  | innerShadow {shadow : Shadow} (onText : text = true) :
      EffectLacks text (.innerShadow shadow) .innerTextShadow
  | style {tag : String} : EffectLacks text (.unsupported tag) (.unsupportedEffect tag)

variable {text : Bool}

theorem EffectDraws.effectTarget_eq {kind : EffectKind} {sort : EffectSort} {entry : String}
    (h : EffectDraws text kind sort entry) : effectTarget text kind = sort.target entry := by
  cases h with
  | textShadow onText => rw [onText]; rfl
  | boxShadow onBox => rw [onBox]; rfl
  | insetShadow onBox => rw [onBox]; rfl
  | filter => rfl
  | backdrop => rfl

theorem EffectLacks.effectTarget_eq {kind : EffectKind} {problem : Problem}
    (h : EffectLacks text kind problem) : effectTarget text kind = .problem problem := by
  cases h with
  | innerShadow onText => rw [onText]; rfl
  | style => rfl

/-- An effect draws something or lacks something for it. -/
theorem effect_cases (text : Bool) (kind : EffectKind) :
    (∃ sort entry, EffectDraws text kind sort entry) ∨
      ∃ problem, EffectLacks text kind problem := by
  cases kind with
  | dropShadow shadow =>
      cases text with
      | true => exact Or.inl ⟨_, _, .textShadow rfl⟩
      | false => exact Or.inl ⟨_, _, .boxShadow rfl⟩
  | innerShadow shadow =>
      cases text with
      | true => exact Or.inr ⟨_, .innerShadow rfl⟩
      | false => exact Or.inl ⟨_, _, .insetShadow rfl⟩
  | layerBlur radius => exact Or.inl ⟨_, _, .filter⟩
  | backgroundBlur radius => exact Or.inl ⟨_, _, .backdrop⟩
  | unsupported tag => exact Or.inr ⟨_, .style⟩

/-- The sort of an effect of a kind, if it is drawn on a text or on a box. -/
def sortOf? (text : Bool) : EffectKind → Option EffectSort
  | .dropShadow _ => some .shadow
  | .innerShadow _ => if text then none else some .shadow
  | .layerBlur _ => some .filter
  | .backgroundBlur _ => some .backdrop
  | .unsupported _ => none

theorem EffectDraws.sortOf?_eq {kind : EffectKind} {sort : EffectSort} {entry : String}
    (h : EffectDraws text kind sort entry) : sortOf? text kind = some sort := by
  cases h with
  | textShadow onText => rfl
  | boxShadow onBox => rfl
  | insetShadow onBox => rw [onBox]; rfl
  | filter => rfl
  | backdrop => rfl

theorem EffectLacks.sortOf?_eq {kind : EffectKind} {problem : Problem}
    (h : EffectLacks text kind problem) : sortOf? text kind = none := by
  cases h with
  | innerShadow onText => rw [onText]; rfl
  | style => rfl

/-! ## All effects -/

/-- The entries of each sort and the problems of some effects: each visible effect, in order, has
one entry in one sort, or one problem, and a hidden effect has nothing. -/
inductive EffectsAccounted (text : Bool) :
    List SceneMarkup.Effect → (EffectSort → List String) → List Problem → Prop where
  | nil : EffectsAccounted text [] (fun _ => []) []
  | hidden {effect : SceneMarkup.Effect} {rest : List SceneMarkup.Effect}
      {entries : EffectSort → List String} {problems : List Problem}
      (visible : effect.visible = false) (others : EffectsAccounted text rest entries problems) :
      EffectsAccounted text (effect :: rest) entries problems
  | entry {effect : SceneMarkup.Effect} {sort : EffectSort} {entry : String}
      {rest : List SceneMarkup.Effect} {entries : EffectSort → List String}
      {problems : List Problem} (visible : effect.visible = true)
      (draws : EffectDraws text effect.kind sort entry)
      (others : EffectsAccounted text rest entries problems) :
      EffectsAccounted text (effect :: rest)
        (Function.update entries sort (entry :: entries sort)) problems
  | problem {effect : SceneMarkup.Effect} {problem : Problem} {rest : List SceneMarkup.Effect}
      {entries : EffectSort → List String} {problems : List Problem}
      (visible : effect.visible = true) (lacks : EffectLacks text effect.kind problem)
      (others : EffectsAccounted text rest entries problems) :
      EffectsAccounted text (effect :: rest) entries (problem :: problems)

/-- The entries of a sort that some effects make. -/
def entriesOf (text : Bool) (effects : List SceneMarkup.Effect) (sort : EffectSort) : List String :=
  (effectTargets text effects).filterMap sort.entry?

theorem effectTargets_cons_hidden {effect : SceneMarkup.Effect} (h : effect.visible = false)
    (rest : List SceneMarkup.Effect) :
    effectTargets text (effect :: rest) = effectTargets text rest := by
  rw [effectTargets, List.filter_cons_of_neg (by simp [h])]
  rfl

theorem effectTargets_cons_visible {effect : SceneMarkup.Effect} (h : effect.visible = true)
    (rest : List SceneMarkup.Effect) :
    effectTargets text (effect :: rest) =
      effectTarget text effect.kind :: effectTargets text rest := by
  rw [effectTargets, List.filter_cons_of_pos h, List.map_cons]
  rfl

theorem entriesOf_cons_hidden {effect : SceneMarkup.Effect} (h : effect.visible = false)
    (rest : List SceneMarkup.Effect) : entriesOf text (effect :: rest) = entriesOf text rest := by
  funext sort
  rw [entriesOf, effectTargets_cons_hidden h]
  rfl

/-- A visible effect adds to a sort what its target adds. -/
theorem entriesOf_cons_visible {effect : SceneMarkup.Effect} (h : effect.visible = true)
    (rest : List SceneMarkup.Effect) (sort : EffectSort) :
    entriesOf text (effect :: rest) sort =
      (sort.entry? (effectTarget text effect.kind)).toList ++ entriesOf text rest sort := by
  rw [entriesOf, effectTargets_cons_visible h, List.filterMap_cons]
  cases sort.entry? (effectTarget text effect.kind) with
  | none => rfl
  | some entry => rfl

theorem entriesOf_cons_entry {effect : SceneMarkup.Effect} (h : effect.visible = true)
    {sort : EffectSort} {entry : String} (hdraws : EffectDraws text effect.kind sort entry)
    (rest : List SceneMarkup.Effect) :
    entriesOf text (effect :: rest) =
      Function.update (entriesOf text rest) sort (entry :: entriesOf text rest sort) := by
  funext other
  rw [entriesOf_cons_visible h, hdraws.effectTarget_eq]
  by_cases hsort : other = sort
  · rw [hsort, sort.entry?_target, Function.update_self]
    rfl
  · rw [EffectSort.entry?_target_of_ne hsort, Function.update_of_ne hsort]
    rfl

theorem entriesOf_cons_problem {effect : SceneMarkup.Effect} (h : effect.visible = true)
    {problem : Problem} (hlacks : EffectLacks text effect.kind problem)
    (rest : List SceneMarkup.Effect) : entriesOf text (effect :: rest) = entriesOf text rest := by
  funext sort
  rw [entriesOf_cons_visible h, hlacks.effectTarget_eq, sort.entry?_problem]
  rfl

theorem effectProblems_cons_hidden {effect : SceneMarkup.Effect} (h : effect.visible = false)
    (rest : List SceneMarkup.Effect) :
    effectProblems text (effect :: rest) = effectProblems text rest := by
  rw [effectProblems, effectTargets_cons_hidden h]
  rfl

theorem effectProblems_cons_entry {effect : SceneMarkup.Effect} (h : effect.visible = true)
    {sort : EffectSort} {entry : String} (hdraws : EffectDraws text effect.kind sort entry)
    (rest : List SceneMarkup.Effect) :
    effectProblems text (effect :: rest) = effectProblems text rest := by
  rw [effectProblems, effectTargets_cons_visible h, hdraws.effectTarget_eq, List.filterMap_cons,
    sort.problem?_target]
  rfl

theorem effectProblems_cons_problem {effect : SceneMarkup.Effect} (h : effect.visible = true)
    {problem : Problem} (hlacks : EffectLacks text effect.kind problem)
    (rest : List SceneMarkup.Effect) :
    effectProblems text (effect :: rest) = problem :: effectProblems text rest := by
  rw [effectProblems, effectTargets_cons_visible h, hlacks.effectTarget_eq]
  rfl

theorem accounted_effects (text : Bool) (effects : List SceneMarkup.Effect) :
    EffectsAccounted text effects (entriesOf text effects) (effectProblems text effects) := by
  induction effects with
  | nil => exact .nil
  | cons effect rest ih =>
      cases hvisible : effect.visible with
      | false =>
          rw [entriesOf_cons_hidden hvisible, effectProblems_cons_hidden hvisible]
          exact .hidden hvisible ih
      | true =>
          rcases effect_cases text effect.kind with ⟨sort, entry, hdraws⟩ | ⟨problem, hlacks⟩
          · rw [entriesOf_cons_entry hvisible hdraws, effectProblems_cons_entry hvisible hdraws]
            exact .entry hvisible hdraws ih
          · rw [entriesOf_cons_problem hvisible hlacks, effectProblems_cons_problem hvisible hlacks]
            exact .problem hvisible hlacks ih

namespace EffectsAccounted

variable {effects : List SceneMarkup.Effect} {entries : EffectSort → List String}
  {problems : List Problem}

/-- There is one way to account for effects. -/
theorem eq (h : EffectsAccounted text effects entries problems) :
    entries = entriesOf text effects ∧ problems = effectProblems text effects := by
  induction h with
  | nil => exact ⟨rfl, rfl⟩
  | hidden visible others ih =>
      rw [entriesOf_cons_hidden visible, effectProblems_cons_hidden visible]
      exact ih
  | entry visible draws others ih =>
      rw [entriesOf_cons_entry visible draws, effectProblems_cons_entry visible draws, ← ih.1]
      exact ⟨rfl, ih.2⟩
  | problem visible lacks others ih =>
      rw [entriesOf_cons_problem visible lacks, effectProblems_cons_problem visible lacks, ← ih.2]
      exact ⟨ih.1, rfl⟩

/-- A sort has an entry for each visible effect of it. -/
theorem length_entries (h : EffectsAccounted text effects entries problems) (sort : EffectSort) :
    (entries sort).length =
      (effects.filter (·.visible)).countP fun effect => sortOf? text effect.kind = some sort := by
  induction h with
  | nil => rfl
  | hidden visible others ih => rw [List.filter_cons_of_neg (by simp [visible]), ih]
  | @entry effect drawn entry rest entries problems visible draws others ih =>
      rw [List.filter_cons_of_pos visible]
      by_cases hsort : drawn = sort
      · rw [hsort, Function.update_self,
          List.countP_cons_of_pos (by simp [draws.sortOf?_eq, hsort]), List.length_cons, ih]
      · rw [Function.update_of_ne (Ne.symm hsort),
          List.countP_cons_of_neg (by simp [draws.sortOf?_eq, hsort]), ih]
  | problem visible lacks others ih =>
      rw [List.filter_cons_of_pos visible, List.countP_cons_of_neg (by simp [lacks.sortOf?_eq]), ih]

/-- There is a problem for each visible effect that is not drawn. -/
theorem length_problems (h : EffectsAccounted text effects entries problems) :
    problems.length =
      (effects.filter (·.visible)).countP fun effect => sortOf? text effect.kind = none := by
  induction h with
  | nil => rfl
  | hidden visible others ih => rw [List.filter_cons_of_neg (by simp [visible]), ih]
  | entry visible draws others ih =>
      rw [List.filter_cons_of_pos visible, List.countP_cons_of_neg (by simp [draws.sortOf?_eq]), ih]
  | problem visible lacks others ih =>
      rw [List.filter_cons_of_pos visible, List.countP_cons_of_pos (by simp [lacks.sortOf?_eq]),
        List.length_cons, ih]

end EffectsAccounted

/-! ## Values -/

theorem EffectDraws.isEntry {kind : EffectKind} {sort : EffectSort} {entry : String}
    (h : EffectDraws text kind sort entry) : IsEntry sort.mark entry := by
  cases h with
  | textShadow onText => exact isEntry_textShadow _
  | boxShadow onBox => exact isEntry_boxShadow false _
  | insetShadow onBox => exact isEntry_boxShadow true _
  | filter => exact isEntry_blur _
  | backdrop => exact isEntry_blur _

/-- An entry of a sort is drawn by a visible effect. -/
theorem exists_draws_of_mem {effects : List SceneMarkup.Effect} {sort : EffectSort}
    {entry : String} (h : entry ∈ entriesOf text effects sort) :
    ∃ effect ∈ effects, effect.visible = true ∧ EffectDraws text effect.kind sort entry := by
  obtain ⟨target, htarget, hentry⟩ := List.mem_filterMap.1 h
  obtain ⟨effect, heffect, rfl⟩ := List.mem_map.1 htarget
  obtain ⟨hmem, hvisible⟩ := List.mem_filter.1 heffect
  refine ⟨effect, hmem, hvisible, ?_⟩
  rcases effect_cases text effect.kind with ⟨drawn, own, hdraws⟩ | ⟨problem, hlacks⟩
  · rw [hdraws.effectTarget_eq] at hentry
    by_cases hsort : sort = drawn
    · rw [hsort, drawn.entry?_target, Option.some.injEq] at hentry
      rwa [hsort, ← hentry]
    · rw [EffectSort.entry?_target_of_ne hsort] at hentry
      cases hentry
  · rw [hlacks.effectTarget_eq, sort.entry?_problem] at hentry
    cases hentry

/-- The value of a property tells the entries of its sort. -/
theorem readEntries_entriesOf {effects : List SceneMarkup.Effect} {sort : EffectSort}
    (h : entriesOf text effects sort ≠ []) :
    readEntries sort.mark (String.intercalate sort.separator (entriesOf text effects sort)) =
      entriesOf text effects sort := by
  have hentry : ∀ entry ∈ entriesOf text effects sort, IsEntry sort.mark entry := by
    intro entry hmem
    obtain ⟨effect, -, -, hdraws⟩ := exists_draws_of_mem hmem
    exact hdraws.isEntry
  have hblank : ∀ c ∈ [' '], c = ' ' := by simp
  have hnone : ∀ c ∈ ([] : List Char), c = ' ' := by simp
  cases sort with
  | shadow => exact readEntries_intercalate hblank unbroken_blank h hentry
  | filter => exact readEntries_intercalate hnone unbroken_nil h hentry
  | backdrop => exact readEntries_intercalate hnone unbroken_nil h hentry

theorem effect_eq_flatMap (text : Bool) (effects : List SceneMarkup.Effect) :
    effect text effects = EffectSort.all.flatMap fun sort =>
      declareJoined (sort.property text) sort.separator (entriesOf text effects sort) := by
  simp only [EffectSort.all, List.flatMap_cons, List.flatMap_nil, List.append_nil]
  exact List.append_assoc _ _ _

/-- Each sort with entries is declared, and nothing else is. -/
theorem mem_effect_iff {effects : List SceneMarkup.Effect} {d : Declaration} :
    d ∈ effect text effects ↔ ∃ sort : EffectSort, entriesOf text effects sort ≠ [] ∧
      d = (sort.property text,
        String.intercalate sort.separator (entriesOf text effects sort)) := by
  have hjoined : ∀ sort : EffectSort,
      d ∈ declareJoined (sort.property text) sort.separator (entriesOf text effects sort) ↔
        entriesOf text effects sort ≠ [] ∧ d = (sort.property text,
          String.intercalate sort.separator (entriesOf text effects sort)) := by
    intro sort
    rw [declareJoined, declareIf, List.mem_ite_nil_right, List.mem_singleton,
      Bool.not_eq_true', List.isEmpty_eq_false_iff]
  rw [effect_eq_flatMap, List.mem_flatMap]
  constructor
  · rintro ⟨sort, -, hmem⟩
    exact ⟨sort, (hjoined sort).1 hmem⟩
  · rintro ⟨sort, h⟩
    exact ⟨sort, sort.mem_all, (hjoined sort).2 h⟩

theorem nodup_effect (text : Bool) (effects : List SceneMarkup.Effect) :
    ((effect text effects).map (·.1)).Nodup := by
  refine List.Nodup.sublist (effect_sublist text effects) ?_
  cases text <;> decide

/-- The property of a sort is declared if and only if the sort has entries. -/
theorem property_mem_effect_iff {effects : List SceneMarkup.Effect} {sort : EffectSort} :
    sort.property text ∈ (effect text effects).map (·.1) ↔ entriesOf text effects sort ≠ [] := by
  rw [List.mem_map]
  constructor
  · rintro ⟨d, hd, hproperty⟩
    obtain ⟨other, hentries, rfl⟩ := mem_effect_iff.1 hd
    rwa [← EffectSort.property_injective text hproperty]
  · intro h
    exact ⟨_, mem_effect_iff.2 ⟨sort, h, rfl⟩, rfl⟩

/-! ## Records -/

/-- A record and the warnings so far after effects were written into the record. -/
def effectInto (id : String) (text : Bool) (effects : List SceneMarkup.Effect) (start : Record)
    (earlier : Diagnostics) : Record × Diagnostics :=
  (start.setAll (effect text effects),
    earlier ++ (effectProblems text effects).map (Problem.diagnostic id))

/-- What a record declares once effects with some entries were written into it. -/
structure Affected (text : Bool) (entries : EffectSort → List String) (before after : Record) :
    Prop where
  /-- a sort without entries -/
  unset : ∀ sort : EffectSort, entries sort = [] →
    after.get? (sort.property text) = before.get? (sort.property text)
  /-- the entries of a sort in one value, in which they are found again -/
  listed : ∀ sort : EffectSort, entries sort ≠ [] →
    after.get? (sort.property text) = some (String.intercalate sort.separator (entries sort)) ∧
      readEntries sort.mark (String.intercalate sort.separator (entries sort)) = entries sort
  /-- all that is no property of effects -/
  others : ∀ property, (∀ sort : EffectSort, property ≠ sort.property text) →
    after.get? property = before.get? property

theorem affected_effectInto (id : String) (text : Bool) (effects : List SceneMarkup.Effect)
    (start : Record) (earlier : Diagnostics) :
    Affected text (entriesOf text effects) start (effectInto id text effects start earlier).1 := by
  have hsets : start.Sets (effect text effects) (effectInto id text effects start earlier).1 :=
    start.sets_setAll (nodup_effect text effects)
  refine ⟨fun sort hnone => ?_, fun sort hsome => ⟨?_, readEntries_entriesOf hsome⟩,
    fun property hne => ?_⟩
  · exact hsets.others _ fun hmem => property_mem_effect_iff.1 hmem hnone
  · exact hsets.value _ (mem_effect_iff.2 ⟨sort, hsome, rfl⟩)
  · refine hsets.others property fun hmem => ?_
    obtain ⟨d, hd, rfl⟩ := List.mem_map.1 hmem
    obtain ⟨sort, -, rfl⟩ := mem_effect_iff.1 hd
    exact hne sort rfl

/-- Whether an effect is visible and of a sort. -/
def isOfSort (text : Bool) (sort : EffectSort) (effect : SceneMarkup.Effect) : Bool :=
  effect.visible && decide (sortOf? text effect.kind = some sort)

theorem entry?_effectTarget_of_ne {sort : EffectSort} {kind : EffectKind}
    (h : sortOf? text kind ≠ some sort) : sort.entry? (effectTarget text kind) = none := by
  rcases effect_cases text kind with ⟨drawn, entry, hdraws⟩ | ⟨problem, hlacks⟩
  · rw [hdraws.sortOf?_eq] at h
    rw [hdraws.effectTarget_eq]
    exact EffectSort.entry?_target_of_ne (fun hsort => h (congrArg some hsort.symm)) entry
  · rw [hlacks.effectTarget_eq, sort.entry?_problem]

/-- The entries of a sort depend on the effects of the sort alone. -/
theorem entriesOf_filter_isOfSort (text : Bool) (effects : List SceneMarkup.Effect)
    (sort : EffectSort) :
    entriesOf text (effects.filter (isOfSort text sort)) sort = entriesOf text effects sort := by
  induction effects with
  | nil => rfl
  | cons effect rest ih =>
      cases hvisible : effect.visible with
      | false =>
          rw [List.filter_cons_of_neg (by simp [isOfSort, hvisible]), ih,
            entriesOf_cons_hidden hvisible]
      | true =>
          by_cases hsort : sortOf? text effect.kind = some sort
          · rw [List.filter_cons_of_pos (by simp [isOfSort, hvisible, hsort]),
              entriesOf_cons_visible hvisible, entriesOf_cons_visible hvisible, ih]
          · rw [List.filter_cons_of_neg (by simp [isOfSort, hsort]), ih,
              entriesOf_cons_visible hvisible, entry?_effectTarget_of_ne hsort]
            rfl

/-- The value of a sort's property depends on the effects of the sort alone. -/
theorem get?_effectInto_congr {effects others : List SceneMarkup.Effect} {sort : EffectSort}
    (h : effects.filter (isOfSort text sort) = others.filter (isOfSort text sort)) (id : String)
    (start : Record) (earlier : Diagnostics) :
    (effectInto id text effects start earlier).1.get? (sort.property text) =
      (effectInto id text others start earlier).1.get? (sort.property text) := by
  have hentries : entriesOf text effects sort = entriesOf text others sort := by
    rw [← entriesOf_filter_isOfSort, h, entriesOf_filter_isOfSort]
  have heffects := affected_effectInto id text effects start earlier
  have hothers := affected_effectInto id text others start earlier
  by_cases hnone : entriesOf text others sort = []
  · rw [heffects.unset sort (hentries.trans hnone), hothers.unset sort hnone]
  · rw [(hothers.listed sort hnone).1, ← hentries]
    exact (heffects.listed sort (by rwa [hentries])).1

/-- A box has its effects written into what its place, its layout, its fills, its strokes and its
corners declare. -/
theorem record_eq_effectInto {entry : Entry}
    (h : contentDeclarations entry.layer = boxDeclarations entry.layer) (earlier : Diagnostics) :
    record entry =
      (effectInto entry.id false entry.layer.effects
        (.ofList (geometry entry ++ container entry.layer.kind ++ fill false entry.layer.fills ++
          stroke false entry.layer.strokeWeight entry.layer.strokes ++ corners entry.layer.kind))
        earlier).1.setAll (compositing entry.layer) := by
  rw [record, h, boxDeclarations, effectInto, ← Record.ofList_append, ← Record.ofList_append]
  simp only [List.append_assoc]

/-- A text has its effects written into what its place, its alignment and its strokes declare. -/
theorem record_eq_effectInto_of_text {entry : Entry} {block : TextBlock}
    (h : entry.layer.kind = .text block) (earlier : Diagnostics) :
    record entry =
      (effectInto entry.id true entry.layer.effects
        (.ofList (geometry entry ++ container entry.layer.kind ++ paragraph block.style ++
          stroke true entry.layer.strokeWeight entry.layer.strokes)) earlier).1.setAll
        ((baseRecord entry.layer block).declarations ++ compositing entry.layer) := by
  have hcontent : contentDeclarations entry.layer = textDeclarations entry.layer block := by
    rw [contentDeclarations, h]
  rw [record, hcontent, textDeclarations, effectInto, ← Record.ofList_append,
    ← Record.ofList_append]
  simp only [List.append_assoc]

/-- Every visible effect, in order, gives one entry of one sort or one warning, and hidden effects
give nothing. A sort has as many entries as there are visible effects of it. Its property lists them
in order, and is not set without them; all other properties keep their values. What the property
of a sort is set to depends on the effects of the sort alone, whichever others there are between
them. -/
theorem effects_accounted (id : String) (text : Bool) (effects : List SceneMarkup.Effect)
    (start : Record) (earlier : Diagnostics) :
    ∃ entries problems, EffectsAccounted text effects entries problems ∧
      (∀ entries' problems', EffectsAccounted text effects entries' problems' →
        entries' = entries ∧ problems' = problems) ∧
      (∀ sort, (entries sort).length = (effects.filter (·.visible)).countP fun effect =>
        sortOf? text effect.kind = some sort) ∧
      (problems.length = (effects.filter (·.visible)).countP fun effect =>
        sortOf? text effect.kind = none) ∧
      (effectInto id text effects start earlier).2 =
        earlier ++ problems.map (Problem.diagnostic id) ∧
      Affected text entries start (effectInto id text effects start earlier).1 ∧
      ∀ sort others, effects.filter (isOfSort text sort) = others.filter (isOfSort text sort) →
        (effectInto id text effects start earlier).1.get? (sort.property text) =
          (effectInto id text others start earlier).1.get? (sort.property text) :=
  have haccounted := accounted_effects text effects
  ⟨entriesOf text effects, effectProblems text effects, haccounted, fun _ _ h => h.eq,
    haccounted.length_entries, haccounted.length_problems, rfl,
    affected_effectInto id text effects start earlier,
    fun _ _ h => get?_effectInto_congr h id start earlier⟩

/-- A text between whose shadows there are effects that it cannot have and others: the shadows are
listed as if they were alone, one blur goes to the filters, and nothing is set for what lies
below. -/
theorem effects_accounted_of_shadowed_text :
    let near : Shadow := ⟨.black, ⟨0, 1⟩, 2, 0⟩
    let far : Shadow := ⟨.black, ⟨0, 8⟩, 16, 0⟩
    let effects : List SceneMarkup.Effect := [⟨.dropShadow near, true⟩, ⟨.innerShadow far, true⟩,
      ⟨.backgroundBlur 4, false⟩, ⟨.layerBlur 8, true⟩, ⟨.unsupported "NOISE", true⟩,
      ⟨.dropShadow far, true⟩]
    let after :=
      effectInto "n" true effects (.ofList [("box-shadow", "none"), ("opacity", "0.5")]) []
    after.2 = [.warning "n" "unsupported: inner shadow on text, skipped",
        .warning "n" "unsupported effect type `NOISE`, skipped"] ∧
      after.1.get? "text-shadow" =
        some (String.intercalate ", " [textShadow near, textShadow far]) ∧
      after.1.get? "filter" = some (blur 8) ∧ after.1.get? "backdrop-filter" = none ∧
      after.1.get? "box-shadow" = some "none" ∧
      after.1.get? "text-shadow" = (effectInto "n" true [⟨.dropShadow near, true⟩,
        ⟨.dropShadow far, true⟩] (.ofList [("box-shadow", "none"), ("opacity", "0.5")])
          []).1.get? "text-shadow" := by
  intro near far effects after
  obtain ⟨entries, problems, -, hone, -, -, hwarnings, haffected, hsort⟩ :=
    effects_accounted "n" true effects (.ofList [("box-shadow", "none"), ("opacity", "0.5")]) []
  obtain ⟨rfl, rfl⟩ := hone _ _ (.entry rfl (.textShadow rfl) (.problem rfl (.innerShadow rfl)
    (.hidden rfl (.entry rfl .filter (.problem rfl .style (.entry rfl (.textShadow rfl) .nil))))))
  refine ⟨hwarnings, (haffected.listed .shadow (List.cons_ne_nil _ _)).1, ?_, ?_, ?_,
    hsort .shadow [⟨.dropShadow near, true⟩, ⟨.dropShadow far, true⟩] rfl⟩
  · exact (haffected.listed .filter (List.cons_ne_nil _ _)).1.trans
      (congrArg some String.intercalate_singleton)
  · exact (haffected.unset .backdrop rfl).trans rfl
  · refine (haffected.others "box-shadow" fun sort => ?_).trans rfl
    cases sort <;> decide

end SceneMarkup.Style
