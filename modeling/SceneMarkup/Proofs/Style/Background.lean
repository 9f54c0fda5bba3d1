/-
  SceneMarkup/Proofs/Style/Background.lean --- where the address of an image ends.

  WHAT THIS FILE IS FOR.  An address is put between quotes with its quotes replaced and
  its backslashes as they are, so a reader to whom a backslash means something may not
  find the end of it.  Such a reader finds the end of a background if and only if it
  finds the end of each address in it: once it has missed one, every later quote opens
  what it should close, and it is never in no quotes again.
-/
import SceneMarkup.Proofs.Style.Declared

set_option autoImplicit false

namespace SceneMarkup.Style

/-! ## Addresses -/

/-- Whether an address can stand between quotes as it is: no backslash at its end takes the quote
behind it, and no line is broken, unless a backslash takes the break. -/
def fitsQuotes : List Char → Bool
  | [] => true
  | '\\' :: [] => false
  | '\\' :: _ :: rest => fitsQuotes rest
  | c :: rest => !isLineBreak c && fitsQuotes rest

namespace Lexis

variable {lexis : Lexis}

theorem read_inside_percent (rest : List Char) :
    lexis.read .inside ('%' :: '2' :: '2' :: rest) = lexis.read .inside rest := by
  have hplain : Plain "%22" := by decide
  show lexis.read .inside ("%22".toList ++ rest) = _
  rw [read_append, read_plain (by decide) hplain, Option.bind_some]

theorem read_escaped_addressChar (c : Char) (rest : List Char) :
    lexis.read .escaped (addressChar c ++ rest) = lexis.read .inside rest := by
  unfold addressChar
  split
  · have hplain : Plain "22" := by decide
    show lexis.read .inside ("22".toList ++ rest) = _
    rw [read_append, read_plain (by decide) hplain, Option.bind_some]
  · rfl

/-- A reader that knows backslashes is between quotes behind an address if and only if the address
fits. -/
theorem read_inside_address_iff (hescapes : lexis.escapes = true) (hbreaks : lexis.breaks = false)
    (address : List Char) :
    lexis.read .inside (address.flatMap addressChar) = some .inside ↔
      fitsQuotes address = true := by
  have hbackslash : lexis.step .inside '\\' = some .escaped := by simp [step, hescapes]
  fun_induction fitsQuotes address with
  | case1 => simp [read_nil]
  | case2 =>
      have hread : lexis.read .inside (['\\'].flatMap addressChar) = some .escaped := by
        show lexis.read .inside ['\\'] = _
        rw [read_cons, hbackslash]
        rfl
      rw [hread]
      simp
  | case3 c rest ih =>
      have hread : lexis.read .inside (('\\' :: c :: rest).flatMap addressChar) =
          lexis.read .inside (rest.flatMap addressChar) := by
        rw [List.flatMap_cons, List.flatMap_cons]
        show lexis.read .inside ('\\' :: _) = _
        rw [read_cons, hbackslash, Option.bind_some]
        exact read_escaped_addressChar c _
      rw [hread]
      exact ih
  | case4 c rest hlone htaken ih =>
      have hne : c ≠ '\\' := by
        rintro rfl
        cases rest with
        | nil => exact hlone rfl rfl
        | cons d rest => exact htaken d rest rfl rfl
      rw [List.flatMap_cons, addressChar, Bool.and_eq_true, Bool.not_eq_true']
      split
      · rename_i hquote
        rw [hquote]
        show lexis.read .inside ('%' :: '2' :: '2' :: _) = _ ↔ _
        rw [read_inside_percent]
        exact ih.trans (by simp [isLineBreak])
      · rename_i hquote
        have hstep : lexis.step .inside c = if isLineBreak c then none else some .inside := by
          simp [step, hquote, hescapes, hne, hbreaks]
        rw [List.singleton_append, read_cons, hstep]
        cases isLineBreak c with
        | true => simp
        | false => simp [ih]

/-- An image is closed if and only if its address fits. -/
theorem closed_imageValue_iff (hescapes : lexis.escapes = true) (hbreaks : lexis.breaks = false)
    (reference : String) (mode : ScaleMode) :
    lexis.Closed (imageValue reference mode) ↔ fitsQuotes reference.toList = true := by
  rw [Closed, read_outside_imageValue, ← read_inside_address_iff hescapes hbreaks]
  cases lexis.read .inside (reference.toList.flatMap addressChar) with
  | none => simp
  | some place => cases place <;> simp [step]

/-! ## Backgrounds -/

/-- Read from between quotes, a text ends between quotes. -/
def StaysInside (lexis : Lexis) (text : String) : Prop :=
  ∀ place, lexis.read .inside text.toList = some place → place = .inside

theorem StaysInside.append {s t : String} (hs : lexis.StaysInside s) (ht : lexis.StaysInside t) :
    lexis.StaysInside (s ++ t) := by
  intro place h
  rw [String.toList_append, read_append] at h
  obtain ⟨middle, hmiddle, hplace⟩ := Option.bind_eq_some_iff.1 h
  rw [hs middle hmiddle] at hplace
  exact ht place hplace

theorem staysInside_of_plain {text : String} (h : Plain text) : lexis.StaysInside text := by
  intro place hplace
  rw [read_plain (by decide) h] at hplace
  exact (Option.some.inj hplace).symm

theorem staysInside_intercalate {separator : String} (hseparator : lexis.StaysInside separator)
    {texts : List String} (h : ∀ text ∈ texts, lexis.StaysInside text) :
    lexis.StaysInside (String.intercalate separator texts) :=
  intercalate_induction (staysInside_of_plain (by decide)) (fun _ _ hs ht => hs.append ht)
    hseparator h

theorem read_outside_of_no_quote {cs : List Char} (h : ∀ c ∈ cs, c ≠ '"') {place : Place}
    (hread : lexis.read .outside cs = some place) : place = .outside := by
  induction cs with
  | nil => exact (Option.some.inj hread).symm
  | cons c cs ih =>
      rw [List.forall_mem_cons] at h
      rw [read_cons] at hread
      obtain ⟨next, hnext, hrest⟩ := Option.bind_eq_some_iff.1 hread
      have hsame : next = .outside := by
        simp only [step, h.1, if_false] at hnext
        split at hnext
        · cases hnext
        · exact (Option.some.inj hnext).symm
      rw [hsame] at hrest
      exact ih h.2 hrest

/-- Between quotes, an image closes them before its address and opens them behind it. -/
theorem staysInside_imageValue (reference : String) (mode : ScaleMode) :
    lexis.StaysInside (imageValue reference mode) := by
  intro place h
  rw [read_inside_imageValue] at h
  obtain ⟨middle, hmiddle, hplace⟩ := Option.bind_eq_some_iff.1 h
  have hsame := read_outside_of_no_quote (fun _ => ne_quote_of_mem_flatMap_addressChar) hmiddle
  rw [hsame, step_outside_quote] at hplace
  exact (Option.some.inj hplace).symm

/-- A text that ends in quotes if it is not closed, and stays in quotes once it is there. -/
structure Layered (lexis : Lexis) (text : String) : Prop where
  closed_or : lexis.Closed text ∨
    ∀ place, lexis.read .outside text.toList = some place → place = .inside
  inside : lexis.StaysInside text

theorem layered_of_plain {text : String} (h : Plain text) : lexis.Layered text :=
  ⟨Or.inl (closed_of_plain h), staysInside_of_plain h⟩

theorem layered_imageValue (reference : String) (mode : ScaleMode) :
    lexis.Layered (imageValue reference mode) := by
  refine ⟨?_, staysInside_imageValue reference mode⟩
  rw [Closed, read_outside_imageValue]
  cases lexis.read .inside (reference.toList.flatMap addressChar) with
  | none => exact Or.inr (by simp)
  | some place =>
      cases place with
      | outside => exact Or.inr (by simp [step])
      | inside => exact Or.inl rfl
      | escaped => exact Or.inr (by simp [step])

/-- A layer that is followed by more and left open would stay open. -/
theorem Layered.closed_of_append {s t : String} (hs : lexis.Layered s) (ht : lexis.StaysInside t)
    (h : lexis.Closed (s ++ t)) : lexis.Closed s ∧ lexis.Closed t := by
  rw [Closed, String.toList_append, read_append] at h
  obtain ⟨place, hplace, hend⟩ := Option.bind_eq_some_iff.1 h
  have houtside : place = .outside := by
    rcases hs.closed_or with hclosed | hopen
    · rw [hclosed] at hplace
      exact (Option.some.inj hplace).symm
    · rw [hopen place hplace] at hend
      exact absurd (ht _ hend) (by decide)
  rw [houtside] at hplace hend
  exact ⟨hplace, hend⟩

/-- Layers that are closed together are closed each. -/
theorem closed_of_closed_intercalate {separator : String} (hseparator : Plain separator)
    {texts : List String} (h : ∀ text ∈ texts, lexis.Layered text)
    (hclosed : lexis.Closed (String.intercalate separator texts)) :
    ∀ text ∈ texts, lexis.Closed text := by
  induction texts with
  | nil => simp
  | cons text rest ih =>
      rw [List.forall_mem_cons] at h ⊢
      cases rest with
      | nil =>
          rw [String.intercalate_singleton] at hclosed
          exact ⟨hclosed, by simp⟩
      | cons next rest =>
          have hblank : lexis.StaysInside separator := staysInside_of_plain hseparator
          have hrest := staysInside_intercalate hblank fun other hother => (h.2 other hother).inside
          rw [String.intercalate_cons_cons, String.append_assoc] at hclosed
          obtain ⟨htext, hothers⟩ := h.1.closed_of_append (hblank.append hrest) hclosed
          obtain ⟨_, hclosed⟩ := (layered_of_plain hseparator).closed_of_append hrest hothers
          exact ⟨htext, ih h.2 hclosed⟩

end Lexis

/-! ## Records -/

/-- The addresses of the visible images among some fills. -/
def imageReferences (fills : List Paint) : List String :=
  (fills.filter (·.visible)).filterMap fun paint =>
    match paint.ink with
    | .image reference _ => some reference
    | _ => none

theorem mem_imageReferences {fills : List Paint} {reference : String} :
    reference ∈ imageReferences fills ↔
      ∃ paint ∈ fills.filter (·.visible), ∃ mode, paint.ink = .image reference mode := by
  rw [imageReferences, List.mem_filterMap]
  constructor
  · rintro ⟨paint, hpaint, hsome⟩
    split at hsome
    · rename_i found mode hink
      cases hsome
      exact ⟨paint, hpaint, mode, hink⟩
    · cases hsome
  · rintro ⟨paint, hpaint, mode, hink⟩
    exact ⟨paint, hpaint, by rw [hink]⟩

theorem mem_fillLayers_of_image {fills : List Paint} {paint : Paint}
    (hpaint : paint ∈ fills.filter (·.visible)) {reference : String} {mode : ScaleMode}
    (hink : paint.ink = .image reference mode) :
    FillLayer.value (imageValue reference mode) ∈ fillLayers fills := by
  have hlayer : fillLayer paint = .ok (.value (imageValue reference mode)) := by
    rw [fillLayer, hink]
  refine List.mem_filterMap.2 ⟨_, List.mem_map_of_mem hpaint, ?_⟩
  rw [hlayer]
  rfl

variable {lexis : Lexis}

/-- A background is closed if and only if the addresses of all its images fit. -/
theorem closed_backgroundValue_iff (hescapes : lexis.escapes = true)
    (hbreaks : lexis.breaks = false) (fills : List Paint) :
    lexis.Closed (backgroundValue (fillLayers fills)) ↔
      ∀ reference ∈ imageReferences fills, fitsQuotes reference.toList = true := by
  constructor
  · intro hclosed reference hreference
    have hlayered : ∀ text ∈ (fillLayers fills).reverse.map FillLayer.background,
        lexis.Layered text := by
      intro text htext
      obtain ⟨layer, hlayer, rfl⟩ := List.mem_map.1 htext
      rcases mem_fillLayers (List.mem_reverse.1 hlayer) with hplain | ⟨_, _, other, mode, _, rfl⟩
      · exact Lexis.layered_of_plain hplain
      · exact Lexis.layered_imageValue other mode
    obtain ⟨paint, hpaint, mode, hink⟩ := mem_imageReferences.1 hreference
    refine (Lexis.closed_imageValue_iff hescapes hbreaks reference mode).1 ?_
    refine Lexis.closed_of_closed_intercalate (by decide) hlayered hclosed _ ?_
    exact List.mem_map.2 ⟨_, List.mem_reverse.2 (mem_fillLayers_of_image hpaint hink), rfl⟩
  · intro h
    refine closed_backgroundValue fills fun paint hpaint reference mode hink => ?_
    exact (Lexis.closed_imageValue_iff hescapes hbreaks reference mode).2
      (h reference (mem_imageReferences.2 ⟨paint, hpaint, mode, hink⟩))

/-- Fills with an image are declared as a background. -/
theorem background_mem_fill {fills : List Paint} {reference : String}
    (h : reference ∈ imageReferences fills) (text : Bool) :
    ("background", backgroundValue (fillLayers fills)) ∈ fill text fills := by
  obtain ⟨paint, hpaint, mode, hink⟩ := mem_imageReferences.1 h
  have hmem := mem_fillLayers_of_image hpaint hink
  have hnotEmpty : (fillLayers fills).isEmpty = false :=
    List.isEmpty_eq_false_iff.2 (List.ne_nil_of_mem hmem)
  have hnotColors : ((fillLayers fills).all fun layer => layer.color?.isSome) = false := by
    rw [List.all_eq_false]
    exact ⟨_, hmem, by simp [FillLayer.color?]⟩
  rw [fill, layerDeclarations, hnotEmpty, hnotColors]
  exact List.mem_cons_self

theorem closed_fill_iff (hescapes : lexis.escapes = true) (hbreaks : lexis.breaks = false)
    (text : Bool) (fills : List Paint) :
    (∀ d ∈ fill text fills, lexis.Closed d.2) ↔
      ∀ reference ∈ imageReferences fills, fitsQuotes reference.toList = true := by
  constructor
  · intro h reference hreference
    have hclosed := h _ (background_mem_fill hreference text)
    exact (closed_backgroundValue_iff hescapes hbreaks fills).1 hclosed reference hreference
  · intro h d hd
    rcases mem_fill hd with rfl | hplain
    · exact (closed_backgroundValue_iff hescapes hbreaks fills).2 h
    · exact Lexis.closed_of_plain hplain

theorem closed_familyDeclaration_iff (hescapes : lexis.escapes = true)
    (hbreaks : lexis.breaks = false) (family : String) :
    lexis.Closed (familyDeclaration family).2 ↔ family.toList.all (!isLineBreak ·) = true := by
  rw [familyDeclaration, Lexis.closed_quoted_iff hescapes, hbreaks, Bool.false_or]

/-- What characters declare is closed if and only if the name of their font breaks no line and the
addresses of their fills fit. -/
theorem closed_textRecord_iff (hescapes : lexis.escapes = true) (hbreaks : lexis.breaks = false)
    (style : TextStyle) (fills : List Paint) :
    (∀ d ∈ (textRecord style fills).declarations, lexis.Closed d.2) ↔
      style.fontFamily.toList.all (!isLineBreak ·) = true ∧
        ∀ reference ∈ imageReferences fills, fitsQuotes reference.toList = true := by
  rw [declarations_textRecord, List.forall_mem_append, closed_fill_iff hescapes hbreaks,
    ← closed_familyDeclaration_iff hescapes hbreaks]
  refine and_congr_left' ⟨fun h => h _ List.mem_cons_self, fun h d hd => ?_⟩
  rcases mem_font hd with rfl | hplain
  · exact h
  · exact Lexis.closed_of_plain hplain

theorem background_mem_record {entry : Entry}
    (hkind : ∀ typeTag, entry.layer.kind ≠ .placeholder typeTag) {reference : String}
    (h : reference ∈ imageReferences entry.layer.fills) :
    ("background", backgroundValue (fillLayers entry.layer.fills)) ∈
      (record entry).declarations := by
  refine mem_record_of_mem_own ?_ (by simp)
  rw [ownDeclarations]
  refine List.mem_append_right _ (List.mem_append_right _ ?_)
  have hbox : ("background", backgroundValue (fillLayers entry.layer.fills)) ∈
      boxDeclarations entry.layer := by
    rw [boxDeclarations, List.append_assoc, List.append_assoc]
    exact List.mem_append_left _ (background_mem_fill h false)
  unfold contentDeclarations
  cases hentry : entry.layer.kind with
  | frame frame => exact hbox
  | instanceOf componentId frame => exact hbox
  | shape shape => exact hbox
  | text text =>
      refine List.mem_append_right _ ?_
      rw [baseRecord, declarations_textRecord]
      exact List.mem_append_right _ (background_mem_fill h true)
  | placeholder typeTag => exact absurd hentry (hkind typeTag)

/-- What a node declares is closed if and only if the name of its font breaks no line, if it is a
text, and the addresses of its fills fit, if it shows any. -/
theorem closed_record_iff (hescapes : lexis.escapes = true) (hbreaks : lexis.breaks = false)
    (entry : Entry) :
    (∀ d ∈ (record entry).declarations, lexis.Closed d.2) ↔
      (∀ text, entry.layer.kind = .text text →
        text.style.fontFamily.toList.all (!isLineBreak ·) = true) ∧
      ((∀ typeTag, entry.layer.kind ≠ .placeholder typeTag) →
        ∀ reference ∈ imageReferences entry.layer.fills, fitsQuotes reference.toList = true) := by
  constructor
  · intro h
    refine ⟨fun text hkind => ?_, fun hkind reference hreference => ?_⟩
    · rw [← closed_familyDeclaration_iff hescapes hbreaks]
      refine h _ (mem_record_of_mem_baseRecord hkind ?_)
      rw [baseRecord, declarations_textRecord]
      exact List.mem_cons_self
    · have hclosed := h _ (background_mem_record hkind hreference)
      exact (closed_backgroundValue_iff hescapes hbreaks _).1 hclosed reference hreference
  · rintro ⟨hfont, hfills⟩ d hd
    rcases mem_record hd with hplain | ⟨hkind, rfl⟩ | ⟨text, hkind, rfl⟩
    · exact Lexis.closed_of_plain hplain
    · exact (closed_backgroundValue_iff hescapes hbreaks _).2 (hfills hkind)
    · exact (closed_familyDeclaration_iff hescapes hbreaks _).2 (hfont text hkind)

end SceneMarkup.Style
