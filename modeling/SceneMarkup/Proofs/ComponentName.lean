/-
  SceneMarkup/Proofs/ComponentName.lean --- every component gets a name that a script can use.

  WHAT THIS FILE IS FOR.  Whatever something is called, its component has a name of letters
  and digits that begins with a capital.  No reserved word does, and no element of a page,
  so the name is free for a function and stands for a component where it is used.  Up to
  case it keeps all letters and digits that it is made from.
-/
import SceneMarkup.ModuleText
import SceneMarkup.Proofs.Slug

set_option autoImplicit false

namespace SceneMarkup

/-! ## Names in a script -/

namespace Script

/-- Whether a character can begin a name; letters beyond ASCII are left out. -/
def canBegin (c : Char) : Bool := c.isAlpha || c == '_' || c == '$'

/-- Whether a character can stand in a name. -/
def canGoOn (c : Char) : Bool := canBegin c || c.isDigit

/-- What nothing in a module can be called: keywords, literals, and what strict code keeps. -/
def reservedWords : List (List Char) :=
  ["arguments", "await", "break", "case", "catch", "class", "const", "continue", "debugger",
    "default", "delete", "do", "else", "enum", "eval", "export", "extends", "false", "finally",
    "for", "function", "if", "implements", "import", "in", "instanceof", "interface", "let", "new",
    "null", "package", "private", "protected", "public", "return", "static", "super", "switch",
    "this", "throw", "true", "try", "typeof", "var", "void", "while", "with", "yield"].map
    String.toList

/-- Whether a text is a name that a function can have. -/
def isName : List Char → Bool
  | [] => false
  | c :: rest => canBegin c && rest.all canGoOn && !reservedWords.contains (c :: rest)

/-- Whether an element of this name is one of the page itself and no component. -/
def isPageElement (name : List Char) : Bool := name.head?.any Char.isLower || name.contains '-'

/-- Names of letters and digits that begin with a capital. -/
structure IsComponentName (name : List Char) : Prop where
  capital : ∃ c ∈ name.head?, c.isUpper = true
  alphanum : ∀ c ∈ name, c.isAlphanum = true

/-- Reserved words begin with small letters. -/
theorem isLower_of_mem_reservedWords {c : Char} {rest : List Char}
    (h : c :: rest ∈ reservedWords) : c.isLower = true := by
  have hall : reservedWords.all (fun word => word.head?.all Char.isLower) = true := by
    decide
  exact List.all_eq_true.1 hall (c :: rest) h

theorem canGoOn_of_isAlphanum {c : Char} (h : c.isAlphanum = true) : canGoOn c = true := by
  rw [Char.isAlphanum, Bool.or_eq_true] at h
  obtain halpha | hdigit := h
  · simp [canGoOn, canBegin, halpha]
  · simp [canGoOn, hdigit]

theorem IsComponentName.ne_nil {name : List Char} (h : IsComponentName name) : name ≠ [] := by
  rintro rfl
  obtain ⟨c, hc, -⟩ := h.capital
  cases hc

theorem IsComponentName.isName {name : List Char} (h : IsComponentName name) :
    isName name = true := by
  obtain ⟨c, hc, hupper⟩ := h.capital
  obtain ⟨rest, rfl⟩ := List.head?_eq_some_iff.1 hc
  have hbegin : canBegin c = true := by simp [canBegin, Text.isAlpha_eq, hupper]
  have hrest : rest.all canGoOn = true := List.all_eq_true.2 fun d hd =>
    canGoOn_of_isAlphanum (h.alphanum d (List.mem_cons_of_mem c hd))
  have hfree : c :: rest ∉ reservedWords := fun hmem => by
    rw [Text.isUpper_eq_false_of_isLower (isLower_of_mem_reservedWords hmem)] at hupper
    cases hupper
  rw [Script.isName, hbegin, hrest, Bool.and_self, Bool.true_and, Bool.not_eq_true',
    List.contains_eq_mem, decide_eq_false hfree]

theorem IsComponentName.isPageElement_eq_false {name : List Char} (h : IsComponentName name) :
    isPageElement name = false := by
  obtain ⟨c, hc, hupper⟩ := h.capital
  have hlower : c.isLower = false := by
    rwa [Text.isUpper_eq_not_isLower (Bool.or_eq_true_iff.2 (.inl hupper)),
      Bool.not_eq_true'] at hupper
  have hhyphen : '-' ∉ name := fun hmem => absurd (h.alphanum '-' hmem) (by decide)
  rw [isPageElement, Option.mem_def.1 hc, Option.any_some, hlower, Bool.false_or,
    List.contains_eq_mem, decide_eq_false hhyphen]

end Script

/-! ## Words joined with capitals -/

namespace Text

theorem mem_capitalized {word : List Char} (hword : ∀ c ∈ word, c.isAlphanum = true) :
    ∀ c ∈ capitalized word, c.isAlphanum = true := by
  cases word with
  | nil => exact hword
  | cons d word =>
      rw [List.forall_mem_cons] at hword
      rw [capitalized, List.forall_mem_cons, List.forall_mem_map]
      exact ⟨isAlphanum_toUpper hword.1, fun c hc => isAlphanum_toLower (hword.2 c hc)⟩

theorem isAlphanum_of_mem_pascal {cs : List Char} {c : Char} (h : c ∈ pascal cs) :
    c.isAlphanum = true := by
  obtain ⟨word, hword, hc⟩ := List.mem_flatMap.1 h
  exact mem_capitalized (fun _ hd => isAlphanum_of_mem_words hword hd) c hc

theorem flatten_words (cs : List Char) : (words cs).flatten = cs.filter isWordChar := by
  rw [words, List.flatten_filter_not_isEmpty, flatten_pieces]

theorem map_toLower_capitalized {word : List Char} (hword : ∀ c ∈ word, c.isAlphanum = true) :
    (capitalized word).map Char.toLower = word.map Char.toLower := by
  cases word with
  | nil => rfl
  | cons c word =>
      rw [List.forall_mem_cons] at hword
      have hrest : (word.map Char.toLower).map Char.toLower = word.map Char.toLower := by
        rw [List.map_map]
        exact List.map_congr_left fun d hd => toLower_toLower (hword.2 d hd)
      rw [capitalized, List.map_cons, List.map_cons, toLower_toUpper hword.1, hrest]

/-- Up to case, the joined words are the letters and digits of the text. -/
theorem map_toLower_pascal (cs : List Char) :
    (pascal cs).map Char.toLower = (cs.filter isWordChar).map Char.toLower := by
  rw [pascal, List.map_flatMap, ← flatten_words, List.map_flatten, List.flatMap_def]
  refine congrArg List.flatten (List.map_congr_left fun word hword => ?_)
  exact map_toLower_capitalized fun _ hc => isAlphanum_of_mem_words hword hc

/-- The first letter or digit comes first, as a capital. -/
theorem head?_pascal (cs : List Char) :
    (pascal cs).head? = (cs.filter isWordChar).head?.map Char.toUpper := by
  rw [pascal, ← flatten_words]
  cases hwords : words cs with
  | nil => rfl
  | cons word rest =>
      have hmem : word ∈ words cs := hwords ▸ List.mem_cons_self
      have hne : word ≠ [] := by simpa using (List.mem_filter.1 hmem).2
      obtain ⟨c, word, rfl⟩ := List.exists_cons_of_ne_nil hne
      rfl

/-- A text with a blank in the place of everything that is no letter and no digit. -/
def blanked (cs : List Char) : List Char := cs.map fun c => if isWordChar c then c else ' '

theorem isLower_eq_false_of_not_isWordChar {c : Char} (h : isWordChar c = false) :
    c.isLower = false := by
  rw [isWordChar, Char.isAlphanum, isAlpha_eq, Bool.or_eq_false_iff, Bool.or_eq_false_iff] at h
  exact h.1.2

theorem any_isLower_blanked (cs : List Char) :
    (blanked cs).head?.any Char.isLower = cs.head?.any Char.isLower := by
  cases cs with
  | nil => rfl
  | cons c cs =>
      rw [blanked, List.map_cons, List.head?_cons, List.head?_cons, Option.any_some,
        Option.any_some]
      cases hword : isWordChar c with
      | true => rfl
      | false => exact (isLower_eq_false_of_not_isWordChar hword).symm

theorem splitsAfter_blanked (c : Char) (cs : List Char) :
    splitsAfter c (blanked cs) = splitsAfter c cs := by
  cases cs with
  | nil => rfl
  | cons d cs =>
      rw [blanked, List.map_cons, ← blanked, splitsAfter, splitsAfter]
      cases hword : isWordChar d with
      | true =>
          rw [if_pos rfl, splitsBetween, any_isLower_blanked]
          rfl
      | false =>
          rw [if_neg Bool.false_ne_true, splitsBetween_of_not_isWordChar c hword]
          exact splitsBetween_of_not_isWordChar c rfl

/-- What is no letter and no digit separates words as a blank does. -/
theorem pieces_blanked (cs : List Char) : pieces (blanked cs) = pieces cs := by
  induction cs with
  | nil => rfl
  | cons c cs ih =>
      rw [blanked, List.map_cons, ← blanked, pieces, pieces, ih, splitsAfter_blanked]
      cases hword : isWordChar c with
      | true => rw [if_pos rfl, hword]
      | false => rfl

end Text

/-! ## Names of components -/

/-- A digit never comes first, and a text without letters and digits gives a name all the same. -/
theorem componentName_eq (cs : List Char) :
    componentName cs =
      (if (cs.filter Text.isWordChar).head?.all Char.isDigit then "Component".toList else []) ++
        Text.pascal cs := by
  have hhead := Text.head?_pascal cs
  rw [componentName]
  cases hletters : cs.filter Text.isWordChar with
  | nil =>
      rw [hletters] at hhead
      rw [List.head?_eq_none_iff.1 hhead]
      rfl
  | cons c rest =>
      have hc : c.isAlphanum = true := (List.mem_filter.1 (hletters ▸ List.mem_cons_self)).2
      rw [hletters] at hhead
      obtain ⟨tail, htail⟩ := List.head?_eq_some_iff.1 hhead
      rw [htail, List.head?_cons, Option.all_some]
      dsimp only
      rw [Text.isDigit_toUpper hc]
      split
      · rfl
      · rfl

theorem isComponentName_componentName (cs : List Char) :
    Script.IsComponentName (componentName cs) := by
  have hhead := Text.head?_pascal cs
  rw [componentName_eq]
  split
  · refine ⟨⟨'C', rfl, rfl⟩, fun c hc => ?_⟩
    obtain hc | hc := List.mem_append.1 hc
    · have hprefix : "Component".toList.all Char.isAlphanum = true := by decide
      exact List.all_eq_true.1 hprefix c hc
    · exact Text.isAlphanum_of_mem_pascal hc
  · rename_i hfirst
    refine ⟨?_, fun c hc => Text.isAlphanum_of_mem_pascal hc⟩
    rw [List.nil_append, hhead]
    cases hletters : cs.filter Text.isWordChar with
    | nil => exact absurd (by rw [hletters]; rfl) hfirst
    | cons c rest =>
        have hc : c.isAlphanum = true := (List.mem_filter.1 (hletters ▸ List.mem_cons_self)).2
        rw [hletters, List.head?_cons, Option.all_some] at hfirst
        rw [Char.isAlphanum, Bool.or_eq_true] at hc
        exact ⟨c.toUpper, rfl, Text.isUpper_toUpper (hc.resolve_right hfirst)⟩

/-- Up to case, a component is called by the letters and digits of its text. -/
theorem map_toLower_componentName (cs : List Char) :
    (componentName cs).map Char.toLower =
      (if (cs.filter Text.isWordChar).head?.all Char.isDigit then "component".toList else []) ++
        (cs.filter Text.isWordChar).map Char.toLower := by
  rw [componentName_eq, List.map_append, Text.map_toLower_pascal]
  split
  · rfl
  · rfl

theorem componentName_blanked (cs : List Char) :
    componentName (Text.blanked cs) = componentName cs := by
  have hwords : Text.words (Text.blanked cs) = Text.words cs := by
    rw [Text.words, Text.words, Text.pieces_blanked]
  rw [componentName, componentName, Text.pascal, Text.pascal, hwords]

/-! ## Modules -/

/-- The text of a module whose component has a name. -/
def componentText (given stylesheet body : String) : String :=
  String.join ["import React from 'react';\nimport './", stylesheet,
    "';\n\nexport function ", given, "() \x7b\n  return (\n",
    String.ofList (Text.indent 4 body.toList),
    "\n  );\n\x7d\n\nexport default ", given, ";\n"]

/-- Whatever its text, a component has a name that a function can have and that no element of a page
has; it is made of the letters and digits of the text, and both the declaration and the export of a
module give it. -/
theorem components_named (name : String) :
    Script.IsComponentName (componentName name.toList) ∧
    Script.isName (componentName name.toList) = true ∧
    Script.isPageElement (componentName name.toList) = false ∧
    (componentName name.toList).map Char.toLower =
      (if (name.toList.filter Text.isWordChar).head?.all Char.isDigit
        then "component".toList else []) ++
        (name.toList.filter Text.isWordChar).map Char.toLower ∧
    (∀ stylesheet body : String,
      Template.Library.builtin.render "component" (Template.moduleFields name stylesheet body) =
        .ok (componentText (String.ofList (componentName name.toList)) stylesheet body)) ∧
    ∀ (roots : List Markup) (stylesheet : String),
      componentModule name roots stylesheet =
        componentText (String.ofList (componentName name.toList)) stylesheet
          (Markup.expression roots) := by
  have hname := isComponentName_componentName name.toList
  refine ⟨hname, hname.isName, hname.isPageElement_eq_false,
    map_toLower_componentName name.toList, fun stylesheet body => ?_, fun roots stylesheet => ?_⟩
  · rfl
  · rfl

example : componentName "404 page".toList = "Component404Page".toList := by decide

end SceneMarkup
