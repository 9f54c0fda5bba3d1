/-
  SceneMarkup/Proofs/Style/Key.lean --- the key of a record tells its declarations.

  WHAT THIS FILE IS FOR.  A key is properties and values with `:` and `;` between them,
  and nothing in it is escaped, though the name of a font or the address of an image may
  hold any character.  It can be read again all the same: the name of a property says how
  its value was quoted, and so where the value ends.
-/
import SceneMarkup.Proofs.Style.Declared

set_option autoImplicit false

namespace SceneMarkup.Style

/-! ## Declarations in a key -/

/-- How the value of a property was quoted: names of fonts are escaped, and addresses of images
are not. -/
def lexisOf (property : String) : Lexis := ⟨property == "font-family", true⟩

/-- A declaration that is found again in a key. -/
structure Written (d : Declaration) : Prop where
  name : IsName d.1
  value : (lexisOf d.1).Closed d.2

/-- The text of a declaration in a key. -/
def keyText (d : Declaration) : String := d.1 ++ ":" ++ d.2 ++ ";"

theorem toList_keyText (d : Declaration) :
    (keyText d).toList = d.1.toList ++ ':' :: (d.2.toList ++ [';']) := by
  rw [keyText, String.toList_append, String.toList_append, String.toList_append, List.append_assoc,
    List.append_assoc]
  rfl

/-- A text has one first occurrence of a character. -/
theorem eq_of_append_cons {c : Char} {first second rest others : List Char} (hfirst : c ∉ first)
    (hsecond : c ∉ second) (h : first ++ c :: rest = second ++ c :: others) :
    first = second ∧ rest = others := by
  induction first generalizing second with
  | nil =>
      cases second with
      | nil => exact ⟨rfl, (List.cons.inj h).2⟩
      | cons d second => exact absurd ((List.cons.inj h).1 ▸ List.mem_cons_self) hsecond
  | cons d first ih =>
      rw [List.mem_cons, not_or] at hfirst
      cases second with
      | nil => exact absurd (List.cons.inj h).1.symm hfirst.1
      | cons e second =>
          rw [List.mem_cons, not_or] at hsecond
          obtain ⟨rfl, htail⟩ := List.cons.inj h
          obtain ⟨rfl, hrest⟩ := ih hfirst.2 hsecond.2 htail
          exact ⟨rfl, hrest⟩

/-- What a key begins with tells its first declaration. -/
theorem Written.eq_of_append {d e : Declaration} (hd : Written d) (he : Written e)
    {rest others : List Char} (h : (keyText d).toList ++ rest = (keyText e).toList ++ others) :
    d = e ∧ rest = others := by
  have hcolon : isNameChar ':' = false := by decide
  rw [toList_keyText, toList_keyText, List.append_assoc, List.append_assoc, List.cons_append,
    List.cons_append, List.append_assoc, List.append_assoc] at h
  obtain ⟨hname, htail⟩ := eq_of_append_cons (hd.name.not_mem hcolon) (he.name.not_mem hcolon) h
  rw [String.toList_inj] at hname
  have hdclosed := hd.value
  rw [hname] at hdclosed
  obtain ⟨hvalue, hrest⟩ := Lexis.eq_of_append_semicolon hdclosed he.value htail
  exact ⟨Prod.ext hname (String.toList_inj.1 hvalue), hrest⟩

/-- Keys tell lists of declarations apart if what a key begins with always tells the first of
them. -/
theorem eq_of_join_keyText_eq {ds es : List Declaration}
    (hfirst : ∀ d ∈ ds, ∀ e ∈ es, ∀ rest others : List Char,
      (keyText d).toList ++ rest = (keyText e).toList ++ others → d = e ∧ rest = others)
    (h : String.join (ds.map keyText) = String.join (es.map keyText)) : ds = es := by
  have hne : ∀ (d : Declaration) (rest : List Char), (keyText d).toList ++ rest ≠ [] := by
    intro d rest hnil
    rw [toList_keyText] at hnil
    simp at hnil
  have hchars := congrArg String.toList h
  rw [String.toList_join, String.toList_join, List.flatMap_map, List.flatMap_map] at hchars
  clear h
  induction ds generalizing es with
  | nil =>
      cases es with
      | nil => rfl
      | cons e es => exact absurd hchars.symm (hne e _)
  | cons d ds ih =>
      cases es with
      | nil => exact absurd hchars (hne d _)
      | cons e es =>
          rw [List.flatMap_cons, List.flatMap_cons] at hchars
          obtain ⟨rfl, hrest⟩ :=
            hfirst d List.mem_cons_self e List.mem_cons_self _ _ hchars
          have hlater := ih (fun d' hd' e' he' => hfirst d' (List.mem_cons_of_mem _ hd') e'
            (List.mem_cons_of_mem _ he')) hrest
          rw [hlater]

/-- Records whose keys tell the first of their declarations, and so on, have the same key if and
only if they hold the same declarations. -/
theorem canonicalKey_eq_iff_of_first {r s : Record}
    (hfirst : ∀ d ∈ r.declarations, ∀ e ∈ s.declarations, ∀ rest others : List Char,
      (keyText d).toList ++ rest = (keyText e).toList ++ others → d = e ∧ rest = others) :
    r.canonicalKey = s.canonicalKey ↔ r.SameDeclarations s := by
  constructor
  · intro h
    have hsorted : r.sorted = s.sorted :=
      eq_of_join_keyText_eq (fun d hd e he =>
        hfirst d (Declarations.mem_sort.1 hd) e (Declarations.mem_sort.1 he)) h
    intro d
    have hmem : d ∈ r.sorted ↔ d ∈ s.sorted := by rw [hsorted]
    exact Declarations.mem_sort.symm.trans (hmem.trans Declarations.mem_sort)
  · exact Record.SameDeclarations.canonicalKey_eq

/-- Records have the same key if and only if they hold the same declarations. -/
theorem canonicalKey_eq_iff {r s : Record} (hr : ∀ d ∈ r.declarations, Written d)
    (hs : ∀ d ∈ s.declarations, Written d) :
    r.canonicalKey = s.canonicalKey ↔ r.SameDeclarations s :=
  canonicalKey_eq_iff_of_first fun d hd e he _ _ h => (hr d hd).eq_of_append (hs e he) h

/-! ## Declarations of records -/

theorem isName_of_mem_order {a : Arrangement} {property : String} (h : property ∈ order a) :
    IsName property := by
  have hall : ∀ property ∈ order a, IsName property := by
    obtain ⟨flow, text, laid⟩ := a
    cases flow <;> cases text <;> cases laid <;> decide
  exact hall property h

theorem Ordered.isName {r : Record} (hr : Ordered r) {d : Declaration} (h : d ∈ r.declarations) :
    IsName d.1 :=
  isName_of_mem_order (hr.mem (List.mem_map_of_mem h))

theorem closed_familyDeclaration (family : String) :
    (lexisOf (familyDeclaration family).1).Closed (familyDeclaration family).2 :=
  (Lexis.closed_quoted_iff rfl family).2 rfl

theorem closed_background (fills : List Paint) :
    (lexisOf "background").Closed (backgroundValue (fillLayers fills)) :=
  closed_backgroundValue fills fun _ _ reference mode _ =>
    Lexis.closed_imageValue rfl rfl reference mode

/-! ## The records of a scene -/

/-- The records of nodes and of runs of text. -/
inductive Produced : Record → Prop where
  | node (entry : Entry) : Produced (record entry)
  | run (layer : Layer) (text : TextBlock) (run : Run) : Produced (resolveRun layer text run).record

/-- The record of a run is empty, or what is left of the record of its characters. -/
theorem record_resolveRun (layer : Layer) (text : TextBlock) (run : Run) :
    (resolveRun layer text run).record = .empty ∨
      ∃ own, overrideOf? text run = some own ∧ (resolveRun layer text run).record =
        (overriddenRecord layer text own).difference (baseRecord layer text) := by
  cases hown : overrideOf? text run with
  | none => rw [resolveRun, hown]; exact Or.inl rfl
  | some own => rw [resolveRun, hown]; exact Or.inr ⟨own, rfl, rfl⟩

theorem Produced.ordered {r : Record} (h : Produced r) : Ordered r := by
  cases h with
  | node entry => exact ordered_record entry
  | run layer text run =>
      rcases record_resolveRun layer text run with hempty | ⟨own, _, hrecord⟩
      · rw [hempty]; exact List.nil_sublist _
      · rw [hrecord]; exact ordered_difference _ _ _

/-- A declaration of a scene is plain, or it is a font or a background. -/
theorem Produced.mem_cases {r : Record} (h : Produced r) {d : Declaration}
    (hd : d ∈ r.declarations) :
    Plain d.2 ∨ (∃ fills, d = ("background", backgroundValue (fillLayers fills))) ∨
      ∃ family, d = familyDeclaration family := by
  cases h with
  | node entry =>
      rcases mem_record hd with hplain | ⟨_, hbackground⟩ | ⟨text, _, hfamily⟩
      · exact Or.inl hplain
      · exact Or.inr (Or.inl ⟨_, hbackground⟩)
      · exact Or.inr (Or.inr ⟨_, hfamily⟩)
  | run layer text run =>
      rcases record_resolveRun layer text run with hempty | ⟨own, _, hrecord⟩
      · rw [hempty] at hd; simp [Record.empty] at hd
      · rw [hrecord] at hd
        rcases mem_textRecord (Record.mem_difference.1 hd).1 with hfamily | hbackground | hplain
        · exact Or.inr (Or.inr ⟨_, hfamily⟩)
        · exact Or.inr (Or.inl ⟨_, hbackground⟩)
        · exact Or.inl hplain

theorem Produced.written {r : Record} (h : Produced r) : ∀ d ∈ r.declarations, Written d := by
  intro d hd
  refine ⟨h.ordered.isName hd, ?_⟩
  rcases h.mem_cases hd with hplain | ⟨fills, rfl⟩ | ⟨family, rfl⟩
  · exact Lexis.closed_of_plain hplain
  · exact closed_background fills
  · exact closed_familyDeclaration family

/-- A key tells a record of a scene, up to the order of its declarations. -/
theorem Produced.canonicalKey_eq_iff {r s : Record} (hr : Produced r) (hs : Produced s) :
    r.canonicalKey = s.canonicalKey ↔ r.SameDeclarations s :=
  Style.canonicalKey_eq_iff hr.written hs.written

end SceneMarkup.Style
