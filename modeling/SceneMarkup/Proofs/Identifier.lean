/-
  SceneMarkup/Proofs/Identifier.lean --- class names are identifiers.

  WHAT THIS FILE IS FOR.  Every class is named by a slug with something in front and
  perhaps a number behind.  The slug begins with a letter whatever the node is called; if
  what stands in front does so too, the name is an identifier of a stylesheet, and a class
  attribute that holds it holds one class.
-/
import SceneMarkup.Proofs.Occurrence
import SceneMarkup.Proofs.ReadBack
import SceneMarkup.Proofs.Slug

set_option autoImplicit false

namespace SceneMarkup

namespace Style

/-! ## Identifiers -/

/-- Whether an identifier may begin with a character. -/
def isIdentifierStart (c : Char) : Bool := c.isAlpha || c == '_' || decide (0x80 ≤ c.toNat)

/-- Whether a character may stand in an identifier. -/
def isIdentifierChar (c : Char) : Bool := isIdentifierStart c || c.isDigit || c == '-'

/-- Whether a text is an identifier of a stylesheet that is written without escapes. One hyphen may
stand in front of what it begins with, and two may stand in front of anything. -/
def isIdentifier : List Char → Bool
  | '-' :: '-' :: rest => rest.all isIdentifierChar
  | '-' :: c :: rest => isIdentifierStart c && rest.all isIdentifierChar
  | c :: rest => isIdentifierStart c && rest.all isIdentifierChar
  | [] => false

/-- A letter and then letters, digits and hyphens. -/
def IsWordName (text : String) : Prop :=
  ∃ c rest, text.toList = c :: rest ∧ c.isAlpha = true ∧ rest.all isNameChar = true

theorem isIdentifierChar_of_isNameChar {c : Char} (h : isNameChar c = true) :
    isIdentifierChar c = true := by
  simp only [isNameChar, Char.isAlphanum, Bool.or_eq_true] at h
  simp only [isIdentifierChar, isIdentifierStart, Bool.or_eq_true]
  tauto

theorem IsWordName.isIdentifier {text : String} (h : IsWordName text) :
    isIdentifier text.toList = true := by
  obtain ⟨c, rest, htext, hc, hrest⟩ := h
  have hstart : isIdentifierStart c = true := by simp [isIdentifierStart, hc]
  have hall : rest.all isIdentifierChar = true :=
    List.all_eq_true.2 fun d hd => isIdentifierChar_of_isNameChar (List.all_eq_true.1 hrest d hd)
  rw [htext]
  unfold Style.isIdentifier
  split
  · rename_i heq
    cases heq
    cases hc
  · rename_i heq
    cases heq
    cases hc
  · rename_i heq
    cases heq
    rw [hstart, hall]
    rfl
  · rename_i heq
    cases heq

theorem IsWordName.all_isNameChar {text : String} (h : IsWordName text) :
    text.toList.all isNameChar = true := by
  obtain ⟨c, rest, htext, hc, hrest⟩ := h
  have hfirst : isNameChar c = true := by simp [isNameChar, Char.isAlphanum, hc]
  rw [htext, List.all_cons, hfirst, hrest]
  rfl

theorem isBlank_eq_false_of_isNameChar {c : Char} (h : isNameChar c = true) :
    Text.isBlank c = false := by
  have hrange : 0x2D ≤ c.toNat ∧ c.toNat ≤ 0x7A := by
    rw [isNameChar, Bool.or_eq_true, beq_iff_eq] at h
    rcases h with halphanum | rfl
    · have hchar := Text.range_of_isAlphanum halphanum
      omega
    · decide
  simp only [Text.isBlank, Bool.or_eq_false_iff, Bool.and_eq_false_iff, decide_eq_false_iff_not,
    beq_eq_false_iff_ne]
  omega

end Style

/-! ## Names of classes -/

namespace ClassName

/-- Whether class names may begin with a text: it is empty, or begins with a letter and goes on with
letters, digits and hyphens. -/
def canBegin (start : String) : Bool :=
  start.toList.head?.all Char.isAlpha && start.toList.all Style.isNameChar

open Style (IsWordName isNameChar)

theorem isWordName_candidate {base : String} (h : IsWordName base) (k : Nat) :
    IsWordName (candidate base k) := by
  cases k with
  | zero => exact h
  | succ k =>
      obtain ⟨c, rest, hbase, hc, hrest⟩ := h
      refine ⟨c, rest ++ '-' :: (toString (k + 2)).toList, ?_, hc, ?_⟩
      · rw [toList_candidate_succ, hbase, List.cons_append]
      · rw [List.all_append, hrest, List.all_cons, all_isNameChar_toString]
        rfl

/-- A slug behind what class names may begin with begins with a letter. -/
theorem isWordName_append {start slug : String} (hstart : canBegin start = true)
    (h : IsSlug slug.toList) : IsWordName (start ++ slug) := by
  obtain ⟨c, hc, hlower⟩ := h.first
  obtain ⟨rest, hslug⟩ := List.head?_eq_some_iff.1 hc
  have hchars : slug.toList.all isNameChar = true := by
    refine List.all_eq_true.2 fun d hd => ?_
    rcases h.chars d hd with hd | hd | rfl
    · exact isNameChar_of_isAlphanum (by simp [Char.isAlphanum, Text.isAlpha_eq, hd])
    · exact isNameChar_of_isAlphanum (by simp [Char.isAlphanum, hd])
    · decide
  rw [canBegin, Bool.and_eq_true] at hstart
  cases hempty : start.toList with
  | nil =>
      rw [hslug, List.all_cons, Bool.and_eq_true] at hchars
      refine ⟨c, rest, ?_, by simp [Text.isAlpha_eq, hlower], hchars.2⟩
      rw [String.toList_append, hempty, hslug, List.nil_append]
  | cons d more =>
      rw [hempty, List.all_cons, Bool.and_eq_true] at hstart
      refine ⟨d, more ++ slug.toList, ?_, by simpa using hstart.1, ?_⟩
      · rw [String.toList_append, hempty, List.cons_append]
      · rw [List.all_append, hstart.2.2, hchars]
        rfl

/-- The name of a kind is one word. -/
theorem areSlugWords_label (kind : NodeKind) : AreSlugWords kind.label.toList [] := by
  have hlabel : ∀ label ∈ ["frame", "instance", "text", "shape", "placeholder"],
      Text.isPlain label.toList = true ∧ label.toList ≠ [] ∧
        label.toList.head?.any Char.isLower = true := by decide
  have hmem : kind.label ∈ ["frame", "instance", "text", "shape", "placeholder"] := by
    cases kind <;> simp [NodeKind.label]
  obtain ⟨hplain, hne, hletter⟩ := hlabel _ hmem
  refine ⟨List.forall_mem_singleton.2 hplain, List.forall_mem_singleton.2 hne, ?_⟩
  obtain ⟨c, rest, hcons⟩ := List.exists_cons_of_ne_nil hne
  rw [hcons] at hletter ⊢
  exact ⟨c, rfl, hletter⟩

end ClassName

namespace Emission.Classes

open ClassName (candidate suggest)

theorem start_give (classes : Classes) (request : ClassRequest) :
    (classes.give request).namer.start = classes.namer.start := by
  rcases give_cases classes request with ⟨hsame, -⟩ | ⟨-, -, hgive⟩
  · rw [hsame]
  · rw [hgive]
    rfl

/-- The class of a new rule is named after the request that it was made for. -/
theorem exists_candidate_of_mem_serve {classes : Classes} {requests : List ClassRequest}
    {rule : Rule} (h : rule ∈ (classes.serve requests).rules) : rule ∈ classes.rules ∨
      ∃ q ∈ requests, ∃ k,
        rule.className = candidate (classes.namer.start ++ suggest q.name q.fallback) k := by
  induction requests generalizing classes with
  | nil => exact .inl h
  | cons request rest ih =>
      rw [serve_cons] at h
      rcases ih h with hgiven | ⟨q, hq, k, hname⟩
      · rcases give_cases classes request with ⟨hsame, -⟩ | ⟨-, -, hgive⟩
        · rw [hsame] at hgiven
          exact .inl hgiven
        · rw [hgive, List.mem_append, List.mem_singleton] at hgiven
          refine hgiven.imp_right fun hnew => ⟨request, List.mem_cons_self, ?_⟩
          obtain ⟨k, hk, -⟩ := ClassName.firstFree_eq classes.namer.used
            (classes.namer.start ++ suggest request.name request.fallback)
          exact ⟨k, by rw [hnew, ← hk]; rfl⟩
      · rw [start_give] at hname
        exact .inr ⟨q, List.mem_cons_of_mem request hq, k, hname⟩

end Emission.Classes

/-! ## Compiled scenes -/

/-- Every rule of a forest has a class that begins with a letter. -/
theorem isWordName_of_mem_rules {options : EmitOptions}
    (hstart : ClassName.canBegin options.classStart = true) {roots : List Node} {rule : Rule}
    (h : rule ∈ (Emission.classesOf options (sketchesOf options roots)).rules) :
    Style.IsWordName rule.className := by
  rcases Emission.Classes.exists_candidate_of_mem_serve h with hnone | ⟨q, hq, k, hname⟩
  · simp [Emission.Classes.fresh] at hnone
  · rw [sketchesOf,
      ← Emission.flatMap_requestsOf_kept (suffice_resolve options roots) none 0 0] at hq
    obtain ⟨styled, -, hq⟩ := List.mem_flatMap.1 hq
    obtain ⟨first, others, hwords, hsuggest⟩ :=
      @ClassName.exists_words_suggest q.name q.fallback fun hnone => by
        obtain ⟨kind, hkind⟩ := exists_label_of_mem_requestsOf hq hnone
        rw [hkind]
        exact ClassName.areSlugWords_label kind
    have hslug : ClassName.IsSlug (ClassName.suggest q.name q.fallback).toList := by
      rw [hsuggest, String.toList_ofList]
      exact hwords.isSlug
    rw [hname]
    exact ClassName.isWordName_candidate (ClassName.isWordName_append hstart hslug) k

/-- What is suggested for a node is small letters, digits and single hyphens between them, begins
with a letter, and suggests itself. So if what class names begin with is empty or begins with a
letter and goes on with letters, digits and hyphens, then every class in the markup of a scene and
in its stylesheet, those of spans included, is an identifier without blanks. -/
theorem classes_are_identifiers :
    (∀ (name : String) (kind : NodeKind),
      ClassName.IsSlug (ClassName.suggest name kind.label).toList ∧
        ∀ fallback, ClassName.suggest (ClassName.suggest name kind.label) fallback =
          ClassName.suggest name kind.label) ∧
    ∀ (tree : SceneTree) (options : Options) (out : Output),
      ClassName.canBegin (options.classStart.getD "") = true → compileTree tree options = .ok out →
        ∀ given, given ∈ Markup.classesIn out.markup ∨ given ∈ out.stylesheet.map (·.className) →
          Style.isIdentifier given.toList = true ∧ given.toList.all (!Text.isBlank ·) = true := by
  refine ⟨fun name kind => ?_, fun tree options out hstart h given hgiven => ?_⟩
  · obtain ⟨first, others, hwords, hsuggest⟩ := @ClassName.exists_words_suggest
      name kind.label fun _ => ClassName.areSlugWords_label kind
    rw [hsuggest, String.toList_ofList]
    exact ⟨hwords.isSlug, hwords.suggest_eq⟩
  · obtain ⟨roots, -, rfl⟩ := exists_roots_of_compileParsed h
    have hnames := names_classesOf options.emitOptions (sketchesOf options.emitOptions roots)
    have hrule : given ∈ (Emission.classesOf options.emitOptions
        (sketchesOf options.emitOptions roots)).names := by
      rcases hgiven with hmarkup | hsheet
      · rw [hnames]
        exact List.mem_eraseDups.2 hmarkup
      · exact hsheet
    obtain ⟨rule, hmem, rfl⟩ := List.mem_map.1 hrule
    have hname := @isWordName_of_mem_rules options.emitOptions hstart _ _ hmem
    refine ⟨hname.isIdentifier, List.all_eq_true.2 fun c hc => ?_⟩
    rw [Style.isBlank_eq_false_of_isNameChar (List.all_eq_true.1 hname.all_isNameChar c hc)]
    rfl

/-- A frame without a usable name, a text that begins with a digit, and a run of it, in classes that
begin with something. -/
theorem classes_are_identifiers_of_digits :
    let own : StyleOverride := ⟨some "Serif", none, none, none, none, none, none, none, none⟩
    let text : TextBlock := ⟨"Hi you", .ofFont "Inter" 400 16, [], [(1, own)], [⟨3, 6, 1⟩]⟩
    let tree : SceneTree := ⟨none,
      [⟨{ Layer.ofKind "a" (.frame .plain) with name := "*** é" }, []⟩,
        ⟨{ Layer.ofKind "b" (.text text) with name := "404 Page\tv2-B" }, []⟩]⟩
    let options : Options := { Options.default with classStart := some "P-" }
    ClassName.canBegin (options.classStart.getD "") = true ∧
      ∃ out, compileTree tree options = .ok out ∧
        Markup.classesIn out.markup =
          ["P-frame", "P-n-404-page-v-2-b", "P-n-404-page-v-2-b-run"] ∧
        ∀ given, given ∈ Markup.classesIn out.markup ∨ given ∈ out.stylesheet.map (·.className) →
          Style.isIdentifier given.toList = true ∧ given.toList.all (!Text.isBlank ·) = true := by
  intro own text tree options
  have hstart : ClassName.canBegin (options.classStart.getD "") = true := by decide
  have hcompiles : compileTree tree options = .ok (outputOf [] options tree.roots) :=
    compileParsed_eq tree [] options
  exact ⟨hstart, _, hcompiles, by decide +kernel,
    classes_are_identifiers.2 tree options _ hstart hcompiles⟩

end SceneMarkup
