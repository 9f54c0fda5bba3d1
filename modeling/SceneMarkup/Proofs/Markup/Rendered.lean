/-
  SceneMarkup/Proofs/Markup/Rendered.lean --- rendered markup is read back.

  WHAT THIS FILE IS FOR.  Markup is rendered either within a line or over several lines,
  and the reader finds the same tokens in both.  Each part of a rendered text leads the
  reader from one spot to another: a value of an attribute, an opening tag, a text, a
  line.  `read_render` puts them together: a forest of blocks is read as it was, up to
  how its texts are cut.
-/
import SceneMarkup.Proofs.Markup.Reader

set_option autoImplicit false

namespace SceneMarkup

open Style (IsName isNameChar)

/-! ## What can be read -/

/-- A tag whose names are names, and none of whose attributes is called like the class. -/
structure Tag.Readable (tag : Tag) : Prop where
  isName : IsName tag.name
  ne_break : tag.name ≠ "br"
  isName_of_mem : ∀ a ∈ tag.attributes, IsName a.1
  ne_class_of_mem : ∀ a ∈ tag.attributes, ∀ flavor, a.1 ≠ Markup.classKey flavor

namespace Markup

/-- Markup that is rendered within a line: a text that is not empty, or a span. -/
inductive Inline : Markup → Prop where
  | text {content : String} (h : content ≠ "") : Inline (.text content)
  | span {tag : Tag} {children : List Markup} (htag : tag.Readable) (hname : tag.name = "span")
      (hchildren : ∀ m ∈ children, Inline m) : Inline (.element tag children)

/-- Markup that is rendered on lines of its own: on one line, if its content is within a line, or
around the lines of its content. -/
inductive Block : Markup → Prop where
  | line {tag : Tag} {children : List Markup} (htag : tag.Readable) (hname : tag.name ≠ "span")
      (hchildren : ∀ m ∈ children, Inline m) : Block (.element tag children)
  | box {tag : Tag} {children : List Markup} (htag : tag.Readable) (hname : tag.name ≠ "span")
      (hchildren : ∀ m ∈ children, Block m) : Block (.element tag children)

theorem allInline_eq_true_iff {ms : List Markup} :
    allInline ms = true ↔ ∀ m ∈ ms, m.isInline = true := by
  induction ms with
  | nil => simp [allInline]
  | cons m rest ih => rw [allInline, Bool.and_eq_true, ih, List.forall_mem_cons]

theorem Inline.isInline {m : Markup} (h : Inline m) : m.isInline = true := by
  induction h with
  | text => rfl
  | span _ hname _ ih => rw [Markup.isInline, hname, allInline_eq_true_iff.2 ih]; rfl

theorem Block.isInline {m : Markup} (h : Block m) : m.isInline = false := by
  cases h with
  | line _ hname _ => simp [Markup.isInline, hname]
  | box _ hname _ => simp [Markup.isInline, hname]

theorem Inline.readsBack {m : Markup} (h : Inline m) : m.ReadsBack := by
  induction h with
  | text hne => exact readsBack_text hne
  | span _ _ _ ih => exact readsBack_element ih

theorem Block.readsBack {m : Markup} (h : Block m) : m.ReadsBack := by
  induction h with
  | line _ _ hchildren => exact readsBack_element fun m hm => (hchildren m hm).readsBack
  | box _ _ _ ih => exact readsBack_element ih

namespace Scanner

variable {flavor : Flavor} {ts : List Token}

/-! ## Names -/

/-- Where a reader takes the characters of a name one by one, it takes a whole name. -/
theorem run_nameChars {place : List Char → Spot}
    (hplace : ∀ chars c, isNameChar c = true →
      step flavor ⟨ts, place chars⟩ c = some ⟨ts, place (chars ++ [c])⟩)
    {cs : List Char} (h : ∀ c ∈ cs, isNameChar c = true) (start : List Char) :
    run flavor ⟨ts, place start⟩ cs = some ⟨ts, place (start ++ cs)⟩ := by
  induction cs generalizing start with
  | nil => rw [List.append_nil, run_nil]
  | cons c cs ih =>
      rw [List.forall_mem_cons] at h
      rw [run_cons, hplace start c h.1, Option.bind_some, ih h.2, List.append_assoc,
        List.singleton_append]

/-! ## Attributes -/

theorem run_attributeChar (tag : Tag) (name : String) (chars : List Char) (c : Char) :
    run flavor ⟨ts, .value tag name chars⟩ (attributeChar c) =
      some ⟨ts, .value tag name (chars ++ [c])⟩ := by
  unfold attributeChar
  split
  · rfl
  · rfl
  · rfl
  · rfl
  · rename_i hamp hquote _ _
    simp only [run_cons, step, if_neg hquote, if_neg hamp, Option.bind_some, run_nil]

/-- The escaped value of an attribute is read as the value. -/
theorem run_escaped (tag : Tag) (name : String) (chars cs : List Char) :
    run flavor ⟨ts, .value tag name chars⟩ (cs.flatMap attributeChar) =
      some ⟨ts, .value tag name (chars ++ cs)⟩ := by
  induction cs generalizing chars with
  | nil => rw [List.append_nil]; rfl
  | cons c cs ih =>
      rw [List.flatMap_cons, run_append, run_attributeChar, Option.bind_some, ih,
        List.append_assoc, List.singleton_append]

theorem toList_attributeText (a : String × String) :
    (attributeText a).toList =
      ' ' :: (a.1.toList ++ '=' :: '"' :: (a.2.toList.flatMap attributeChar ++ ['"'])) := by
  simp [attributeText, escapeAttribute]

theorem run_attributeText {a : String × String} (h : IsName a.1) (tag : Tag) :
    run flavor ⟨ts, .quote tag⟩ (attributeText a).toList =
      some ⟨ts, .quote (withAttribute flavor tag a)⟩ := by
  obtain ⟨c, cs, hchars, hc, hcs⟩ := h.exists_cons
  have hkey : step flavor ⟨ts, .gap tag⟩ c = some ⟨ts, .key tag [c]⟩ := by
    simp only [step, if_pos hc]
  have hname : run flavor ⟨ts, .key tag [c]⟩ cs = some ⟨ts, .key tag a.1.toList⟩ := by
    rw [hchars]
    exact @run_nameChars flavor ts (.key tag) (fun chars d hd => by simp only [step, if_pos hd])
      cs hcs [c]
  have hequals : ∀ rest, run flavor ⟨ts, .key tag a.1.toList⟩ ('=' :: '"' :: rest) =
      run flavor ⟨ts, .value tag a.1 []⟩ rest := by
    intro rest
    show run flavor ⟨ts, .value tag (String.ofList a.1.toList) []⟩ rest = _
    rw [String.ofList_toList]
  rw [toList_attributeText, run_cons]
  show run flavor ⟨ts, .gap tag⟩ _ = _
  rw [hchars, List.cons_append, run_cons, hkey, Option.bind_some, run_append, hname,
    Option.bind_some, hequals, run_append, run_escaped, Option.bind_some, List.nil_append]
  show some (Scanner.mk ts (.quote (withAttribute flavor tag (a.1, String.ofList a.2.toList)))) = _
  rw [String.ofList_toList]

theorem run_attributes {attributes : List (String × String)} (h : ∀ a ∈ attributes, IsName a.1)
    (tag : Tag) :
    run flavor ⟨ts, .quote tag⟩ (String.join (attributes.map attributeText)).toList =
      some ⟨ts, .quote (attributes.foldl (withAttribute flavor) tag)⟩ := by
  induction attributes generalizing tag with
  | nil => rfl
  | cons a rest ih =>
      rw [List.forall_mem_cons] at h
      rw [List.map_cons, String.join_cons, String.toList_append, run_append,
        run_attributeText h.1, Option.bind_some, ih h.2, List.foldl_cons]

/-! ## Tags -/

/-- All attributes of a tag as they are written, the class before the others. -/
def written (flavor : Flavor) (tag : Tag) : List (String × String) :=
  (tag.className.map fun name => (flavor.classAttribute, name)).toList ++ tag.attributes

theorem openTag_eq (tag : Tag) : openTag flavor tag =
    "<" ++ tag.name ++ String.join ((written flavor tag).map attributeText) := by
  rw [openTag, written]
  cases tag.className with
  | none => simp
  | some name => simp [String.append_assoc]

theorem classAttribute_eq_classKey (flavor : Flavor) : flavor.classAttribute = classKey flavor := by
  cases flavor <;> rfl

theorem isName_classAttribute (flavor : Flavor) : IsName flavor.classAttribute := by
  cases flavor <;> decide

theorem isName_of_mem_written {tag : Tag} (h : tag.Readable) :
    ∀ a ∈ written flavor tag, IsName a.1 := by
  rw [written, List.forall_mem_append]
  refine ⟨fun a ha => ?_, h.isName_of_mem⟩
  obtain ⟨name, -, rfl⟩ := Option.map_eq_some_iff.1 (Option.mem_toList.1 ha)
  exact isName_classAttribute flavor

theorem foldl_withAttribute {attributes : List (String × String)}
    (h : ∀ a ∈ attributes, a.1 ≠ classKey flavor) (tag : Tag) :
    attributes.foldl (withAttribute flavor) tag =
      { tag with attributes := tag.attributes ++ attributes } := by
  induction attributes generalizing tag with
  | nil => rw [List.append_nil]; rfl
  | cons a rest ih =>
      rw [List.forall_mem_cons] at h
      rw [List.foldl_cons, ih h.2, withAttribute, if_neg h.1, List.append_assoc,
        List.singleton_append]

/-- A tag is what is read from all that is written in it. -/
theorem foldl_written {tag : Tag} (h : tag.Readable) :
    (written flavor tag).foldl (withAttribute flavor) (Tag.named tag.name) = tag := by
  have hothers := @foldl_withAttribute flavor tag.attributes
    fun a ha => h.ne_class_of_mem a ha flavor
  obtain ⟨name, className, attributes⟩ := tag
  cases className with
  | none => exact hothers (Tag.named name)
  | some given =>
      rw [written, Option.map_some, Option.toList_some, List.singleton_append, List.foldl_cons,
        withAttribute, if_pos (classAttribute_eq_classKey flavor), hothers]
      rfl

/-- Where a tag may begin. -/
def AtTag (place : Spot) : Prop := place = .line ∨ ∃ behindTag, place = .content behindTag

theorem run_bracket {place : Spot} (h : AtTag place) (cs : List Char) :
    run flavor ⟨ts, place⟩ ('<' :: cs) = run flavor ⟨ts, .bracket⟩ cs := by
  rcases h with rfl | ⟨behindTag, rfl⟩
  · rfl
  · rfl

/-- Behind its name a tag goes on as behind an attribute. -/
theorem run_name (chars : List Char) {c : Char} (hc : isNameChar c = false) (cs : List Char) :
    run flavor ⟨ts, .name chars⟩ (c :: cs) =
      run flavor ⟨ts, .quote (Tag.named (String.ofList chars))⟩ (c :: cs) := by
  rw [run_cons, run_cons]
  simp only [step, hc, Bool.false_eq_true, if_false]

/-- An opening tag without its bracket is read to where it goes on or ends. -/
theorem run_openTag {place : Spot} (hplace : AtTag place) {tag : Tag} (h : tag.Readable) {c : Char}
    (hc : isNameChar c = false) (cs : List Char) :
    run flavor ⟨ts, place⟩ ((openTag flavor tag).toList ++ c :: cs) =
      run flavor ⟨ts, .quote tag⟩ (c :: cs) := by
  obtain ⟨d, ds, hchars, hd, hds⟩ := h.isName.exists_cons
  have hslash : d ≠ '/' := Style.ne_of_isNameChar hd (by decide)
  have hname : ∀ rest, run flavor ⟨ts, .bracket⟩ (tag.name.toList ++ rest) =
      run flavor ⟨ts, .name tag.name.toList⟩ rest := by
    intro rest
    have hfirst : step flavor ⟨ts, .bracket⟩ d = some ⟨ts, .name [d]⟩ := by
      simp only [step, if_neg hslash, if_pos hd]
    have hothers : run flavor ⟨ts, .name [d]⟩ ds = some ⟨ts, .name (d :: ds)⟩ :=
      run_nameChars (fun chars e he => by simp only [step, if_pos he]) hds [d]
    rw [hchars, List.cons_append, run_cons, hfirst, Option.bind_some, run_append, hothers,
      Option.bind_some]
  have hattributes : ∀ rest, run flavor ⟨ts, .quote (Tag.named tag.name)⟩
      ((String.join ((written flavor tag).map attributeText)).toList ++ rest) =
        run flavor ⟨ts, .quote tag⟩ rest := by
    intro rest
    rw [run_append, run_attributes (isName_of_mem_written h), Option.bind_some, foldl_written h]
  have htext : (openTag flavor tag).toList ++ c :: cs = '<' :: (tag.name.toList ++
      ((String.join ((written flavor tag).map attributeText)).toList ++ c :: cs)) := by
    rw [openTag_eq, String.toList_append, String.toList_append, List.append_assoc,
      List.append_assoc]
    rfl
  rw [htext, run_bracket hplace, hname, ← hattributes]
  -- what stands behind the name begins with a blank or with `c`
  cases written flavor tag with
  | nil => exact (run_name _ hc cs).trans (by rw [String.ofList_toList]; rfl)
  | cons a rest =>
      rw [List.map_cons, String.join_cons, String.toList_append, toList_attributeText]
      exact (run_name _ (by decide) _).trans (by rw [String.ofList_toList]; rfl)

/-- An opening tag is read as what it opens. -/
theorem run_opening {place : Spot} (hplace : AtTag place) {tag : Tag} (h : tag.Readable) :
    run flavor ⟨ts, place⟩ (openTag flavor tag ++ ">").toList =
      some ⟨ts ++ [.opens tag], .content true⟩ := by
  have hopens : behindOpening ts tag = ⟨ts ++ [.opens tag], .content true⟩ :=
    if_neg fun hbreak => h.ne_break (congrArg Tag.name hbreak)
  rw [String.toList_append]
  exact (run_openTag hplace h (by decide) []).trans (congrArg some hopens)

theorem run_closeTag {place : Spot} (hplace : AtTag place) {tag : Tag} (h : tag.Readable) :
    run flavor ⟨ts, place⟩ (closeTag tag).toList =
      some ⟨ts ++ [.closes tag.name], .content true⟩ := by
  obtain ⟨-, hall⟩ := h.isName
  rw [List.all_eq_true] at hall
  have htext : (closeTag tag).toList = '<' :: '/' :: (tag.name.toList ++ ['>']) := by
    rw [closeTag, String.toList_append, String.toList_append]
    rfl
  have hname : run flavor ⟨ts, .closing []⟩ tag.name.toList =
      some ⟨ts, .closing tag.name.toList⟩ :=
    run_nameChars (fun chars c hc => by simp only [step, if_pos hc]) hall []
  rw [htext, run_bracket hplace]
  show run flavor ⟨ts, .closing []⟩ _ = _
  rw [run_append, hname]
  show some (Scanner.mk (ts ++ [.closes (String.ofList tag.name.toList)]) (.content true)) = _
  rw [String.ofList_toList]

/-- An element without content is read as its tag and its end. -/
theorem run_emptyElement {place : Spot} (hplace : AtTag place) {tag : Tag} (h : tag.Readable) :
    run flavor ⟨ts, place⟩ (emptyElement flavor tag).toList =
      some ⟨ts ++ [.opens tag, .closes tag.name], .content true⟩ := by
  cases flavor with
  | html =>
      rw [emptyElement, String.toList_append, run_append, run_opening hplace h, Option.bind_some,
        run_closeTag (.inr ⟨true, rfl⟩) h, List.append_assoc]
      rfl
  | jsx =>
      have hempty : behindEmpty ts tag = ⟨ts ++ [.opens tag, .closes tag.name], .content true⟩ :=
        if_neg fun hbreak => h.ne_break (congrArg Tag.name hbreak)
      rw [emptyElement, String.toList_append]
      exact (run_openTag hplace h (by decide) ['/', '>']).trans (congrArg some hempty)

/-! ## Texts -/

theorem run_lineBreak (behindTag : Bool) :
    run flavor ⟨ts, .content behindTag⟩ flavor.lineBreak = some (behindChar ts '\n') := by
  cases flavor with
  | html => rfl
  | jsx => rfl

theorem run_textChar (behindTag : Bool) {c : Char} (hfeed : c ≠ '\n') :
    run flavor ⟨ts, .content behindTag⟩ (textChar flavor c) = some (behindChar ts c) := by
  unfold textChar
  split
  · rfl
  · rfl
  · rfl
  · cases flavor <;> rfl
  · cases flavor <;> rfl
  · rename_i hamp hless _ hopen hclose
    have hnotOpen : ¬(flavor = .jsx ∧ c = '\x7b') := fun h => hopen h.2
    have hnotClose : ¬(flavor = .jsx ∧ c = '\x7d') := fun h => hclose h.2
    simp only [run_cons, step, if_neg hless, if_neg hamp, if_neg hfeed, if_neg hnotOpen,
      if_neg hnotClose, Option.bind_some, run_nil]

/-- A text is read as its characters, with every line break as a line feed. -/
theorem run_textChars (behindTag : Bool) (cs : List Char) :
    run flavor ⟨ts, .content behindTag⟩ (textChars flavor cs) =
      some ⟨ts ++ (unifyBreaks cs).map .char, .content (behindTag && cs.isEmpty)⟩ := by
  fun_induction unifyBreaks cs generalizing ts behindTag with
  | case1 => simp [textChars, run_nil]
  | case2 rest ih =>
      rw [textChars, run_append, run_lineBreak, Option.bind_some, behindChar, ih]
      simp
  | case3 c rest hnotBoth ih =>
      rw [textChars]
      · split
        · rename_i hbreak
          have hfeed : (if c = '\r' then '\n' else c) = '\n' := by
            rcases hbreak with rfl | rfl <;> rfl
          rw [run_append, run_lineBreak, Option.bind_some, behindChar, ih, hfeed]
          simp
        · rename_i hnoBreak
          rw [not_or] at hnoBreak
          rw [run_append, run_textChar behindTag hnoBreak.1, Option.bind_some, behindChar, ih,
            if_neg hnoBreak.2]
          simp
      · exact hnotBoth

theorem run_escapeText (behindTag : Bool) (content : String) :
    ∃ behindTag', run flavor ⟨ts, .content behindTag⟩ (escapeText flavor content).toList =
      some ⟨ts ++ (Markup.text content).tokens, .content behindTag'⟩ := by
  rw [escapeText, String.toList_ofList, run_textChars]
  exact ⟨_, rfl⟩

/-! ## Lines -/

/-- What is rendered within a line is read as its tokens. -/
theorem run_renderInlineAll {ms : List Markup} (h : ∀ m ∈ ms, ∀ ts behindTag, ∃ behindTag',
      run flavor ⟨ts, .content behindTag⟩ (renderInline flavor m).toList =
        some ⟨ts ++ m.tokens, .content behindTag'⟩) (behindTag : Bool) :
    ∃ behindTag', run flavor ⟨ts, .content behindTag⟩ (renderInlineAll flavor ms).toList =
      some ⟨ts ++ tokensIn ms, .content behindTag'⟩ := by
  induction ms generalizing ts behindTag with
  | nil => exact ⟨behindTag, by rw [tokensIn, List.append_nil]; rfl⟩
  | cons m rest ih =>
      rw [List.forall_mem_cons] at h
      obtain ⟨between, hfirst⟩ := h.1 ts behindTag
      obtain ⟨last, hrest⟩ := @ih (ts ++ m.tokens) h.2 between
      refine ⟨last, ?_⟩
      rw [renderInlineAll, String.toList_append, run_append, hfirst, Option.bind_some, hrest,
        tokensIn, List.append_assoc]

/-- The tag, the content and the end of an element on one line. -/
theorem run_element {place : Spot} (hplace : AtTag place) {tag : Tag} (h : tag.Readable)
    {children : List Markup} (hchildren : ∀ ts behindTag, ∃ behindTag',
      run flavor ⟨ts, .content behindTag⟩ (renderInlineAll flavor children).toList =
        some ⟨ts ++ tokensIn children, .content behindTag'⟩) :
    run flavor ⟨ts, place⟩
        (openTag flavor tag ++ ">" ++ renderInlineAll flavor children ++ closeTag tag).toList =
      some ⟨ts ++ (Markup.element tag children).tokens, .content true⟩ := by
  obtain ⟨last, hinner⟩ := hchildren (ts ++ [.opens tag]) true
  rw [String.toList_append, String.toList_append, run_append, run_append, run_opening hplace h,
    Option.bind_some, hinner, Option.bind_some, run_closeTag (.inr ⟨last, rfl⟩) h,
    Markup.tokens, List.append_assoc, List.append_assoc]
  rfl

theorem run_renderInline {m : Markup} (h : Inline m) : ∀ ts behindTag, ∃ behindTag',
    run flavor ⟨ts, .content behindTag⟩ (renderInline flavor m).toList =
      some ⟨ts ++ m.tokens, .content behindTag'⟩ := by
  induction h with
  | text => exact fun ts behindTag => run_escapeText behindTag _
  | span htag _ _ ih =>
      exact fun ts behindTag => ⟨true, run_element (.inr ⟨behindTag, rfl⟩) htag
        fun ts behindTag => run_renderInlineAll ih behindTag⟩

/-- Lines, each behind the break of the line before it. -/
def brokenLines (texts : List String) : List Char := texts.flatMap fun text => '\n' :: text.toList

theorem brokenLines_cons (text : String) (rest : List String) :
    brokenLines (text :: rest) = '\n' :: (text.toList ++ brokenLines rest) := by
  rw [brokenLines, List.flatMap_cons, List.cons_append]
  rfl

theorem brokenLines_append (first others : List String) :
    brokenLines (first ++ others) = brokenLines first ++ brokenLines others :=
  List.flatMap_append

theorem run_blanks (count : Nat) :
    run flavor ⟨ts, .line⟩ (List.replicate count ' ') = some ⟨ts, .line⟩ := by
  induction count with
  | zero => rfl
  | succ count ih => rw [List.replicate_succ, run_cons]; exact ih

/-- A line is read from where its indentation ends. -/
theorem run_indented (level : Nat) (text : String) (rest : List String) :
    run flavor ⟨ts, .content true⟩ (brokenLines ((indentation level ++ text) :: rest)) =
      (run flavor ⟨ts, .line⟩ text.toList).bind fun r => r.run flavor (brokenLines rest) := by
  rw [brokenLines_cons, run_cons]
  show run flavor ⟨ts, .line⟩ _ = _
  rw [String.toList_append, List.append_assoc, run_append, indentation, String.toList_ofList,
    run_blanks, Option.bind_some, run_append]

theorem run_linesOf {ms : List Markup} (h : ∀ m ∈ ms, ∀ ts level,
      run flavor ⟨ts, .content true⟩ (brokenLines (lines flavor level m)) =
        some ⟨ts ++ m.tokens, .content true⟩) (level : Nat) :
    run flavor ⟨ts, .content true⟩ (brokenLines (linesOf flavor level ms)) =
      some ⟨ts ++ tokensIn ms, .content true⟩ := by
  induction ms generalizing ts with
  | nil => rw [tokensIn, List.append_nil]; rfl
  | cons m rest ih =>
      rw [List.forall_mem_cons] at h
      rw [linesOf, brokenLines_append, run_append, h.1, Option.bind_some, ih h.2, tokensIn,
        List.append_assoc]

/-- An element without content is on one line. -/
theorem run_lines_of_empty {tag : Tag} (h : tag.Readable) (level : Nat) :
    run flavor ⟨ts, .content true⟩ (brokenLines (lines flavor level (.element tag []))) =
      some ⟨ts ++ (Markup.element tag []).tokens, .content true⟩ := by
  rw [lines, List.isEmpty_nil, if_pos rfl, run_indented, run_emptyElement (.inl rfl) h]
  rfl

theorem run_lines {m : Markup} (h : Block m) : ∀ ts level,
    run flavor ⟨ts, .content true⟩ (brokenLines (lines flavor level m)) =
      some ⟨ts ++ m.tokens, .content true⟩ := by
  induction h with
  | @line tag children htag _ hchildren =>
      intro ts level
      cases children with
      | nil => exact run_lines_of_empty htag level
      | cons child rest =>
          have hinline : allInline (child :: rest) = true :=
            allInline_eq_true_iff.2 fun m hm => (hchildren m hm).isInline
          have hline := @run_element flavor ts .line (.inl rfl) tag htag (child :: rest)
            fun ts behindTag => run_renderInlineAll
              (fun m hm => run_renderInline (hchildren m hm)) behindTag
          have htext : indentation level ++ openTag flavor tag ++ ">" ++
              renderInlineAll flavor (child :: rest) ++ closeTag tag =
                indentation level ++ (openTag flavor tag ++ ">" ++
                  renderInlineAll flavor (child :: rest) ++ closeTag tag) := by
            simp only [String.append_assoc]
          rw [lines, List.isEmpty_cons, if_neg Bool.false_ne_true, if_pos hinline, htext,
            run_indented, hline]
          rfl
  | @box tag children htag _ hchildren ih =>
      intro ts level
      cases children with
      | nil => exact run_lines_of_empty htag level
      | cons child rest =>
          have hlines : allInline (child :: rest) = false := by
            rw [allInline, (hchildren child List.mem_cons_self).isInline]
            rfl
          have hinner := @run_linesOf flavor (ts ++ [.opens tag]) (child :: rest) ih (level + 1)
          rw [lines, List.isEmpty_cons, if_neg Bool.false_ne_true, hlines,
            if_neg Bool.false_ne_true, String.append_assoc, run_indented,
            run_opening (.inl rfl) htag, Option.bind_some, brokenLines_append, run_append, hinner,
            Option.bind_some, run_indented, run_closeTag (.inl rfl) htag, Markup.tokens,
            List.append_assoc, List.append_assoc]
          rfl

end Scanner

/-! ## Forests -/

/-- Lines one below the other, with a break before the first. -/
theorem toList_intercalate_lines (first : String) (rest : List String) :
    '\n' :: (String.intercalate "\n" (first :: rest)).toList =
      Scanner.brokenLines (first :: rest) := by
  induction rest generalizing first with
  | nil => rw [String.intercalate_singleton, Scanner.brokenLines_cons]; simp [Scanner.brokenLines]
  | cons second rest ih =>
      rw [String.intercalate_cons_cons, Scanner.brokenLines_cons, ← ih, String.toList_append,
        String.toList_append, List.append_assoc]
      rfl

/-- Lines have the tokens that they have behind a tag. -/
theorem scan_intercalate {flavor : Flavor} {texts : List String} {ts : List Token}
    (h : (Scanner.mk [] (.content true)).run flavor (Scanner.brokenLines texts) =
      some ⟨ts, .content true⟩) : scan flavor (String.intercalate "\n" texts) = some ts := by
  cases texts with
  | nil =>
      cases h
      rfl
  | cons first rest =>
      rw [← toList_intercalate_lines] at h
      -- the reader begins as behind the break of a line
      have hrun : (Scanner.mk [] .line).run flavor
          (String.intercalate "\n" (first :: rest)).toList = some ⟨ts, .content true⟩ := h
      rw [scan, hrun]

/-- The lines of a forest of blocks have the tokens of the forest. -/
theorem scan_linesOf (flavor : Flavor) (level : Nat) {roots : List Markup}
    (h : ∀ m ∈ roots, Block m) :
    scan flavor (String.intercalate "\n" (linesOf flavor level roots)) =
      some (tokensIn roots) := by
  have hlines :=
    @Scanner.run_linesOf flavor [] roots (fun m hm => Scanner.run_lines (h m hm)) level
  rw [List.nil_append] at hlines
  exact scan_intercalate hlines

/-- Rendered blocks are read back, up to how their texts are cut. -/
theorem read_render (flavor : Flavor) {roots : List Markup} (h : ∀ m ∈ roots, Block m) :
    read flavor (render flavor roots) = some (merged roots) :=
  read_of_scan (scan_linesOf flavor 0 h) fun m hm => (h m hm).readsBack

end Markup

end SceneMarkup
