/-
  SceneMarkup/Proofs/Markup/Moved.lean --- rendered markup whose lines are moved to the right.

  WHAT THIS FILE IS FOR.  The lines of a text are moved without regard to tags and quotes.
  Rendered blocks come out of it as blocks rendered at a deeper level, with the same texts,
  since a text has elements for its line breaks; a value of an attribute keeps its line
  breaks when it is rendered, and has its later lines moved as well (`moves_linesOf`).
-/
import SceneMarkup.Proofs.Markup.Rendered
import SceneMarkup.Proofs.Text.Indent

set_option autoImplicit false

namespace SceneMarkup

open Text (Moves moveLater isBlank)
open Style (IsName)

theorem map_eq_self_iff {α : Type} {f : α → α} {items : List α} :
    items.map f = items ↔ ∀ a ∈ items, f a = a := by
  have hid := @List.map_inj_left _ _ items f id
  rwa [List.map_id] at hid

/-! ## Values -/

/-- A value with all its lines but the first moved to the right. -/
def Text.moveValue (count : Nat) (value : String) : String :=
  String.ofList (moveLater count value.toList)

theorem Text.moveValue_eq_self_iff {count : Nat} (hcount : 0 < count) {value : String} :
    moveValue count value = value ↔ '\n' ∉ value.toList := by
  rw [moveValue, ← String.toList_inj, String.toList_ofList]
  exact moveLater_eq_self_iff hcount

namespace Tag

/-- The values in a tag: its class, and those of its other attributes. -/
def values (tag : Tag) : List String := tag.className.toList ++ tag.attributes.map (·.2)

/-- A tag with all its values moved. -/
def moved (count : Nat) (tag : Tag) : Tag :=
  { tag with
    className := tag.className.map (Text.moveValue count)
    attributes := tag.attributes.map fun a => (a.1, Text.moveValue count a.2) }

theorem moved_eq_self_iff {count : Nat} (hcount : 0 < count) {tag : Tag} :
    tag.moved count = tag ↔ ∀ value ∈ tag.values, '\n' ∉ value.toList := by
  obtain ⟨name, className, attributes⟩ := tag
  have hclass : className.map (Text.moveValue count) = className ↔
      ∀ value ∈ className.toList, '\n' ∉ value.toList := by
    cases className with
    | none => simp
    | some given => simpa using Text.moveValue_eq_self_iff hcount
  have hothers : (attributes.map fun a => (a.1, Text.moveValue count a.2)) = attributes ↔
      ∀ value ∈ attributes.map (·.2), '\n' ∉ value.toList := by
    rw [List.forall_mem_map, map_eq_self_iff]
    refine forall₂_congr fun a _ => ?_
    rw [Prod.ext_iff, ← Text.moveValue_eq_self_iff hcount]
    exact and_iff_right rfl
  rw [moved, Tag.mk.injEq, values, List.forall_mem_append, ← hclass, ← hothers]
  exact and_iff_right rfl

theorem Readable.moved {tag : Tag} (h : tag.Readable) (count : Nat) :
    (tag.moved count).Readable where
  isName := h.isName
  ne_break := h.ne_break
  isName_of_mem := List.forall_mem_map.2 h.isName_of_mem
  ne_class_of_mem := List.forall_mem_map.2 h.ne_class_of_mem

end Tag

namespace Markup

/-! ## Markup with moved values -/

mutual

/-- A piece of markup with all values moved. -/
def moved (count : Nat) : Markup → Markup
  | .text content => .text content
  | .element tag children => .element (tag.moved count) (movedIn count children)

/-- Some pieces of markup with all values moved. -/
def movedIn (count : Nat) : List Markup → List Markup
  | [] => []
  | m :: rest => m.moved count :: movedIn count rest

end

variable {count : Nat}

theorem movedIn_eq_map (ms : List Markup) : movedIn count ms = ms.map (moved count) := by
  induction ms with
  | nil => rfl
  | cons m rest ih => rw [movedIn, ih, List.map_cons]

mutual

theorem tags_moved : ∀ m : Markup, (m.moved count).tags = m.tags.map (Tag.moved count)
  | .text _ => rfl
  | .element tag children => by
      rw [moved, tags, tags, tagsIn_movedIn children, List.map_cons]

theorem tagsIn_movedIn : ∀ ms : List Markup,
    tagsIn (movedIn count ms) = (tagsIn ms).map (Tag.moved count)
  | [] => rfl
  | m :: rest => by
      rw [movedIn, tagsIn, tagsIn, tags_moved m, tagsIn_movedIn rest, List.map_append]

end

mutual

theorem moved_eq_self : ∀ {m : Markup}, (∀ tag ∈ m.tags, tag.moved count = tag) →
    m.moved count = m
  | .text _, _ => rfl
  | .element tag children, h => by
      rw [tags, List.forall_mem_cons] at h
      rw [moved, h.1, movedIn_eq_self h.2]

theorem movedIn_eq_self : ∀ {ms : List Markup}, (∀ tag ∈ tagsIn ms, tag.moved count = tag) →
    movedIn count ms = ms
  | [], _ => rfl
  | m :: rest, h => by
      rw [tagsIn, List.forall_mem_append] at h
      rw [movedIn, moved_eq_self h.1, movedIn_eq_self h.2]

end

/-- Moving keeps markup just if no value in it breaks a line. -/
theorem movedIn_eq_self_iff (hcount : 0 < count) {ms : List Markup} :
    movedIn count ms = ms ↔ ∀ tag ∈ tagsIn ms, ∀ value ∈ tag.values, '\n' ∉ value.toList := by
  have htags : (∀ tag ∈ tagsIn ms, ∀ value ∈ tag.values, '\n' ∉ value.toList) ↔
      ∀ tag ∈ tagsIn ms, tag.moved count = tag :=
    forall₂_congr fun tag _ => (Tag.moved_eq_self_iff hcount).symm
  rw [htags]
  constructor
  · intro hsame
    have hmap := @tagsIn_movedIn count ms
    rw [hsame] at hmap
    exact map_eq_self_iff.1 hmap.symm
  · exact movedIn_eq_self

theorem movedIn_prependText (cs : List Char) (ms : List Markup) :
    movedIn count (prependText cs ms) = prependText cs (movedIn count ms) := by
  cases ms with
  | nil => rfl
  | cons m rest => cases m <;> rfl

mutual

theorem movedIn_merge : ∀ (m : Markup) (others : List Markup),
    movedIn count (m.merge others) = (m.moved count).merge (movedIn count others)
  | .text content, others => movedIn_prependText _ others
  | .element tag children, others => by
      rw [merge, movedIn, moved, movedIn_mergeIn children [], moved, merge, movedIn]

theorem movedIn_mergeIn : ∀ ms others : List Markup,
    movedIn count (mergeIn ms others) = mergeIn (movedIn count ms) (movedIn count others)
  | [], others => rfl
  | m :: rest, others => by
      rw [mergeIn, movedIn_merge m, movedIn_mergeIn rest others, movedIn, mergeIn]

end

theorem merged_movedIn (ms : List Markup) :
    merged (movedIn count ms) = movedIn count (merged ms) := (movedIn_mergeIn ms []).symm

theorem Inline.moved {m : Markup} (h : Inline m) (count : Nat) : Inline (m.moved count) := by
  induction h with
  | text hne => exact .text hne
  | span htag hname _ ih =>
      refine .span (htag.moved count) hname ?_
      rw [movedIn_eq_map, List.forall_mem_map]
      exact ih

theorem Block.moved {m : Markup} (h : Block m) (count : Nat) : Block (m.moved count) := by
  induction h with
  | line htag hname hchildren =>
      refine .line (htag.moved count) hname ?_
      rw [movedIn_eq_map, List.forall_mem_map]
      exact fun m hm => (hchildren m hm).moved count
  | box htag hname _ ih =>
      refine .box (htag.moved count) hname ?_
      rw [movedIn_eq_map, List.forall_mem_map]
      exact ih

/-! ## Pieces of rendered markup -/

theorem moves_append {first others a b : String} (hfirst : Moves count first.toList a.toList)
    (hothers : Moves count others.toList b.toList) :
    Moves count (first ++ others).toList (a ++ b).toList := by
  rw [String.toList_append, String.toList_append]
  exact hfirst.append hothers

theorem moves_bracket : Moves count ">".toList ">".toList := Text.moves_self (by decide)

theorem moves_name {name : String} (h : IsName name) : Moves count name.toList name.toList := by
  refine Text.moves_self (List.all_eq_true.2 fun c hc => ?_)
  have hname := List.all_eq_true.1 h.2 c hc
  rw [Bool.and_eq_true, bne_iff_ne, bne_iff_ne]
  exact ⟨Style.ne_of_isNameChar hname (by decide), Style.ne_of_isNameChar hname (by decide)⟩

/-- A character stays as it is in a value, or it is not blank and becomes an entity. -/
theorem attributeChar_cases (c : Char) :
    attributeChar c = [c] ∨
      isBlank c = false ∧ ∃ cs, attributeChar c = '&' :: cs ∧ Moves count cs cs := by
  unfold attributeChar
  split
  · exact .inr ⟨by decide, _, rfl, Text.moves_self (by decide)⟩
  · exact .inr ⟨by decide, _, rfl, Text.moves_self (by decide)⟩
  · exact .inr ⟨by decide, _, rfl, Text.moves_self (by decide)⟩
  · exact .inr ⟨by decide, _, rfl, Text.moves_self (by decide)⟩
  · exact .inl rfl

theorem beginsBlank_escaped (cs : List Char) :
    Text.beginsBlank (cs.flatMap attributeChar) = Text.beginsBlank cs := by
  induction cs with
  | nil => rfl
  | cons c cs ih =>
      rw [List.flatMap_cons]
      rcases @attributeChar_cases 0 c with hchar | ⟨hblank, rest, hchar, -⟩
      · rw [hchar, List.singleton_append, Text.beginsBlank, ih, Text.beginsBlank]
      · have hfeed := Text.ne_feed_of_not_isBlank hblank
        rw [hchar, List.cons_append, Text.beginsBlank_cons (by decide),
          Text.beginsBlank_cons hfeed, hblank]
        rfl

theorem head?_escaped (cs : List Char) :
    ((cs.flatMap attributeChar).head? == some '\n') = (cs.head? == some '\n') := by
  cases cs with
  | nil => rfl
  | cons c cs =>
      rw [List.flatMap_cons]
      rcases @attributeChar_cases 0 c with hchar | ⟨hblank, rest, hchar, -⟩
      · rw [hchar]
        rfl
      · have hfeed := Text.ne_feed_of_not_isBlank hblank
        rw [hchar, Bool.eq_iff_iff]
        simp [hfeed]

theorem escaped_margin (cs : List Char) :
    (Text.margin count cs).flatMap attributeChar = Text.margin count cs := by
  rw [Text.margin]
  split
  · rfl
  · induction count with
    | zero => rfl
    | succ count ih => rw [List.replicate_succ, List.flatMap_cons, ih]; rfl

/-- A value is moved like its text in markup. -/
theorem moveLater_escaped (cs : List Char) :
    moveLater count (cs.flatMap attributeChar) = (moveLater count cs).flatMap attributeChar := by
  induction cs with
  | nil => rfl
  | cons c cs ih =>
      rw [List.flatMap_cons]
      rcases @attributeChar_cases count c with hchar | ⟨hblank, rest, hchar, hrest⟩
      · rw [hchar, List.singleton_append, moveLater, moveLater, head?_escaped, ih]
        split
        · rename_i hfeed
          rw [Text.margin, beginsBlank_escaped, ← Text.margin, List.flatMap_cons,
            List.flatMap_append, escaped_margin]
          rfl
        · split
          · rfl
          · rw [List.flatMap_cons, hchar, List.singleton_append]
      · rw [hchar, List.cons_append, Text.moveLater_cons (by decide) (by decide), hrest, ih,
          Text.moveLater_cons (Text.ne_feed_of_not_isBlank hblank)
            (Text.ne_return_of_not_isBlank hblank),
          List.flatMap_cons, hchar, List.cons_append]

theorem moves_attributeText {a : String × String} (h : IsName a.1) :
    Moves count (attributeText a).toList
      (attributeText (a.1, Text.moveValue count a.2)).toList := by
  have hequals : Moves count ['=', '"'] ['=', '"'] := Text.moves_self (by decide)
  have hvalue := @Text.moves_closed count '"' (a.2.toList.flatMap attributeChar) (by decide)
  rw [moveLater_escaped] at hvalue
  rw [Scanner.toList_attributeText, Scanner.toList_attributeText, Text.moveValue,
    String.toList_ofList]
  have hblank : Moves count [' '] [' '] := Text.moves_self (by decide)
  exact hblank.append ((moves_name h).append (hequals.append hvalue))

theorem moves_attributes {attributes : List (String × String)}
    (h : ∀ a ∈ attributes, IsName a.1) :
    Moves count (String.join (attributes.map attributeText)).toList
      (String.join ((attributes.map fun a => (a.1, Text.moveValue count a.2)).map
        attributeText)).toList := by
  induction attributes with
  | nil => exact Text.moves_self (by decide)
  | cons a rest ih =>
      rw [List.forall_mem_cons] at h
      rw [List.map_cons, List.map_cons, List.map_cons, String.join_cons, String.join_cons]
      exact moves_append (moves_attributeText h.1) (ih h.2)

theorem written_moved (flavor : Flavor) (tag : Tag) :
    Scanner.written flavor (tag.moved count) =
      (Scanner.written flavor tag).map fun a => (a.1, Text.moveValue count a.2) := by
  rw [Scanner.written, Scanner.written, List.map_append, Tag.moved]
  cases tag.className with
  | none => rfl
  | some given => rfl

variable {flavor : Flavor}

theorem moves_openTag {tag : Tag} (h : tag.Readable) :
    Moves count (openTag flavor tag).toList (openTag flavor (tag.moved count)).toList := by
  have hbracket : Moves count "<".toList "<".toList := Text.moves_self (by decide)
  have hattributes := @moves_attributes count _ (@Scanner.isName_of_mem_written flavor tag h)
  rw [Scanner.openTag_eq, Scanner.openTag_eq, written_moved]
  exact moves_append (moves_append hbracket (moves_name h.isName)) hattributes

theorem moves_closeTag {tag : Tag} (h : tag.Readable) :
    Moves count (closeTag tag).toList (closeTag tag).toList := by
  have hstart : Moves count "</".toList "</".toList := Text.moves_self (by decide)
  exact moves_append (moves_append hstart (moves_name h.isName)) moves_bracket

theorem isUnbroken_textChar {c : Char} (hfeed : c ≠ '\n') (hreturn : c ≠ '\r') :
    Text.isUnbroken (textChar flavor c) = true := by
  unfold textChar
  split
  · decide
  · decide
  · decide
  · cases flavor <;> decide
  · cases flavor <;> decide
  · exact (Text.isUnbroken_cons c []).2 ⟨⟨hfeed, hreturn⟩, rfl⟩

/-- A text has no break in markup but elements. -/
theorem isUnbroken_textChars (cs : List Char) :
    Text.isUnbroken (textChars flavor cs) = true := by
  have hbreak : Text.isUnbroken flavor.lineBreak = true := by cases flavor <;> decide
  fun_induction textChars flavor cs with
  | case1 => rfl
  | case2 rest ih => rw [Text.isUnbroken_append, hbreak, ih]; rfl
  | case3 c rest _ _ ih => rw [Text.isUnbroken_append, hbreak, ih]; rfl
  | case4 c rest _ hnoBreak ih =>
      rw [not_or] at hnoBreak
      rw [Text.isUnbroken_append, isUnbroken_textChar hnoBreak.1 hnoBreak.2, ih]
      rfl

theorem moves_renderInlineAll {ms : List Markup}
    (h : ∀ m ∈ ms, Moves count (renderInline flavor m).toList
      (renderInline flavor (m.moved count)).toList) :
    Moves count (renderInlineAll flavor ms).toList
      (renderInlineAll flavor (movedIn count ms)).toList := by
  induction ms with
  | nil =>
      rw [movedIn, renderInlineAll]
      exact Text.moves_self (by decide)
  | cons m rest ih =>
      rw [List.forall_mem_cons] at h
      rw [movedIn, renderInlineAll, renderInlineAll]
      exact moves_append h.1 (ih h.2)

/-- The tag, the content and the end of an element within a line. -/
theorem moves_element {tag : Tag} (h : tag.Readable) {children : List Markup}
    (hchildren : Moves count (renderInlineAll flavor children).toList
      (renderInlineAll flavor (movedIn count children)).toList) :
    Moves count
      (openTag flavor tag ++ ">" ++ renderInlineAll flavor children ++ closeTag tag).toList
      (openTag flavor (tag.moved count) ++ ">" ++ renderInlineAll flavor (movedIn count children) ++
        closeTag (tag.moved count)).toList :=
  moves_append (moves_append (moves_append (moves_openTag h) moves_bracket) hchildren)
    (moves_closeTag h)

theorem moves_renderInline {m : Markup} (h : Inline m) :
    Moves count (renderInline flavor m).toList (renderInline flavor (m.moved count)).toList := by
  induction h with
  | @text content hne =>
      rw [moved, renderInline, escapeText, String.toList_ofList]
      exact Text.moves_self (isUnbroken_textChars _)
  | span htag _ _ ih => exact moves_element htag (moves_renderInlineAll ih)

/-! ## Lines -/

/-- A text that begins with a bracket. -/
def BeginsTag (text : String) : Prop := ∃ rest, text = "<" ++ rest

theorem BeginsTag.append {text : String} (h : BeginsTag text) (others : String) :
    BeginsTag (text ++ others) := by
  obtain ⟨rest, rfl⟩ := h
  exact ⟨rest ++ others, String.append_assoc⟩

theorem beginsTag_openTag (tag : Tag) : BeginsTag (openTag flavor tag) :=
  ⟨_, by rw [Scanner.openTag_eq, String.append_assoc]⟩

theorem beginsTag_closeTag (tag : Tag) : BeginsTag (closeTag tag) :=
  ⟨"/" ++ tag.name ++ ">", by rw [closeTag, ← String.append_assoc, ← String.append_assoc]; rfl⟩

variable {levels : Nat}

/-- A line that begins with a tag is moved. -/
theorem moves_indented (level : Nat) {text moved : String} (htag : BeginsTag text)
    (h : Moves (2 * levels) text.toList moved.toList) :
    Moves (2 * levels) (Scanner.brokenLines [indentation level ++ text])
      (Scanner.brokenLines [indentation (level + levels) ++ moved]) := by
  obtain ⟨rest, rfl⟩ := htag
  rw [String.toList_append] at h
  have hline := Text.moves_line (2 * level) (by decide : isBlank '<' = false) h
  rw [← Nat.mul_add, Nat.add_comm] at hline
  rw [Scanner.brokenLines_cons, Scanner.brokenLines_cons, String.toList_append,
    String.toList_append, String.toList_append, indentation, indentation, String.toList_ofList,
    String.toList_ofList]
  simpa [Scanner.brokenLines] using hline

theorem lines_of_allInline {tag : Tag} {children : List Markup} (hne : children ≠ [])
    (h : allInline children = true) (level : Nat) :
    lines flavor level (.element tag children) =
      [indentation level ++
        (openTag flavor tag ++ ">" ++ renderInlineAll flavor children ++ closeTag tag)] := by
  rw [lines, if_neg (by simpa using hne), if_pos h]
  simp only [String.append_assoc]

theorem lines_of_not_allInline {tag : Tag} {children : List Markup} (hne : children ≠ [])
    (h : allInline children = false) (level : Nat) :
    lines flavor level (.element tag children) =
      (indentation level ++ (openTag flavor tag ++ ">")) ::
        (linesOf flavor (level + 1) children ++ [indentation level ++ closeTag tag]) := by
  rw [lines, if_neg (by simpa using hne), h, if_neg Bool.false_ne_true, String.append_assoc]

/-- An element without content is moved on its line. -/
theorem moves_lines_of_empty {tag : Tag} (h : tag.Readable) (level : Nat) :
    Moves (2 * levels) (Scanner.brokenLines (lines flavor level (.element tag [])))
      (Scanner.brokenLines
        (lines flavor (level + levels) (moved (2 * levels) (.element tag [])))) := by
  rw [moved, movedIn, lines, lines, List.isEmpty_nil, if_pos rfl, if_pos rfl]
  cases flavor with
  | html =>
      refine moves_indented level (((beginsTag_openTag tag).append _).append _) ?_
      exact moves_append (moves_append (moves_openTag h) moves_bracket) (moves_closeTag h)
  | jsx =>
      have hend : Moves (2 * levels) " />".toList " />".toList := Text.moves_self (by decide)
      refine moves_indented level ((beginsTag_openTag tag).append _) ?_
      exact moves_append (moves_openTag h) hend

theorem moves_linesOf_of_forall {ms : List Markup} (h : ∀ m ∈ ms, ∀ level,
      Moves (2 * levels) (Scanner.brokenLines (lines flavor level m))
        (Scanner.brokenLines (lines flavor (level + levels) (m.moved (2 * levels)))))
    (level : Nat) :
    Moves (2 * levels) (Scanner.brokenLines (linesOf flavor level ms))
      (Scanner.brokenLines (linesOf flavor (level + levels) (movedIn (2 * levels) ms))) := by
  induction ms with
  | nil => exact Text.moves_self rfl
  | cons m rest ih =>
      rw [List.forall_mem_cons] at h
      rw [movedIn, linesOf, linesOf, Scanner.brokenLines_append, Scanner.brokenLines_append]
      exact (h.1 level).append (ih h.2)

/-- An element whose content is within a line is moved on its line. -/
theorem moves_lines_of_inline {tag : Tag} (htag : tag.Readable) {children : List Markup}
    (hne : children ≠ []) (h : ∀ m ∈ children, Inline m) (level : Nat) :
    Moves (2 * levels) (Scanner.brokenLines (lines flavor level (.element tag children)))
      (Scanner.brokenLines
        (lines flavor (level + levels) (moved (2 * levels) (.element tag children)))) := by
  have hinline : allInline children = true :=
    allInline_eq_true_iff.2 fun m hm => (h m hm).isInline
  have hmoved : allInline (movedIn (2 * levels) children) = true := by
    rw [movedIn_eq_map, allInline_eq_true_iff, List.forall_mem_map]
    exact fun m hm => ((h m hm).moved _).isInline
  have hneMoved : movedIn (2 * levels) children ≠ [] := by
    rwa [movedIn_eq_map, Ne, List.map_eq_nil_iff]
  rw [moved, lines_of_allInline hne hinline, lines_of_allInline hneMoved hmoved]
  refine moves_indented level (((beginsTag_openTag tag).append _).append _ |>.append _) ?_
  exact moves_element htag (moves_renderInlineAll fun m hm => moves_renderInline (h m hm))

theorem brokenLines_around (first : String) (between : List String) (last : String) :
    Scanner.brokenLines (first :: (between ++ [last])) =
      Scanner.brokenLines [first] ++
        (Scanner.brokenLines between ++ Scanner.brokenLines [last]) := by
  rw [← List.singleton_append, Scanner.brokenLines_append, Scanner.brokenLines_append]

/-- An element around lines is moved with these lines. -/
theorem moves_lines_of_blocks {tag : Tag} (htag : tag.Readable) {children : List Markup}
    (hne : children ≠ []) (h : ∀ m ∈ children, Block m) (level : Nat)
    (hchildren : Moves (2 * levels) (Scanner.brokenLines (linesOf flavor (level + 1) children))
      (Scanner.brokenLines
        (linesOf flavor (level + 1 + levels) (movedIn (2 * levels) children)))) :
    Moves (2 * levels) (Scanner.brokenLines (lines flavor level (.element tag children)))
      (Scanner.brokenLines
        (lines flavor (level + levels) (moved (2 * levels) (.element tag children)))) := by
  obtain ⟨child, rest, rfl⟩ := List.exists_cons_of_ne_nil hne
  have hblock := h child List.mem_cons_self
  have hlines : allInline (child :: rest) = false := by
    rw [allInline, hblock.isInline, Bool.false_and]
  have hmoved : allInline (movedIn (2 * levels) (child :: rest)) = false := by
    rw [movedIn, allInline, (hblock.moved _).isInline, Bool.false_and]
  have hfirst := @moves_indented levels level _ _ ((beginsTag_openTag tag).append ">")
    (moves_append (@moves_openTag _ flavor tag htag) moves_bracket)
  have hlast :=
    @moves_indented levels level _ _ (beginsTag_closeTag tag) (moves_closeTag htag)
  have hneMoved : movedIn (2 * levels) (child :: rest) ≠ [] := List.cons_ne_nil _ _
  rw [Nat.add_right_comm] at hchildren
  rw [moved, lines_of_not_allInline hne hlines, lines_of_not_allInline hneMoved hmoved,
    brokenLines_around, brokenLines_around]
  exact hfirst.append (hchildren.append hlast)

/-- The lines of a block become those that the block with moved values has some levels deeper. -/
theorem moves_lines {m : Markup} (h : Block m) : ∀ level,
    Moves (2 * levels) (Scanner.brokenLines (lines flavor level m))
      (Scanner.brokenLines (lines flavor (level + levels) (m.moved (2 * levels)))) := by
  induction h with
  | @line tag children htag _ hchildren =>
      intro level
      cases children with
      | nil => exact moves_lines_of_empty htag level
      | cons child rest => exact moves_lines_of_inline htag (List.cons_ne_nil _ _) hchildren level
  | @box tag children htag _ hchildren ih =>
      intro level
      cases children with
      | nil => exact moves_lines_of_empty htag level
      | cons child rest =>
          exact moves_lines_of_blocks htag (List.cons_ne_nil _ _) hchildren level
            (moves_linesOf_of_forall ih (level + 1))

theorem moves_linesOf {ms : List Markup} (h : ∀ m ∈ ms, Block m) (level : Nat) :
    Moves (2 * levels) (Scanner.brokenLines (linesOf flavor level ms))
      (Scanner.brokenLines (linesOf flavor (level + levels) (movedIn (2 * levels) ms))) :=
  moves_linesOf_of_forall (fun m hm => moves_lines (h m hm)) level

/-! ## Texts of several lines -/

/-- Lines the last of which ends with a bracket. -/
def EndInTag (texts : List String) : Prop := ∃ first last, texts = first ++ [last ++ ">"]

theorem endInTag_append (first : List String) {others : List String} (h : EndInTag others) :
    EndInTag (first ++ others) := by
  obtain ⟨between, last, rfl⟩ := h
  exact ⟨first ++ between, last, (List.append_assoc _ _ _).symm⟩

theorem endInTag_lines (tag : Tag) (children : List Markup) (level : Nat) :
    EndInTag (lines flavor level (.element tag children)) := by
  have hclose : closeTag tag = "</" ++ tag.name ++ ">" := rfl
  rw [lines]
  split
  · cases flavor with
    | html =>
        refine ⟨[], indentation level ++ (openTag .html tag ++ ">" ++ ("</" ++ tag.name)), ?_⟩
        rw [emptyElement, hclose]
        simp only [String.append_assoc, List.nil_append]
    | jsx =>
        refine ⟨[], indentation level ++ (openTag .jsx tag ++ " /"), ?_⟩
        rw [emptyElement, String.append_assoc, String.append_assoc]
        rfl
  · split
    · exact ⟨[], _, by rw [hclose, ← String.append_assoc]; rfl⟩
    · exact ⟨_ :: linesOf flavor (level + 1) children, indentation level ++ ("</" ++ tag.name), by
        rw [hclose, List.cons_append, ← String.append_assoc]⟩

theorem endInTag_linesOf {ms : List Markup} (hne : ms ≠ []) (h : ∀ m ∈ ms, Block m)
    (level : Nat) : EndInTag (linesOf flavor level ms) := by
  induction ms with
  | nil => exact absurd rfl hne
  | cons m rest ih =>
      rw [List.forall_mem_cons] at h
      rw [linesOf]
      cases rest with
      | nil =>
          rw [linesOf, List.append_nil]
          cases h.1 with
          | line _ _ _ => exact endInTag_lines _ _ level
          | box _ _ _ => exact endInTag_lines _ _ level
      | cons next rest => exact endInTag_append _ (ih (List.cons_ne_nil _ _) h.2)

/-- A text of several lines is moved like its lines behind a break. -/
theorem indent_intercalate {texts moved : List String} (hend : EndInTag texts)
    (h : Moves count (Scanner.brokenLines texts) (Scanner.brokenLines moved)) :
    Text.indent count (String.intercalate "\n" texts).toList =
      (String.intercalate "\n" moved).toList := by
  obtain ⟨front, hfront⟩ : ∃ front, (String.intercalate "\n" texts).toList = front ++ ['>'] := by
    obtain ⟨others, last, rfl⟩ := hend
    cases others with
    | nil => exact ⟨last.toList, by rw [List.nil_append, String.intercalate_singleton]; simp⟩
    | cons first others =>
        refine ⟨(String.intercalate "\n" (first :: others)).toList ++ '\n' :: last.toList, ?_⟩
        rw [String.intercalate_append_of_ne_nil (List.cons_ne_nil _ _) (List.cons_ne_nil _ _),
          String.intercalate_singleton]
        simp
  have hmoved := h.moveLater_eq
  cases texts with
  | nil =>
      obtain ⟨others, last, hnil⟩ := hend
      simp at hnil
  | cons first others =>
      rw [← toList_intercalate_lines, Text.moveLater_feed, hfront,
        ← Text.indent_eq count front (by decide : isBlank '>' = false), ← hfront] at hmoved
      cases moved with
      | nil => cases hmoved
      | cons first others =>
          rw [← toList_intercalate_lines, List.cons.injEq] at hmoved
          exact hmoved.2

/-- Rendered blocks are moved to blocks with moved values, rendered some levels deeper. -/
theorem indent_linesOf {ms : List Markup} (h : ∀ m ∈ ms, Block m) (level : Nat) :
    Text.indent (2 * levels) (String.intercalate "\n" (linesOf flavor level ms)).toList =
      (String.intercalate "\n"
        (linesOf flavor (level + levels) (movedIn (2 * levels) ms))).toList := by
  cases ms with
  | nil => rfl
  | cons m rest =>
      exact indent_intercalate (endInTag_linesOf (List.cons_ne_nil m rest) h level)
        (moves_linesOf h level)

end Markup

end SceneMarkup
