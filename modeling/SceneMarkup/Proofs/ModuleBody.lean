/-
  SceneMarkup/Proofs/ModuleBody.lean --- the markup that a module holds.

  WHAT THIS FILE IS FOR.  A module holds the markup of its output with all lines moved to
  the right, and a reader of the module finds the same elements and texts in it.  What may
  come out different is the value of an attribute, if it breaks a line, since moving lines
  does not stop at quotes.
-/
import SceneMarkup.ModuleText
import SceneMarkup.Proofs.Markup.Lossless
import SceneMarkup.Proofs.Markup.Moved

set_option autoImplicit false

namespace SceneMarkup

open Markup (Block movedIn merged)

/-! ## The body of a module -/

namespace Flavor

/-- How far the body of a module is moved, in levels of markup. -/
def bodyLevels : Flavor → Nat
  | .html => 1
  | .jsx => 2

/-- What stands in front of the body of a module. -/
def bodyOpening : Flavor → String
  | .html => "<body>\n"
  | .jsx => "  return (\n"

/-- What stands behind the body of a module. -/
def bodyClosing : Flavor → String
  | .html => "\n</body>\n"
  | .jsx => "\n  );\n"

end Flavor

namespace Output

/-- The markup of an output as the content of a document, or as the expression of a component. -/
def bodyText (out : Output) : String :=
  match out.flavor with
  | .html => Markup.render .html out.markup
  | .jsx => Markup.expression out.markup

/-- The body of the module of an output. -/
def moduleBody (out : Output) : String :=
  String.ofList (Text.indent (2 * out.flavor.bodyLevels) out.bodyText.toList)

/-- A component has its body between two fixed lines. -/
theorem exists_componentModule_eq (name stylesheet : String) (roots : List Markup) :
    ∃ head foot, componentModule name roots stylesheet =
      head ++ Flavor.bodyOpening .jsx ++
        String.ofList (Text.indent 4 (Markup.expression roots).toList) ++
          Flavor.bodyClosing .jsx ++ foot := by
  let given := String.ofList (SceneMarkup.componentName name.toList)
  have hsegments : componentModule name roots stylesheet =
      String.join ["import React from 'react';\nimport './", stylesheet, "';\n\nexport function ",
        given, "() \x7b\n" ++ Flavor.bodyOpening .jsx,
        String.ofList (Text.indent 4 (Markup.expression roots).toList),
        Flavor.bodyClosing .jsx ++ "\x7d\n\nexport default ", given, ";\n"] := rfl
  refine ⟨"import React from 'react';\nimport './" ++ stylesheet ++ "';\n\nexport function " ++
    given ++ "() \x7b\n", "\x7d\n\nexport default " ++ given ++ ";\n", ?_⟩
  rw [hsegments]
  simp only [String.join_cons, String.join_nil, String.append_assoc, String.append_empty]

/-- A document has its body between two fixed lines. -/
theorem exists_documentModule_eq (name stylesheet : String) (roots : List Markup) :
    ∃ head foot, documentModule name roots stylesheet =
      head ++ Flavor.bodyOpening .html ++
        String.ofList (Text.indent 2 (Markup.render .html roots).toList) ++
          Flavor.bodyClosing .html ++ foot := by
  let title := Markup.escapeAttribute name
  let link := Markup.escapeAttribute stylesheet
  let start :=
    "<!DOCTYPE html>\n<html lang=\"en\">\n<head>\n  <meta charset=\"utf-8\">\n  <title>"
  have hsegments : documentModule name roots stylesheet =
      String.join [start, title, "</title>\n  <link rel=\"stylesheet\" href=\"", link,
        "\">\n</head>\n" ++ Flavor.bodyOpening .html,
        String.ofList (Text.indent 2 (Markup.render .html roots).toList),
        Flavor.bodyClosing .html ++ "</html>\n"] := rfl
  refine ⟨start ++ title ++ "</title>\n  <link rel=\"stylesheet\" href=\"" ++ link ++
    "\">\n</head>\n", "</html>\n", ?_⟩
  rw [hsegments]
  simp only [String.join_cons, String.join_nil, String.append_assoc, String.append_empty]

/-- A module is its body between two fixed lines, with something before and behind them. -/
theorem exists_renderModule_eq (out : Output) : ∃ head foot, out.renderModule =
    head ++ out.flavor.bodyOpening ++ out.moduleBody ++ out.flavor.bodyClosing ++ foot := by
  rw [renderModule, moduleBody, bodyText]
  cases out.flavor with
  | html => exact exists_documentModule_eq _ _ _
  | jsx => exact exists_componentModule_eq _ _ _

end Output

namespace Markup

/-! ## Reading a body -/

/-- What is in a fragment; any other markup is itself. -/
def unwrapped : List Markup → List Markup
  | [.element tag children] => if tag = Tag.named "" then children else [.element tag children]
  | roots => roots

theorem unwrapped_fragment (roots : List Markup) :
    unwrapped [.element (Tag.named "") roots] = roots := by
  rw [unwrapped, if_pos rfl]

/-- The forest of the body of a module. An expression may also be a fragment around the roots, or
null if there are none. -/
def readBody (flavor : Flavor) (text : String) : Option (List Markup) :=
  match flavor with
  | .html => read .html text
  | .jsx =>
      if text.toList.dropWhile (· == ' ') = "null".toList then some []
      else (read .jsx text).map unwrapped

/-- What is null is not markup. -/
theorem read_of_null {text : String} (h : text.toList.dropWhile (· == ' ') = "null".toList) :
    read .jsx text = none := by
  have hblanks : text.toList.takeWhile (· == ' ') =
      List.replicate (text.toList.takeWhile (· == ' ')).length ' ' :=
    List.eq_replicate_of_mem fun c hc => eq_of_beq (List.all_eq_true.1 List.all_takeWhile c hc)
  have htext := @List.takeWhile_append_dropWhile _ (· == ' ') text.toList
  rw [h, hblanks] at htext
  rw [read, scan, ← htext, Scanner.run_append, Scanner.run_blanks]
  rfl

theorem readBody_of_read {text : String} {roots : List Markup}
    (h : read .jsx text = some roots) : readBody .jsx text = some (unwrapped roots) := by
  have hnotNull : ¬ text.toList.dropWhile (· == ' ') = "null".toList := by
    intro hnull
    rw [read_of_null hnull] at h
    cases h
  rw [readBody, if_neg hnotNull, h, Option.map_some]

theorem read_linesOf (flavor : Flavor) (level : Nat) {roots : List Markup}
    (h : ∀ m ∈ roots, Block m) :
    read flavor (String.intercalate "\n" (linesOf flavor level roots)) = some (merged roots) :=
  read_of_scan (scan_linesOf flavor level h) fun m hm => (h m hm).readsBack

variable {count levels : Nat}

theorem block_of_mem_movedIn {ms : List Markup} (h : ∀ m ∈ ms, Block m) :
    ∀ m ∈ movedIn count ms, Block m := by
  rw [movedIn_eq_map, List.forall_mem_map]
  exact fun m hm => (h m hm).moved count

/-- Moved blocks are read as blocks with moved values. -/
theorem read_indent_linesOf (flavor : Flavor) {ms : List Markup} (h : ∀ m ∈ ms, Block m) :
    read flavor
        (String.ofList (Text.indent (2 * levels) (render flavor ms).toList)) =
      some (movedIn (2 * levels) (merged ms)) := by
  rw [render, indent_linesOf h, String.ofList_toList,
    read_linesOf flavor _ (block_of_mem_movedIn h), merged_movedIn]

/-! ## Fragments -/

/-- The lines of a fragment at some level. -/
def fragmentLines (level : Nat) (roots : List Markup) : List String :=
  (indentation level ++ "<>") ::
    (linesOf .jsx (level + 1) roots ++ [indentation level ++ "</>"])

theorem scan_fragmentLines (level : Nat) {roots : List Markup} (h : ∀ m ∈ roots, Block m) :
    scan .jsx (String.intercalate "\n" (fragmentLines level roots)) =
      some (tokensIn [.element (Tag.named "") roots]) := by
  have hopening : (Scanner.mk [] .line).run .jsx "<>".toList =
      some ⟨[.opens (Tag.named "")], .content true⟩ := rfl
  have hroots := @Scanner.run_linesOf .jsx [.opens (Tag.named "")] roots
    (fun m hm => Scanner.run_lines (h m hm)) (level + 1)
  have hclosing : ∀ ts, (Scanner.mk ts .line).run .jsx "</>".toList =
      some ⟨ts ++ [.closes ""], .content true⟩ := fun _ => rfl
  refine scan_intercalate ?_
  rw [fragmentLines, Scanner.run_indented, hopening, Option.bind_some, Scanner.brokenLines_append,
    Scanner.run_append, hroots, Option.bind_some, Scanner.run_indented, hclosing, Option.bind_some,
    List.append_assoc, tokensIn, tokensIn, List.append_nil, tokens]
  rfl

theorem read_fragmentLines (level : Nat) {roots : List Markup} (h : ∀ m ∈ roots, Block m) :
    read .jsx (String.intercalate "\n" (fragmentLines level roots)) =
      some [.element (Tag.named "") (merged roots)] := by
  have hback : ∀ m ∈ [Markup.element (Tag.named "") roots], m.ReadsBack :=
    List.forall_mem_singleton.2 (readsBack_element fun m hm => (h m hm).readsBack)
  exact read_of_scan (scan_fragmentLines level h) hback

/-- A fragment is moved like an element around lines. -/
theorem indent_fragmentLines (level : Nat) {roots : List Markup} (h : ∀ m ∈ roots, Block m) :
    Text.indent (2 * levels) (String.intercalate "\n" (fragmentLines level roots)).toList =
      (String.intercalate "\n"
        (fragmentLines (level + levels) (movedIn (2 * levels) roots))).toList := by
  have hopening : Text.Moves (2 * levels) "<>".toList "<>".toList := Text.moves_self (by decide)
  have hclosing : Text.Moves (2 * levels) "</>".toList "</>".toList :=
    Text.moves_self (by decide)
  have hfirst := moves_indented level ⟨">", rfl⟩ hopening
  have hinner := @moves_linesOf .jsx levels roots h (level + 1)
  have hlast := moves_indented level ⟨"/>", rfl⟩ hclosing
  rw [Nat.add_right_comm] at hinner
  have hend : EndInTag (fragmentLines level roots) :=
    ⟨(indentation level ++ "<>") :: linesOf .jsx (level + 1) roots, indentation level ++ "</", by
      rw [fragmentLines, String.append_assoc]; rfl⟩
  refine indent_intercalate hend ?_
  rw [fragmentLines, fragmentLines, brokenLines_around, brokenLines_around]
  exact hfirst.append (hinner.append hlast)

/-! ## Expressions -/

theorem unwrapped_merged_singleton {root : Markup} (h : Block root) :
    unwrapped (merged [root]) = merged [root] := by
  have hne : ∀ {tag : Tag}, tag.Readable → tag ≠ Tag.named "" := by
    rintro tag htag rfl
    exact htag.isName.1 rfl
  cases h with
  | line htag _ _ => exact if_neg (hne htag)
  | box htag _ _ => exact if_neg (hne htag)

theorem expression_cons_cons (first second : Markup) (rest : List Markup) :
    expression (first :: second :: rest) =
      String.intercalate "\n" (fragmentLines 0 (first :: second :: rest)) := rfl

/-- A moved expression is read as its roots with moved values. -/
theorem readBody_indent_expression {roots : List Markup} (h : ∀ m ∈ roots, Block m) :
    readBody .jsx (String.ofList (Text.indent (2 * 2) (expression roots).toList)) =
      some (movedIn (2 * 2) (merged roots)) := by
  have hmoved := @block_of_mem_movedIn (2 * 2) roots h
  cases roots with
  | nil => rfl
  | cons root rest =>
      cases rest with
      | nil =>
          have hread := @read_indent_linesOf 2 .jsx _ h
          rw [movedIn, movedIn, List.forall_mem_singleton] at hmoved
          rw [← merged_movedIn] at hread ⊢
          exact (readBody_of_read hread).trans (congrArg some (unwrapped_merged_singleton hmoved))
      | cons second rest =>
          have hread := read_fragmentLines 2 hmoved
          have hindent := @indent_fragmentLines 2 0 _ h
          rw [← merged_movedIn, expression_cons_cons, hindent, String.ofList_toList]
          exact (readBody_of_read hread).trans (congrArg some (unwrapped_fragment _))

end Markup

namespace Output

/-- The body of a module is read as the markup of the output with moved values, its texts up to how
they are cut. -/
theorem readBody_moduleBody {out : Output} (h : ∀ m ∈ out.markup, Block m) :
    Markup.readBody out.flavor out.moduleBody =
      some (movedIn (2 * out.flavor.bodyLevels) (merged out.markup)) := by
  rw [moduleBody, bodyText]
  cases out.flavor with
  | html =>
      rw [Markup.readBody, Flavor.bodyLevels]
      exact Markup.read_indent_linesOf .html h
  | jsx =>
      rw [Flavor.bodyLevels]
      exact Markup.readBody_indent_expression h

end Output

/-! ## Documents -/

/-- The module of an output holds the markup between two fixed lines. What is read there is what is
read from the markup alone, with the later lines of all values moved to the right. So the two are
the same just if no value in the markup, be it a class, an id or a type tag, has a line feed. -/
theorem module_keeps_markup_iff {v : Json.Value} {options : Options} {out : Output}
    (h : compileValue v options = .ok out) :
    (∃ head foot, out.renderModule =
      head ++ out.flavor.bodyOpening ++ out.moduleBody ++ out.flavor.bodyClosing ++ foot) ∧
    Markup.readBody out.flavor out.moduleBody =
      (Markup.read out.flavor out.renderMarkup).map (movedIn (2 * out.flavor.bodyLevels)) ∧
    (Markup.readBody out.flavor out.moduleBody = Markup.read out.flavor out.renderMarkup ↔
      ∀ tag ∈ Markup.tagsIn out.markup, ∀ value ∈ tag.values, '\n' ∉ value.toList) := by
  have hblocks := block_of_compileValue h
  have hread : Markup.read out.flavor out.renderMarkup = some (merged out.markup) :=
    Markup.read_render out.flavor hblocks
  have hbody := Output.readBody_moduleBody hblocks
  have hpos : 0 < 2 * out.flavor.bodyLevels := by cases out.flavor <;> decide
  refine ⟨out.exists_renderModule_eq, ?_, ?_⟩
  · rw [hbody, hread, Option.map_some]
  · rw [hbody, hread, Option.some.injEq, Markup.movedIn_eq_self_iff hpos, Markup.tagsIn_merged]

/-- Two gadgets whose ids and type tags look like markup. -/
def gadgets : Json.Value :=
  .array [.object [("id", .string "\"><br>"), ("type", .string "</div>\r<div>")],
    .object [("id", .string "null"), ("type", .string "  <>")]]

theorem module_keeps_markup_iff_gadgets :
    let options : Options := { Options.default with emitNodeIds := true }
    ∃ out, compileValue gadgets options = .ok out ∧
      Markup.tagsIn out.markup =
        [⟨"div", some "placeholder",
            [("data-placeholder", "</div>\r<div>"), ("data-node-id", "\"><br>")]⟩,
          ⟨"div", some "placeholder",
            [("data-placeholder", "  <>"), ("data-node-id", "null")]⟩] ∧
      Markup.readBody out.flavor out.moduleBody = Markup.read out.flavor out.renderMarkup := by
  intro options
  have htags : ∃ out, compileValue gadgets options = .ok out ∧
      Markup.tagsIn out.markup =
        [⟨"div", some "placeholder",
            [("data-placeholder", "</div>\r<div>"), ("data-node-id", "\"><br>")]⟩,
          ⟨"div", some "placeholder",
            [("data-placeholder", "  <>"), ("data-node-id", "null")]⟩] :=
    ⟨_, rfl, by decide +kernel⟩
  obtain ⟨out, hout, htags⟩ := htags
  obtain ⟨-, -, hiff⟩ := module_keeps_markup_iff hout
  refine ⟨out, hout, htags, hiff.2 ?_⟩
  rw [htags]
  decide

/-- A gadget whose type tag has a line feed. -/
def brokenGadget : Json.Value := .object [("id", .string "1"), ("type", .string "A\nB")]

/-- The second line of a type tag is moved in a module. -/
theorem readBody_ne_read_of_lineFeed :
    ∃ out, compileValue brokenGadget .default = .ok out ∧
      Markup.readBody out.flavor out.moduleBody ≠ Markup.read out.flavor out.renderMarkup ∧
      (Markup.readBody out.flavor out.moduleBody).map Markup.tagsIn =
        some [⟨"div", some "placeholder", [("data-placeholder", "A\n    B")]⟩] ∧
      (Markup.read out.flavor out.renderMarkup).map Markup.tagsIn =
        some [⟨"div", some "placeholder", [("data-placeholder", "A\nB")]⟩] := by
  have htags : ∃ out, compileValue brokenGadget .default = .ok out ∧
      (Markup.readBody out.flavor out.moduleBody).map Markup.tagsIn =
        some [⟨"div", some "placeholder", [("data-placeholder", "A\n    B")]⟩] ∧
      (Markup.read out.flavor out.renderMarkup).map Markup.tagsIn =
        some [⟨"div", some "placeholder", [("data-placeholder", "A\nB")]⟩] :=
    ⟨_, rfl, by decide +kernel, by decide +kernel⟩
  obtain ⟨out, hout, hbody, hread⟩ := htags
  refine ⟨out, hout, fun hsame => ?_, hbody, hread⟩
  rw [hsame, hread] at hbody
  exact absurd hbody (by decide)

end SceneMarkup
