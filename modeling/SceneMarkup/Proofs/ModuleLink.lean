/-
  SceneMarkup/Proofs/ModuleLink.lean --- the stylesheet that a module links.

  WHAT THIS FILE IS FOR.  A document names its stylesheet in the value of an attribute, a
  component in the literal of an import.  The value is escaped, so a document always links
  the stylesheet of its output.  The literal is not: a component links it just if nothing
  in its name ends the literal, breaks it or begins an escape.
-/
import Mathlib.Data.List.Basic
import SceneMarkup.ModuleText
import SceneMarkup.Proofs.Markup.Entities
import SceneMarkup.Proofs.Text.Literal

set_option autoImplicit false

namespace SceneMarkup

open Text (units isLiteralChar readLiteral)

/-! ## Finding a link -/

namespace Text

/-- What stands behind the first place of a marker in a text. -/
def behind? (marker : List Char) : List Char → Option (List Char)
  | [] => none
  | c :: cs => marker.isPrefixOf? (c :: cs) <|> behind? marker cs

/-- A marker does not begin in a text without its first character. -/
theorem behind?_append {c : Char} {marker front : List Char} (h : c ∉ front) (cs : List Char) :
    behind? (c :: marker) (front ++ cs) = behind? (c :: marker) cs := by
  induction front with
  | nil => rfl
  | cons d front ih =>
      rw [List.mem_cons, not_or] at h
      rw [List.cons_append, behind?, List.isPrefixOf?, if_neg (by simpa using h.1), ih h.2]
      rfl

end Text

namespace Flavor

/-- What stands in front of the name of a stylesheet. -/
def linkOpening : Flavor → String
  | .html => "<link rel=\"stylesheet\" href=\""
  | .jsx => "import '"

/-- What stands behind the name of a stylesheet and its quote. -/
def linkClosing : Flavor → String
  | .html => ">\n</head>\n"
  | .jsx => ";\n\nexport function "

/-- The units that a reference stands for, and what is left behind its quote. -/
def readLink? : Flavor → List Char → Option (List Nat × List Char)
  | .html, cs => (Markup.readValue? cs).map fun read => (units read.1, read.2)
  | .jsx, cs => readLiteral .inside cs

/-- The name of a stylesheet is the first thing that a component imports by its name alone. -/
theorem behind?_import (cs : List Char) :
    Text.behind? (linkOpening .jsx).toList
      ("import React from 'react';\nimport '".toList ++ cs) = some cs := by
  simp [Text.behind?, linkOpening, List.isPrefixOf?]

/-- The head of a document up to its title. -/
def documentStart : String :=
  "<!DOCTYPE html>\n<html lang=\"en\">\n<head>\n  <meta charset=\"utf-8\">\n  <title>"

/-- A title without opening brackets links nothing. -/
theorem behind?_title {title : List Char} (h : '<' ∉ title) (cs : List Char) :
    Text.behind? (linkOpening .html).toList
      (documentStart.toList ++ (title ++ ("</title>\n  ".toList ++
        ((linkOpening .html).toList ++ cs)))) = some cs := by
  have hstart : ∀ ds, Text.behind? (linkOpening .html).toList (documentStart.toList ++ ds) =
      Text.behind? (linkOpening .html).toList ds := fun ds => by
    simp [Text.behind?, linkOpening, documentStart, List.isPrefixOf?]
  rw [hstart, show (linkOpening .html).toList =
    '<' :: "link rel=\"stylesheet\" href=\"".toList from rfl, Text.behind?_append h]
  simp [Text.behind?, List.isPrefixOf?]

end Flavor

namespace Output

/-- What the module of an output refers to as its stylesheet, and what is left behind it. -/
def link? (out : Output) : Option (List Nat × List Char) :=
  (Text.behind? out.flavor.linkOpening.toList out.renderModule.toList).bind out.flavor.readLink?

/-- Where the stylesheet of an output is, seen from its module. -/
def stylesheetAddress (out : Output) : String :=
  match out.flavor with
  | .html => out.stylesheetFileName
  | .jsx => "./" ++ out.stylesheetFileName

/-- A component imports its stylesheet between single quotes, as it is named. -/
theorem exists_componentModule_link (name stylesheet : String) (roots : List Markup) :
    ∃ foot, Text.behind? (Flavor.linkOpening .jsx).toList
        (componentModule name roots stylesheet).toList =
      some (("./" ++ stylesheet).toList ++
        '\x27' :: ((Flavor.linkClosing .jsx).toList ++ foot)) := by
  let given := String.ofList (SceneMarkup.componentName name.toList)
  let foot := String.join [given, "() \x7b\n  return (\n",
    String.ofList (Text.indent 4 (Markup.expression roots).toList),
    "\n  );\n\x7d\n\nexport default ", given, ";\n"]
  have hsegments : componentModule name roots stylesheet =
      String.join ["import React from 'react';\nimport '" ++ "./", stylesheet,
        "'" ++ Flavor.linkClosing .jsx, given, "() \x7b\n  return (\n",
        String.ofList (Text.indent 4 (Markup.expression roots).toList),
        "\n  );\n\x7d\n\nexport default ", given, ";\n"] := rfl
  have hlink : (componentModule name roots stylesheet).toList =
      "import React from 'react';\nimport '".toList ++ (("./" ++ stylesheet).toList ++
        '\x27' :: ((Flavor.linkClosing .jsx).toList ++ foot.toList)) := by
    rw [hsegments]
    simp [foot]
  refine ⟨foot.toList, ?_⟩
  rw [hlink, Flavor.behind?_import]

/-- A document links its stylesheet between double quotes, with its name escaped. -/
theorem exists_documentModule_link (name stylesheet : String) (roots : List Markup) :
    ∃ foot, Text.behind? (Flavor.linkOpening .html).toList
        (documentModule name roots stylesheet).toList =
      some (stylesheet.toList.flatMap Markup.attributeChar ++
        '"' :: ((Flavor.linkClosing .html).toList ++ foot)) := by
  let title := Markup.escapeAttribute name
  let foot := String.join ["<body>\n",
    String.ofList (Text.indent 2 (Markup.render .html roots).toList), "\n</body>\n</html>\n"]
  have hsegments : documentModule name roots stylesheet =
      String.join [Flavor.documentStart, title, "</title>\n  " ++ Flavor.linkOpening .html,
        Markup.escapeAttribute stylesheet, "\"" ++ Flavor.linkClosing .html ++ "<body>\n",
        String.ofList (Text.indent 2 (Markup.render .html roots).toList),
        "\n</body>\n</html>\n"] := rfl
  have hlink : (documentModule name roots stylesheet).toList =
      Flavor.documentStart.toList ++ (title.toList ++ ("</title>\n  ".toList ++
        ((Flavor.linkOpening .html).toList ++ (stylesheet.toList.flatMap Markup.attributeChar ++
          '"' :: ((Flavor.linkClosing .html).toList ++ foot.toList))))) := by
    rw [hsegments]
    simp [foot, Markup.escapeAttribute]
  have htitle : '<' ∉ title.toList := fun hmem =>
    (Markup.ne_of_mem_escaped (String.toList_ofList ▸ hmem)).2.1 rfl
  refine ⟨foot.toList, ?_⟩
  rw [hlink, Flavor.behind?_title htitle]

/-- A document is read as linking its stylesheet. -/
theorem exists_link?_of_html {out : Output} (h : out.flavor = .html) :
    ∃ foot, out.link? =
      some (units out.stylesheetAddress.toList, out.flavor.linkClosing.toList ++ foot) := by
  obtain ⟨foot, hbehind⟩ :=
    exists_documentModule_link out.componentName out.stylesheetFileName out.markup
  refine ⟨foot, ?_⟩
  rw [link?, renderModule, stylesheetAddress, h]
  dsimp only
  rw [hbehind, Option.bind_some, Flavor.readLink?, Markup.readValue?_escaped, Option.map_some]

/-- What is read in a component is a literal with the name of the component. -/
theorem exists_link?_of_jsx {out : Output} (h : out.flavor = .jsx) :
    ∃ foot, out.link? = readLiteral .inside ("./".toList ++ out.componentName.toList ++
      (".css".toList ++ '\x27' :: (out.flavor.linkClosing.toList ++ foot))) := by
  obtain ⟨foot, hbehind⟩ :=
    exists_componentModule_link out.componentName out.stylesheetFileName out.markup
  refine ⟨foot, ?_⟩
  rw [link?, renderModule, h]
  dsimp only
  rw [hbehind, Option.bind_some, Flavor.readLink?, stylesheetFileName, String.toList_append,
    String.toList_append, List.append_assoc, List.append_assoc, List.append_assoc]

theorem toList_stylesheetAddress_of_jsx {out : Output} (h : out.flavor = .jsx) :
    out.stylesheetAddress.toList =
      "./".toList ++ out.componentName.toList ++ ".css".toList := by
  rw [stylesheetAddress, h]
  dsimp only
  rw [stylesheetFileName, String.toList_append, String.toList_append, List.append_assoc]

end Output

/-! ## The stylesheet of an output -/

/-- A module refers to the stylesheet of its output, where that is written, just if it is a document
or the name of its component has no quote, no backslash and no broken line in it. Then what stands
behind the reference is what the template has there. -/
theorem module_links_stylesheet_iff (out : Output) :
    (out.link?.map Prod.fst = some (units out.stylesheetAddress.toList) ↔
      (out.flavor = .jsx → ∀ c ∈ out.componentName.toList, isLiteralChar c = true)) ∧
    ((out.flavor = .jsx → ∀ c ∈ out.componentName.toList, isLiteralChar c = true) →
      ∃ foot, out.link? =
        some (units out.stylesheetAddress.toList, out.flavor.linkClosing.toList ++ foot)) := by
  cases hflavor : out.flavor with
  | html =>
      obtain ⟨foot, hlink⟩ := Output.exists_link?_of_html hflavor
      rw [hflavor] at hlink
      refine ⟨iff_of_true ?_ nofun, fun _ => ⟨foot, hlink⟩⟩
      rw [hlink, Option.map_some]
  | jsx =>
      obtain ⟨foot, hlink⟩ := Output.exists_link?_of_jsx hflavor
      have hextension : ∀ c ∈ ".css".toList, isLiteralChar c = true :=
        List.all_eq_true.1 (by decide)
      have hname : (∀ c ∈ "./".toList ++ out.componentName.toList, isLiteralChar c = true) ↔
          ∀ c ∈ out.componentName.toList, isLiteralChar c = true := by
        rw [List.forall_mem_append]
        exact and_iff_right (List.all_eq_true.1 (by decide))
      rw [Output.toList_stylesheetAddress_of_jsx hflavor, hlink, hflavor,
        forall_prop_of_true rfl, ← hname]
      have hiff := @Text.readLiteral_eq_units_iff ("./".toList ++ out.componentName.toList) _
        (";\n\nexport function ".toList ++ foot) (List.forall_mem_cons.1 hextension).2
      refine ⟨hiff, fun h => ⟨foot, ?_⟩⟩
      rw [← List.append_assoc]
      exact Text.readLiteral_of_isLiteralChar (List.forall_mem_append.2 ⟨h, hextension⟩) _

/-- A component and a document with names that look like markup; only the name of the document has
a single quote and a backslash. -/
theorem module_links_stylesheet_iff_quoted_names :
    let component : Output := ⟨[], [], [], .jsx, "\"</title>\u2028&amp;"⟩
    let document : Output := ⟨[], [], [], .html, "'\"></title>\\&amp;"⟩
    (∀ c ∈ component.componentName.toList, isLiteralChar c = true) ∧
      (∃ foot, component.link? = some (units "./\"</title>\u2028&amp;.css".toList,
        ";\n\nexport function ".toList ++ foot)) ∧
      ∃ foot, document.link? = some (units "'\"></title>\\&amp;.css".toList,
        ">\n</head>\n".toList ++ foot) := by
  intro component document
  have hplain : ∀ c ∈ component.componentName.toList, isLiteralChar c = true :=
    List.all_eq_true.1 (by decide)
  exact ⟨hplain, (module_links_stylesheet_iff component).2 fun _ => hplain,
    (module_links_stylesheet_iff document).2 nofun⟩

/-- A quote in the name of a component ends the literal. It refers to another file, and the rest of
the name is code. -/
theorem Output.exists_link?_of_quote {out : Output} {front back : List Char}
    (hflavor : out.flavor = .jsx) (hname : out.componentName.toList = front ++ '\x27' :: back)
    (hfront : ∀ c ∈ front, isLiteralChar c = true) :
    ∃ foot, out.link? = some (units ("./".toList ++ front), back ++ ".css';".toList ++ foot) := by
  obtain ⟨foot, hlink⟩ := Output.exists_link?_of_jsx hflavor
  have hplain : ∀ c ∈ "./".toList ++ front, isLiteralChar c = true :=
    List.forall_mem_append.2 ⟨List.all_eq_true.1 (by decide), hfront⟩
  refine ⟨"\n\nexport function ".toList ++ foot, ?_⟩
  rw [hlink, hname, hflavor, ← List.append_assoc _ front, List.append_assoc _ ('\x27' :: back),
    List.cons_append, Text.readLiteral_of_isLiteralChar hplain, List.append_assoc back]
  rfl

/-- A gadget of no known type. -/
def gadget : Json.Value := .object [("id", .string "1"), ("type", .string "A")]

/-- The component `it's` does not link the stylesheet `it's.css`. -/
theorem link?_ne_of_quote :
    ∃ out, compileValue gadget { Options.default with componentName := "it's" } = .ok out ∧
      out.link?.map Prod.fst ≠ some (units out.stylesheetAddress.toList) ∧
      ∃ foot, out.link? = some (units "./it".toList, "s.css';".toList ++ foot) := by
  have hcompiled : ∃ out, compileValue gadget
      { Options.default with componentName := "it's" } = .ok out ∧
      out.flavor = .jsx ∧ out.componentName = "it's" := ⟨_, rfl, rfl, rfl⟩
  obtain ⟨out, hout, hflavor, hname⟩ := hcompiled
  obtain ⟨foot, hlink⟩ := Output.exists_link?_of_quote hflavor
    (show out.componentName.toList = "it".toList ++ '\x27' :: "s".toList by rw [hname]; rfl)
    (List.all_eq_true.1 (by decide))
  refine ⟨out, hout, ?_, foot, hlink⟩
  rw [hlink, Option.map_some, Output.toList_stylesheetAddress_of_jsx hflavor, hname]
  change some (units "./it".toList) ≠ some (units "./it's.css".toList)
  decide

end SceneMarkup
