/-
  SceneMarkup/Markup/Tree.lean --- markup as a tree, and its text in either flavor.

  WHAT THIS FILE IS FOR.  A piece of markup is a text or an element.  Elements whose
  content is all inline stand on one line; any other element has a line for each of
  its children, two blanks deeper.
-/
import SceneMarkup.Markup.Escape

set_option autoImplicit false

namespace SceneMarkup

/-- The head of an element: its name, its class, and its other attributes in order. -/
structure Tag where
  name : String
  className : Option String
  attributes : List (String × String)
  deriving DecidableEq, Repr, Inhabited

namespace Tag

/-- The head with a name and nothing else. -/
def named (name : String) : Tag := ⟨name, none, []⟩

/-- The value of the first attribute with a name. -/
def attribute? (tag : Tag) (name : String) : Option String :=
  (tag.attributes.find? fun a => a.1 == name).map (·.2)

end Tag

/-- A piece of markup. -/
inductive Markup where
  | text (content : String)
  | element (tag : Tag) (children : List Markup)
  deriving Repr, Inhabited

namespace Markup

/-- The head of an element. -/
def tag? : Markup → Option Tag
  | .text _ => none
  | .element tag _ => some tag

/-- The children of an element. -/
def children : Markup → List Markup
  | .text _ => []
  | .element _ children => children

mutual

/-- The text of a piece of markup and all that is in it. -/
def textContent : Markup → String
  | .text content => content
  | .element _ children => textContentIn children

/-- The text of some pieces of markup. -/
def textContentIn : List Markup → String
  | [] => ""
  | m :: rest => m.textContent ++ textContentIn rest

end

mutual

/-- Whether a piece of markup stands inside a line: a text, or a span of such pieces. -/
def isInline : Markup → Bool
  | .text _ => true
  | .element tag children => tag.name == "span" && allInline children

/-- Whether some pieces of markup all stand inside a line. -/
def allInline : List Markup → Bool
  | [] => true
  | m :: rest => m.isInline && allInline rest

end

/-! ## Rendering -/

/-- An attribute with a blank before it. -/
def attributeText (a : String × String) : String :=
  " " ++ a.1 ++ "=\"" ++ escapeAttribute a.2 ++ "\""

/-- An opening tag without its closing bracket. -/
def openTag (flavor : Flavor) (tag : Tag) : String :=
  "<" ++ tag.name ++
    (match tag.className with
      | some name => attributeText (flavor.classAttribute, name)
      | none => "") ++
    String.join (tag.attributes.map attributeText)

/-- A closing tag. -/
def closeTag (tag : Tag) : String := "</" ++ tag.name ++ ">"

/-- An element without content. -/
def emptyElement (flavor : Flavor) (tag : Tag) : String :=
  match flavor with
  | .html => openTag flavor tag ++ ">" ++ closeTag tag
  | .jsx => openTag flavor tag ++ " />"

mutual

/-- A piece of markup inside a line. -/
def renderInline (flavor : Flavor) : Markup → String
  | .text content => escapeText flavor content
  | .element tag children =>
      openTag flavor tag ++ ">" ++ renderInlineAll flavor children ++ closeTag tag

/-- Some pieces of markup inside a line. -/
def renderInlineAll (flavor : Flavor) : List Markup → String
  | [] => ""
  | m :: rest => renderInline flavor m ++ renderInlineAll flavor rest

end

/-- Two blanks for each level. -/
def indentation (level : Nat) : String := String.ofList (List.replicate (2 * level) ' ')

mutual

/-- The lines of a piece of markup at a level. -/
def lines (flavor : Flavor) (level : Nat) : Markup → List String
  | .text content => [indentation level ++ escapeText flavor content]
  | .element tag children =>
      if children.isEmpty then [indentation level ++ emptyElement flavor tag]
      else if allInline children then
        [indentation level ++ openTag flavor tag ++ ">" ++ renderInlineAll flavor children ++
          closeTag tag]
      else
        (indentation level ++ openTag flavor tag ++ ">") ::
          (linesOf flavor (level + 1) children ++ [indentation level ++ closeTag tag])

/-- The lines of some pieces of markup at a level. -/
def linesOf (flavor : Flavor) (level : Nat) : List Markup → List String
  | [] => []
  | m :: rest => lines flavor level m ++ linesOf flavor level rest

end

/-- The text of a forest. -/
def render (flavor : Flavor) (roots : List Markup) : String :=
  String.intercalate "\n" (linesOf flavor 0 roots)

/-- A forest as one expression: several roots are put into a fragment, and no root is null. -/
def expression (roots : List Markup) : String :=
  match roots with
  | [] => "null"
  | [root] => render .jsx [root]
  | roots => String.intercalate "\n" ("<>" :: (linesOf .jsx 1 roots ++ ["</>"]))

end Markup

end SceneMarkup
