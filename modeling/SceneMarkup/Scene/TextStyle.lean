/-
  SceneMarkup/Scene/TextStyle.lean --- text, its base style, and the styles that
  override it for some of its characters.
-/
import SceneMarkup.Scene.Paint

set_option autoImplicit false

namespace SceneMarkup

/-- The height of a line. -/
inductive LineHeight where
  | normal
  | pixels (value : Float)
  /-- in hundredths of the font size -/
  | percent (value : Float)
  deriving Repr, Inhabited

/-- Where the lines of a text are aligned. -/
inductive HorizontalAlign where
  | left
  | right
  | center
  | justified
  deriving DecidableEq, Repr, Inhabited

/-- Where a text stands in its box. -/
inductive VerticalAlign where
  | top
  | center
  | bottom
  deriving DecidableEq, Repr, Inhabited

/-- How letters are capitalized. -/
inductive TextCase where
  | asTyped
  | upper
  | lower
  | title
  deriving DecidableEq, Repr, Inhabited

/-- The line drawn with a text. -/
inductive TextDecoration where
  | none
  | underline
  | strikethrough
  deriving DecidableEq, Repr, Inhabited

/-- A complete text style. -/
structure TextStyle where
  fontFamily : String
  fontWeight : Float
  fontSize : Float
  lineHeight : LineHeight
  letterSpacing : Float
  italic : Bool
  alignHorizontal : HorizontalAlign
  alignVertical : VerticalAlign
  case : TextCase
  decoration : TextDecoration
  deriving Repr, Inhabited

/-- The style with a font and nothing else. -/
def TextStyle.ofFont (family : String) (weight size : Float) : TextStyle :=
  ⟨family, weight, size, .normal, 0, false, .left, .top, .asTyped, .none⟩

/-- The part of a text style that some characters have of their own; alignment belongs to the
whole text. -/
structure StyleOverride where
  fontFamily : Option String
  fontWeight : Option Float
  fontSize : Option Float
  lineHeight : Option LineHeight
  letterSpacing : Option Float
  italic : Option Bool
  case : Option TextCase
  decoration : Option TextDecoration
  /-- the fills that replace those of the text -/
  fills : Option (List Paint)
  deriving Repr, Inhabited

/-- `style` with what `own` has of its own. -/
def TextStyle.apply (style : TextStyle) (own : StyleOverride) : TextStyle :=
  { style with
    fontFamily := own.fontFamily.getD style.fontFamily
    fontWeight := own.fontWeight.getD style.fontWeight
    fontSize := own.fontSize.getD style.fontSize
    lineHeight := own.lineHeight.getD style.lineHeight
    letterSpacing := own.letterSpacing.getD style.letterSpacing
    italic := own.italic.getD style.italic
    case := own.case.getD style.case
    decoration := own.decoration.getD style.decoration }

/-- A style for the characters from `start` up to `stop`, counted as characters. -/
structure StyleRange where
  start : Nat
  stop : Nat
  styleId : Nat
  deriving DecidableEq, Repr, Inhabited

/-- The overriding styles of a text by id, in order of first appearance; the id zero stands for
the base style. -/
abbrev OverrideTable : Type := List (Nat × StyleOverride)

namespace OverrideTable

/-- The style with an id. -/
def get? (table : OverrideTable) (id : Nat) : Option StyleOverride :=
  (table.find? fun entry => entry.1 == id).map (·.2)

/-- Whether there is a style with an id. -/
def has (table : OverrideTable) (id : Nat) : Bool := table.any fun entry => entry.1 == id

/-- `table` with a style set; an earlier one with the same id is replaced in its place. -/
def insert (table : OverrideTable) (id : Nat) (style : StyleOverride) : OverrideTable :=
  match table with
  | [] => [(id, style)]
  | entry :: rest => if entry.1 = id then (id, style) :: rest else entry :: insert rest id style

end OverrideTable

/-- A text and its styles. The ids of single characters come first, then the ranges in order,
where a later one wins; characters without an id have the base style. -/
structure TextBlock where
  characters : String
  style : TextStyle
  characterStyles : List Nat
  overrides : OverrideTable
  ranges : List StyleRange
  deriving Repr, Inhabited

namespace TextBlock

/-- The text with one style throughout. -/
def ofStyle (characters : String) (style : TextStyle) : TextBlock := ⟨characters, style, [], [], []⟩

/-- Whether some id other than zero is given to a character or to a range that is not empty. -/
def hasOverrides (text : TextBlock) : Bool :=
  text.characterStyles.any (· != 0) ||
    text.ranges.any fun range => range.styleId != 0 && decide (range.start < range.stop)

end TextBlock

end SceneMarkup
