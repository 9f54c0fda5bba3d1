/-
  SceneMarkup/Style/Font.lean --- text styles: the font, which a run of text may
  override, and the alignment of the whole text.
-/
import SceneMarkup.Style.Fill

set_option autoImplicit false

namespace SceneMarkup.Style

/-- The value of a line height, unless it is the normal one. -/
def lineHeight? : LineHeight → Option String
  | .normal => none
  | .pixels value => some (px value)
  | .percent value => some (percent (value / 100))

/-- The keyword for capitalizing, unless the letters stay as they are. -/
def textTransform? : TextCase → Option String
  | .asTyped => none
  | .upper => some "uppercase"
  | .lower => some "lowercase"
  | .title => some "capitalize"

/-- The keyword for a line drawn with the text. -/
def textDecoration? : TextDecoration → Option String
  | .none => Option.none
  | .underline => some "underline"
  | .strikethrough => some "line-through"

/-- The declarations that a run of text may override. -/
def font (style : TextStyle) : List Declaration :=
  [("font-family", quoted style.fontFamily),
    ("font-weight", Decimal.numberText style.fontWeight),
    ("font-size", px style.fontSize)] ++
    declareSome "line-height" (lineHeight? style.lineHeight) ++
    declareIf (style.letterSpacing != 0) "letter-spacing" (px style.letterSpacing) ++
    declareIf style.italic "font-style" "italic" ++
    declareSome "text-transform" (textTransform? style.case) ++
    declareSome "text-decoration" (textDecoration? style.decoration)

/-- The keyword for aligning lines, unless they begin at the left. -/
def textAlign? : HorizontalAlign → Option String
  | .left => none
  | .right => some "right"
  | .center => some "center"
  | .justified => some "justify"

/-- The keyword for standing in a box, unless the text stands at the top. -/
def verticalKeyword? : VerticalAlign → Option String
  | .top => none
  | .center => some "center"
  | .bottom => some "flex-end"

/-- The alignment of the whole text; standing elsewhere than at the top takes a layout. -/
def paragraph (style : TextStyle) : List Declaration :=
  declareSome "text-align" (textAlign? style.alignHorizontal) ++
    match verticalKeyword? style.alignVertical with
    | none => []
    | some keyword =>
        [("display", "flex"), ("flex-direction", "column"), ("justify-content", keyword)]

/-- The record of characters in a style and with some fills. -/
def textRecord (style : TextStyle) (fills : List Paint) : Record :=
  .ofList (font style ++ fill true fills)

end SceneMarkup.Style
