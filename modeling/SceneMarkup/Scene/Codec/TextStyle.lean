/-
  SceneMarkup/Scene/Codec/TextStyle.lean --- codecs of texts and their styles.
-/
import SceneMarkup.Scene.Codec.Paint

set_option autoImplicit false

namespace SceneMarkup.Codec

/-! ## Styles -/

/-- The height of a line. -/
def lineHeight : Codec LineHeight where
  encode
    | .normal => .string "Normal"
    | .pixels x => case "Px" (float.encode x)
    | .percent x => case "Percent" (float.encode x)
  decode
    | .string "Normal" => some .normal
    | v => do
        match ← case? v with
        | ("Px", content) => return .pixels (← float.decode content)
        | ("Percent", content) => return .percent (← float.decode content)
        | _ => none

/-- Where the lines of a text are aligned. -/
def horizontalAlign : Codec HorizontalAlign := constant
  [(.left, "Left"), (.right, "Right"), (.center, "Center"), (.justified, "Justified")]

/-- Where a text stands in its box. -/
def verticalAlign : Codec VerticalAlign := constant
  [(.top, "Top"), (.center, "Center"), (.bottom, "Bottom")]

/-- How letters are capitalized. -/
def textCase : Codec TextCase := constant
  [(.asTyped, "Original"), (.upper, "Upper"), (.lower, "Lower"), (.title, "Title")]

/-- The line drawn with a text. -/
def textDecoration : Codec TextDecoration := constant
  [(.none, "None"), (.underline, "Underline"), (.strikethrough, "Strikethrough")]

/-- A text style. -/
def textStyle : Codec TextStyle where
  encode s :=
    .object [("font_family", .string s.fontFamily), ("font_weight", float.encode s.fontWeight),
      ("font_size", float.encode s.fontSize), ("line_height", lineHeight.encode s.lineHeight),
      ("letter_spacing", float.encode s.letterSpacing), ("italic", .bool s.italic),
      ("align_horizontal", horizontalAlign.encode s.alignHorizontal),
      ("align_vertical", verticalAlign.encode s.alignVertical),
      ("case", textCase.encode s.case), ("decoration", textDecoration.encode s.decoration)]
  decode v := do
    return {
      fontFamily := ← string.field v "font_family"
      fontWeight := ← float.field v "font_weight"
      fontSize := ← float.field v "font_size"
      lineHeight := ← lineHeight.field v "line_height"
      letterSpacing := ← float.field v "letter_spacing"
      italic := ← bool.field v "italic"
      alignHorizontal := ← horizontalAlign.field v "align_horizontal"
      alignVertical := ← verticalAlign.field v "align_vertical"
      case := ← textCase.field v "case"
      decoration := ← textDecoration.field v "decoration" }

/-- A style of some characters; what they do not have of their own is null or absent. -/
def styleOverride : Codec StyleOverride where
  encode o :=
    .object [("font_family", string.optional.encode o.fontFamily),
      ("font_weight", float.optional.encode o.fontWeight),
      ("font_size", float.optional.encode o.fontSize),
      ("line_height", lineHeight.optional.encode o.lineHeight),
      ("letter_spacing", float.optional.encode o.letterSpacing),
      ("italic", bool.optional.encode o.italic), ("case", textCase.optional.encode o.case),
      ("decoration", textDecoration.optional.encode o.decoration),
      ("fills", paint.list.optional.encode o.fills)]
  decode v := do
    return {
      fontFamily := ← string.fieldOrNone v "font_family"
      fontWeight := ← float.fieldOrNone v "font_weight"
      fontSize := ← float.fieldOrNone v "font_size"
      lineHeight := ← lineHeight.fieldOrNone v "line_height"
      letterSpacing := ← float.fieldOrNone v "letter_spacing"
      italic := ← bool.fieldOrNone v "italic"
      case := ← textCase.fieldOrNone v "case"
      decoration := ← textDecoration.fieldOrNone v "decoration"
      fills := ← paint.list.fieldOrNone v "fills" }

/-! ## Texts -/

/-- A style for a range of characters. -/
def styleRange : Codec StyleRange where
  encode r :=
    .object [("start", natural.encode r.start), ("end", natural.encode r.stop),
      ("style_id", natural.encode r.styleId)]
  decode v := do
    return ⟨← natural.field v "start", ← natural.field v "end", ← natural.field v "style_id"⟩

/-- Overriding styles under their ids in decimal. -/
def overrideTable : Codec OverrideTable where
  encode table := .object (table.map fun (id, o) => (toString id, styleOverride.encode o))
  decode
    | .object fields => fields.foldlM (fun table (key, v) => do
        return OverrideTable.insert table (← key.toNat?) (← styleOverride.decode v)) []
    | _ => none

/-- A text and its styles. -/
def textBlock : Codec TextBlock where
  encode t :=
    .object [("characters", .string t.characters), ("style", textStyle.encode t.style),
      ("character_overrides", natural.list.encode t.characterStyles),
      ("override_table", overrideTable.encode t.overrides),
      ("override_ranges", styleRange.list.encode t.ranges)]
  decode v := do
    return {
      characters := ← string.field v "characters"
      style := ← textStyle.field v "style"
      characterStyles := ← natural.list.field v "character_overrides"
      overrides := ← overrideTable.field v "override_table"
      ranges := ← styleRange.list.field v "override_ranges" }

end SceneMarkup.Codec
