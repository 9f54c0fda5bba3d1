/-
  SceneMarkup/Document/Layer.lean --- the layer of a node from its source: defaults
  for what is left out, remarks on what is not understood, errors for what is missing.

  ORDER.  The remarks on a node come in a fixed order: bounding box, then what the
  kind of the node requires, then blend mode, fills and strokes.
-/
import SceneMarkup.Document.Finding
import SceneMarkup.Document.Source

set_option autoImplicit false

namespace SceneMarkup.Document

/-- An error on a node. -/
def fail (id message : String) : Noted Unit := .note (.error (some id) message)

/-- A warning on a node. -/
def warn (id message : String) : Noted Unit := .note (.warning id message)

/-- The meaning of a keyword; an unknown one is remarked on and replaced by the default. -/
def keyword {α : Type} (id field : String) (ofTag? : String → Option α) (default : α) :
    Option String → Noted α
  | none => .clean default
  | some tag =>
      match ofTag? tag with
      | some a => .clean a
      | none => do
          warn id ("unknown " ++ field ++ " `" ++ tag ++ "`, using default")
          return default

/-! ## Keywords -/

/-- The layout that a document calls `tag`. -/
def layoutMode? (tag : String) : Option LayoutMode :=
  match tag with
  | "NONE" => some .none
  | "HORIZONTAL" => some .horizontal
  | "VERTICAL" => some .vertical
  | _ => none

/-- The sizing that a document calls `tag`. -/
def sizing? (tag : String) : Option Sizing :=
  match tag with
  | "FIXED" => some .fixed
  | "AUTO" => some .auto
  | "HUG" => some .auto
  | _ => none

/-- The spreading that a document calls `tag`. -/
def mainAlign? (tag : String) : Option MainAlign :=
  match tag with
  | "MIN" => some .min
  | "CENTER" => some .center
  | "MAX" => some .max
  | "SPACE_BETWEEN" => some .spaceBetween
  | _ => none

/-- The alignment that a document calls `tag`. -/
def crossAlign? (tag : String) : Option CrossAlign :=
  match tag with
  | "MIN" => some .min
  | "CENTER" => some .center
  | "MAX" => some .max
  | "BASELINE" => some .baseline
  | _ => none

/-- The alignment of lines that a document calls `tag`. -/
def alignHorizontal? (tag : String) : Option HorizontalAlign :=
  match tag with
  | "LEFT" => some .left
  | "RIGHT" => some .right
  | "CENTER" => some .center
  | "JUSTIFIED" => some .justified
  | _ => none

/-- The standing of a text that a document calls `tag`. -/
def alignVertical? (tag : String) : Option VerticalAlign :=
  match tag with
  | "TOP" => some .top
  | "CENTER" => some .center
  | "BOTTOM" => some .bottom
  | _ => none

/-- The capitalization that a document calls `tag`. -/
def textCase? (tag : String) : Option TextCase :=
  match tag with
  | "ORIGINAL" => some .asTyped
  | "UPPER" => some .upper
  | "LOWER" => some .lower
  | "TITLE" => some .title
  | _ => none

/-- The decoration that a document calls `tag`. -/
def textDecoration? (tag : String) : Option TextDecoration :=
  match tag with
  | "NONE" => some .none
  | "UNDERLINE" => some .underline
  | "STRIKETHROUGH" => some .strikethrough
  | _ => none

/-- The gradient that a document calls `tag`. -/
def gradientKind? (tag : String) : Option GradientKind :=
  match tag with
  | "GRADIENT_LINEAR" => some .linear
  | "GRADIENT_RADIAL" => some .radial
  | "GRADIENT_ANGULAR" => some .angular
  | "GRADIENT_DIAMOND" => some .diamond
  | _ => none

/-! ## Paints and effects -/

/-- A paint of a list, by the name of the list and the position in it. -/
def place (field : String) (index : Nat) : String := field ++ "[" ++ toString index ++ "]"

/-- The gradient of a paint, unless its positions decrease somewhere as the document states them.
Positions outside of the unit interval are moved into it. -/
def gradientInk (id field : String) (index : Nat) (kind : GradientKind) (source : PaintSource) :
    Noted (Option Ink) :=
  if nonDecreasing (source.stops.map (·.position)) then
    let stops := source.stops.map fun s => { s with position := clampUnit s.position }
    .clean (some (.gradient ⟨kind, stops, source.handles⟩))
  else do
    warn id (place field index ++
      ": gradient stops are not in non-decreasing position order, layer skipped")
    return none

/-- What a paint draws. -/
def ink (id field : String) (index : Nat) (source : PaintSource) : Noted (Option Ink) :=
  match source.type, gradientKind? source.type with
  | _, some kind => gradientInk id field index kind source
  | "SOLID", none =>
      match source.color with
      | some color => .clean (some (.solid color))
      | none => do
          fail id (place field index ++ ": solid paint missing required field `color`")
          return none
  | "IMAGE", none =>
      match source.imageRef with
      | some reference => do
          let mode ← keyword id "scaleMode" ScaleMode.ofTag? .fill source.scaleMode
          return some (.image reference mode)
      | none => do
          fail id (place field index ++ ": image paint missing required field `imageRef`")
          return none
  | tag, none => .clean (some (.unsupported tag))

/-- A paint. -/
def paint (id field : String) (index : Nat) (source : PaintSource) : Noted (Option Paint) := do
  match ← ink id field index source with
  | none => return none
  | some ink => return some ⟨ink, source.opacity.getD 1, source.visible.getD true⟩

/-- The paints of a list that can be used, in order. -/
def paints (id field : String) (sources : List PaintSource) : Noted (List Paint) :=
  .someIndexed (paint id field) sources

/-- The color of a shadow without a color. -/
def shadowColor : Color := ⟨0, 0, 0, 0.25⟩

/-- The shadow of an effect. -/
def shadow (source : EffectSource) : Shadow :=
  ⟨source.color.getD shadowColor, source.offset.getD .zero, source.radius.getD 0,
    source.spread.getD 0⟩

/-- What an effect does. -/
def effectKind (source : EffectSource) : EffectKind :=
  match source.type with
  | "DROP_SHADOW" => .dropShadow (shadow source)
  | "INNER_SHADOW" => .innerShadow (shadow source)
  | "LAYER_BLUR" => .layerBlur (source.radius.getD 0)
  | "BACKGROUND_BLUR" => .backgroundBlur (source.radius.getD 0)
  | tag => .unsupported tag

/-- An effect. -/
def effect (source : EffectSource) : Effect := ⟨effectKind source, source.visible.getD true⟩

/-! ## Boxes and frames -/

/-- The bounding box, which must be there, be finite and have no negative size. -/
def bounds (id : String) (source : Option Rect) : Noted (Option Rect) :=
  match source with
  | none => do
      fail id "missing required field `absoluteBoundingBox`"
      return none
  | some r =>
      if !([r.x, r.y, r.width, r.height].all Float.isFinite) then do
        fail id "bounding box values must be finite"
        return none
      else if r.width < 0 || r.height < 0 then do
        fail id ("bounding box has negative size " ++ Decimal.plain r.width ++ "x" ++
          Decimal.plain r.height)
        return none
      else .clean (some r)

/-- The corner radius: a list must have one number for each corner. -/
def cornerRadius (id : String) (source : NodeSource) : Noted CornerRadius :=
  match source.cornerRadii, source.cornerRadius with
  | some radii, _ => ofList radii
  | none, some (.list radii) => ofList radii
  | none, some (.uniform r) => .clean (.uniform r)
  | none, none => .clean (.uniform 0)
where
  /-- The radius of a list. -/
  ofList : List Float → Noted CornerRadius
  | [a, b, c, d] => .clean (.perCorner a b c d)
  | radii => do
      fail id ("corner radius array must have 4 values, found " ++ toString radii.length)
      return .uniform 0

/-- The padding: each side has its own, or the common one, or none. -/
def padding (source : NodeSource) : Padding :=
  let common := source.padding.getD 0
  ⟨source.paddingTop.getD common, source.paddingRight.getD common,
    source.paddingBottom.getD common, source.paddingLeft.getD common⟩

/-- The frame of a container. -/
def frame (id : String) (source : NodeSource) : Noted Frame := do
  let layoutMode ← keyword id "layoutMode" layoutMode? .none source.layoutMode
  let mainSizing ← keyword id "primaryAxisSizingMode" sizing? .fixed source.mainSizing
  let crossSizing ← keyword id "counterAxisSizingMode" sizing? .fixed source.crossSizing
  let mainAlign ← keyword id "primaryAxisAlignItems" mainAlign? .min source.mainAlign
  let crossAlign ← keyword id "counterAxisAlignItems" crossAlign? .min source.crossAlign
  let corners ← cornerRadius id source
  return ⟨layoutMode, mainSizing, crossSizing, mainAlign, crossAlign, padding source,
    source.itemSpacing.getD 0, corners, source.clipsContent.getD false⟩

/-! ## Text -/

/-- The line height by its unit; there is none where the style does not set one. -/
def lineHeight (id : String) (source : StyleSource) : Noted (Option LineHeight) :=
  match source.lineHeightUnit with
  | none => .clean (source.lineHeightPx.map .pixels)
  | some "PIXELS" => .clean (source.lineHeightPx.map .pixels)
  | some "FONT_SIZE_%" => .clean (source.lineHeightPercent.map .percent)
  | some "INTRINSIC_%" => .clean (some .normal)
  | some unit => do
      warn id ("unknown lineHeightUnit `" ++ unit ++ "`, using default")
      return none

/-- The fields that a base style must have and that are missing. -/
def missingFontFields (source : StyleSource) : List String :=
  (if source.fontFamily.isNone then ["fontFamily"] else []) ++
    (if source.fontWeight.isNone then ["fontWeight"] else []) ++
    (if source.fontSize.isNone then ["fontSize"] else [])

/-- The base style of a text. -/
def baseStyle (id : String) (source : StyleSource) : Noted (Option TextStyle) :=
  match source.fontFamily, source.fontWeight, source.fontSize with
  | some family, some weight, some size => do
      let height ← lineHeight id source
      let horizontal ←
        keyword id "textAlignHorizontal" alignHorizontal? .left source.alignHorizontal
      let vertical ← keyword id "textAlignVertical" alignVertical? .top source.alignVertical
      let case ← keyword id "textCase" textCase? .asTyped source.case
      let decoration ← keyword id "textDecoration" textDecoration? .none source.decoration
      return some ⟨family, weight, size, height.getD .normal, source.letterSpacing.getD 0,
        source.italic.getD false, horizontal, vertical, case, decoration⟩
  | _, _, _ => do
      fail id ("text style missing required field(s): " ++
        String.intercalate ", " (missingFontFields source))
      return none

/-- A keyword that a style may leave out. -/
def optionalKeyword {α : Type} (id field : String) (ofTag? : String → Option α) (default : α) :
    Option String → Noted (Option α)
  | none => .clean none
  | some tag => do return some (← keyword id field ofTag? default (some tag))

/-- The fills that a style may leave out. -/
def optionalFills (id : String) : Option (List PaintSource) → Noted (Option (List Paint))
  | none => .clean none
  | some sources => do return some (← paints id "styleOverrideTable.fills" sources)

/-- An overriding style of a text. -/
def styleOverride (id : String) (source : StyleSource) : Noted StyleOverride := do
  let case ← optionalKeyword id "textCase" textCase? .asTyped source.case
  let decoration ← optionalKeyword id "textDecoration" textDecoration? .none source.decoration
  let height ← lineHeight id source
  let fills ← optionalFills id source.fills
  return ⟨source.fontFamily, source.fontWeight, source.fontSize, height, source.letterSpacing,
    source.italic, case, decoration, fills⟩

/-- The id that a key stands for: decimal digits, with a plus sign before them or not, below
`2 ^ 32`. -/
def styleId? (key : String) : Option Nat :=
  let digits := match key.toList with
    | '+' :: rest => rest
    | cs => cs
  if digits.isEmpty || !digits.all Char.isDigit then none
  else
    let n := Nat.ofDigitChars 10 digits 0
    if n < 0x100000000 then some n else none

/-- The overriding styles of a text, in the order of their keys, added to those of `table`. -/
def overrideTable (id : String) (table : OverrideTable) :
    List (String × StyleSource) → Noted OverrideTable
  | [] => .clean table
  | (key, source) :: rest =>
      match styleId? key with
      | some n => do
          let own ← styleOverride id source
          overrideTable id (table.insert n own) rest
      | none => do
          fail id ("style override table key `" ++ key ++ "` is not a numeric id")
          overrideTable id table rest

/-- The style ids of single characters, of which there are no more than characters. -/
def characterStyles (id : String) (length : Nat) (given : List Nat) : Noted (List Nat) :=
  if length < given.length then do
    .note (.info id ("characterStyleOverrides has " ++ toString given.length ++ " entries for " ++
      toString length ++ " characters; extra entries ignored"))
    return given.take length
  else .clean given

/-- A range of characters within a text of a given length. -/
def styleRange (id : String) (length : Nat) (range : StyleRange) : Noted (Option StyleRange) :=
  if range.stop < range.start then do
    fail id ("style override range " ++ toString range.start ++ ".." ++ toString range.stop ++
      " has start after end")
    return none
  else
    .clean (some ⟨Nat.min range.start length, Nat.min range.stop length, range.styleId⟩)

/-- `ids` with `id` in its place, for increasing `ids`. -/
def insertIncreasing (id : Nat) : List Nat → List Nat
  | [] => [id]
  | n :: rest =>
      if n < id then n :: insertIncreasing id rest
      else if n = id then n :: rest
      else id :: n :: rest

/-- The ids that are used and have no style, each once, in increasing order. -/
def missingStyles (table : OverrideTable) (used : List Nat) : List Nat :=
  (used.filter fun id => id != 0 && !table.has id).foldr insertIncreasing []

/-- Remarks on ids without a style. -/
def remarkMissing (id : String) (ids : List Nat) : Noted Unit :=
  ⟨(), ids.map fun n => .warning id
    ("style override id " ++ toString n ++ " not found in table, base style used")⟩

/-- The characters and the base style of a text, which must be there. -/
def textBase (id : String) (source : NodeSource) : Noted (Option (String × TextStyle)) :=
  match source.characters, source.style with
  | none, _ => do
      fail id "text node missing required field `characters`"
      return none
  | some _, none => do
      fail id "text node missing required field `style`"
      return none
  | some characters, some style => do
      return (← baseStyle id style).map fun style => (characters, style)

/-- The text of a text node. -/
def textBlock (id : String) (source : NodeSource) : Noted (Option TextBlock) := do
  match ← textBase id source with
  | none => return none
  | some (characters, style) =>
      let table ← overrideTable id [] source.overrides
      let length := characters.toList.length
      let own ← characterStyles id length source.characterStyles
      let ranges ← Noted.some (styleRange id length) source.ranges
      remarkMissing id (missingStyles table (own ++ ranges.map (·.styleId)))
      return some ⟨characters, style, own, table, ranges⟩

/-! ## Layers -/

/-- The classes of nodes that are understood. -/
inductive NodeClass where
  | frame
  | instanceOf
  | text
  | shape (kind : ShapeKind)
  deriving DecidableEq, Repr, Inhabited

/-- The class of a type, if it is understood. -/
def NodeClass.ofTag? (tag : String) : Option NodeClass :=
  match tag with
  | "FRAME" => some .frame
  | "GROUP" => some .frame
  | "COMPONENT" => some .frame
  | "COMPONENT_SET" => some .frame
  | "SECTION" => some .frame
  | "INSTANCE" => some .instanceOf
  | "TEXT" => some .text
  | _ => (ShapeKind.ofTag? tag).map .shape

/-- What a node is. -/
def nodeKind (id : String) (source : NodeSource) : NodeClass → Noted (Option NodeKind)
  | .frame => do return some (.frame (← frame id source))
  | .instanceOf => do return some (.instanceOf source.componentId (← frame id source))
  | .text => do return (← textBlock id source).map .text
  | .shape kind => do return some (.shape ⟨kind, ← cornerRadius id source⟩)

/-- The layer of a node whose fields could be read; there is none for a text without characters
or style. -/
def layer (id : String) (nodeClass : NodeClass) (source : NodeSource) : Noted (Option Layer) := do
  let box ← bounds id source.bounds
  match ← nodeKind id source nodeClass with
  | none => return none
  | some kind =>
      let blendMode ← keyword id "blendMode" BlendMode.ofTag? .passThrough source.blendMode
      let fills ← paints id "fills" source.fills
      let strokes ← paints id "strokes" source.strokes
      return some ⟨id, source.name, box.getD .zero, source.opacity.getD 1,
        source.visible.getD true, blendMode, fills, strokes, source.strokeWeight.getD 1,
        source.effects.map effect, source.layoutGrow.getD 0, kind⟩

/-- A length that is positive, or zero. -/
def positivePart (x : Float) : Float := if 0 < x then x else 0

/-- The box of a node that is not understood: no side is negative. -/
def placeholderBounds (fields : Json.Fields) : Rect :=
  match (fields.get? "absoluteBoundingBox").map rectSchema.decode with
  | some (.ok r) => ⟨r.x, r.y, positivePart r.width, positivePart r.height⟩
  | _ => .zero

/-- The layer of a node of a type that is not understood. -/
def placeholder (id tag : String) (fields : Json.Fields) : Layer :=
  { Layer.ofKind id (.placeholder tag) with
    name := ((fields.get? "name").bind Json.Value.text?).getD ""
    visible := ((fields.get? "visible").bind Json.Value.bool?).getD true
    bounds := placeholderBounds fields }

end SceneMarkup.Document
