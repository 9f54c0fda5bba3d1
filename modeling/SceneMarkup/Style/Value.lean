/-
  SceneMarkup/Style/Value.lean --- the values of style declarations: lengths, shares,
  angles, boxes of four lengths, and quoted names.
-/
import SceneMarkup.Scene.Node

set_option autoImplicit false

namespace SceneMarkup.Style

/-- A length in pixels. -/
def px (value : Float) : String := Decimal.numberText value ++ "px"

/-- A share of one as a percentage: `0.25` is `25%`. -/
def percent (fraction : Float) : String := Decimal.numberText (fraction * 100) ++ "%"

/-- An angle in degrees. -/
def deg (angle : Float) : String := Decimal.numberText angle ++ "deg"

/-- Four lengths. -/
def fourPx (a b c d : Float) : String := px a ++ " " ++ px b ++ " " ++ px c ++ " " ++ px d

/-- The padding of a box; one length stands for four equal ones. -/
def padding (p : Padding) : String :=
  if p.isUniform then px p.top else fourPx p.top p.right p.bottom p.left

/-- The radius of a box, from the top left corner on. -/
def radius : CornerRadius → String
  | .uniform r => px r
  | .perCorner a b c d => fourPx a b c d

/-- A character of a quoted name: a backslash stands before backslashes and quotes. -/
def quotedChar (c : Char) : List Char :=
  if c = '\\' then ['\\', '\\'] else if c = '"' then ['\\', '"'] else [c]

/-- A name in quotes. -/
def quoted (name : String) : String :=
  String.ofList ('"' :: (name.toList.flatMap quotedChar ++ ['"']))

/-- A character of an address in quotes: a quote is written as its code. -/
def addressChar (c : Char) : List Char := if c = '"' then ['%', '2', '2'] else [c]

/-- The image at an address. -/
def url (address : String) : String :=
  String.ofList ("url(\"".toList ++ address.toList.flatMap addressChar ++ "\")".toList)

end SceneMarkup.Style
