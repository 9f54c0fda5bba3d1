/-
  SceneMarkup/Scene/Color.lean --- colors, and laying one over another.

  WHAT THIS FILE IS FOR.  A color has four channels that are not multiplied by the
  alpha.  Compositing is written once, over any type of channel with the four
  operations and an order, so that it can be run on floats and discussed on exact
  rationals.
-/
import SceneMarkup.Decimal.Hundredths

set_option autoImplicit false

namespace SceneMarkup

/-- A color with channels in `α`; those of a document lie between zero and one. -/
structure Rgba (α : Type) where
  r : α
  g : α
  b : α
  a : α
  deriving DecidableEq, Repr, Inhabited

/-- A color of a scene. -/
abbrev Color : Type := Rgba Float

/-! ## Compositing -/

section Compositing

variable {α : Type} [Add α] [Sub α] [Mul α] [Div α] [LT α] [LE α] [DecidableLT α] [DecidableLE α]
  [OfNat α 0] [OfNat α 1]

/-- `x` moved into the unit interval; what compares with nothing is kept. -/
def clampUnit (x : α) : α := if x < 0 then 0 else if 1 < x then 1 else x

/-- No color at all. -/
def Rgba.transparent : Rgba α := ⟨0, 0, 0, 0⟩

/-- `c` with its alpha multiplied by `opacity`. -/
def Rgba.withOpacity (c : Rgba α) (opacity : α) : Rgba α :=
  { c with a := clampUnit (c.a * opacity) }

/-- `top` laid onto `below`. -/
def Rgba.onto (top below : Rgba α) : Rgba α :=
  let ta := clampUnit top.a
  let ba := clampUnit below.a
  let alpha := ta + ba * (1 - ta)
  if alpha ≤ 0 then .transparent
  else
    let channel (t b : α) : α := (t * ta + b * ba * (1 - ta)) / alpha
    ⟨channel top.r below.r, channel top.g below.g, channel top.b below.b, alpha⟩

/-- Colors laid over each other, the first at the bottom. -/
def Rgba.composite (colors : List (Rgba α)) : Rgba α :=
  colors.foldl (fun below c => c.onto below) .transparent

end Compositing

/-! ## Text -/

namespace Color

/-- The opaque color with the given channels. -/
def rgb (r g b : Float) : Color := ⟨r, g, b, 1⟩

/-- Opaque black. -/
def black : Color := rgb 0 0 0

end Color

namespace Rgba

/-- A channel as a byte; the largest byte stands for all that is larger. -/
def byteOf (channel : Float) : Nat := Nat.min 255 (Decimal.nearestNat (clampUnit channel * 255))

/-- The channels as bytes: red, green, blue and alpha. -/
def bytes (c : Color) : Nat × Nat × Nat × Nat :=
  (byteOf c.r, byteOf c.g, byteOf c.b, byteOf c.a)

/-- A hexadecimal digit, in upper case. -/
def hexDigit (n : Nat) : Char := if n < 10 then Char.ofNat (48 + n) else Char.ofNat (55 + n)

/-- A byte as two hexadecimal digits. -/
def hexByte (n : Nat) : List Char := [hexDigit (n / 16), hexDigit (n % 16)]

/-- The six digits of the color after a number sign; the alpha is left out. -/
def hex (c : Color) : String :=
  String.ofList ('#' :: (hexByte (byteOf c.r) ++ hexByte (byteOf c.g) ++ hexByte (byteOf c.b)))

/-- The color as a style value: six digits when it is opaque to a hundredth. -/
def css (c : Color) : String :=
  let alpha := Decimal.roundHundredth (clampUnit c.a)
  if 1 ≤ alpha then hex c
  else
    "rgba(" ++ toString (byteOf c.r) ++ ", " ++ toString (byteOf c.g) ++ ", " ++
      toString (byteOf c.b) ++ ", " ++ Decimal.numberText alpha ++ ")"

end Rgba

end SceneMarkup
