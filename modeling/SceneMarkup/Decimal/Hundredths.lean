/-
  SceneMarkup/Decimal/Hundredths.lean --- numbers as a stylesheet shows them:
  rounded to a hundredth, with no zero at the end of the fraction.

  WHAT THIS FILE IS FOR.  `hundredthsText` is the one printer of stylesheet numbers.
  It takes an integer number of hundredths, so what it writes can be discussed
  without any floating-point arithmetic; `numberText` rounds a float and hands over
  the hundredths.
-/
import SceneMarkup.Decimal.Exact

set_option autoImplicit false

namespace SceneMarkup.Decimal

/-- `cs` without the longest end on which `p` holds. -/
def dropEndWhile (p : Char → Bool) (cs : List Char) : List Char :=
  (cs.reverse.dropWhile p).reverse

/-- `cs` without the zeros at its end, and then without the points at its end. -/
def trimFraction (cs : List Char) : List Char :=
  dropEndWhile (· == '.') (dropEndWhile (· == '0') cs)

/-- The text of `h / 100`: two places, less the zeros that end them. -/
def hundredthsText (h : Int) : List Char :=
  trimFraction (fixedText (decide (h < 0)) 2 h.natAbs)

/-- `x` rounded to the nearest hundredth; a zero has no sign. -/
def roundHundredth (x : Float) : Float :=
  let rounded := roundWhole (x * 100) / 100
  if rounded == 0 then 0 else rounded

/-- A signed count of hundredths. -/
def signedHundredths (negative : Bool) (n : Nat) : Int :=
  if negative then - (n : Int) else n

/-- The text of `x` in a stylesheet: rounded to a hundredth, such as `12.5`, `16` or `0.33`. -/
def numberText (x : Float) : String :=
  match Exact.ofFloat (roundHundredth x) with
  | .finite negative m e =>
      String.ofList (hundredthsText (signedHundredths negative (scaled .even 2 m e)))
  | other => other.special?.getD ""

end SceneMarkup.Decimal
