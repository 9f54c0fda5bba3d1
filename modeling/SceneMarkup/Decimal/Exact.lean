/-
  SceneMarkup/Decimal/Exact.lean --- the exact value of a binary floating-point
  number, and its text with a fixed number of decimal places.

  WHAT THIS FILE IS FOR.  Every number that reaches a stylesheet is rounded and
  written in decimal.  Nothing here rounds twice: a float is decoded from its bits
  into `mantissa * 2 ^ exponent`, and one integer division decides the digits.
-/
set_option autoImplicit false

namespace SceneMarkup.Decimal

/-! ## Rounding a quotient -/

/-- Which way a quotient goes that lies halfway between two integers. -/
inductive Tie where
  /-- away from zero -/
  | away
  /-- to the even neighbour -/
  | even
  deriving DecidableEq, Repr, Inhabited

/-- The integer nearest to `n / d`. -/
def roundDiv (tie : Tie) (n d : Nat) : Nat :=
  let q := n / d
  let r := n % d
  if 2 * r < d then q
  else if d < 2 * r then q + 1
  else match tie with
    | .away => q + 1
    | .even => if q % 2 = 0 then q else q + 1

/-! ## What a float stands for -/

/-- The value of a 64-bit float: a finite one is `± mantissa * 2 ^ exponent`. -/
inductive Exact where
  | nan
  | infinite (negative : Bool)
  | finite (negative : Bool) (mantissa : Nat) (exponent : Int)
  deriving DecidableEq, Repr, Inhabited

/-- The weight of the leading one that a float of full precision does not store. -/
def hiddenOne : Nat := 0x10000000000000

/-- The value that the bits of `x` encode: one sign bit, eleven exponent bits, and
fifty-two fraction bits, with a hidden leading one unless the exponent bits are zero. -/
def Exact.ofFloat (x : Float) : Exact :=
  let bits : Nat := x.toBits.toNat
  let negative := bits / 0x8000000000000000 == 1
  let biased : Nat := bits / hiddenOne % 2048
  let fraction : Nat := bits % hiddenOne
  if biased = 2047 then
    if fraction = 0 then .infinite negative else .nan
  else if biased = 0 then .finite negative fraction (-1074)
  else .finite negative (hiddenOne + fraction) ((biased : Int) - 1075)

/-- The integer nearest to `mantissa * 2 ^ exponent * 10 ^ places`. -/
def scaled (tie : Tie) (places mantissa : Nat) (exponent : Int) : Nat :=
  match exponent with
  | .ofNat k => mantissa * Nat.pow 2 k * Nat.pow 10 places
  | .negSucc k => roundDiv tie (mantissa * Nat.pow 10 places) (Nat.pow 2 (k + 1))

/-! ## Fixed places -/

/-- The digits of `n`, with leading zeros up to `width` digits. -/
def padded (width n : Nat) : List Char :=
  let digits := Nat.toDigits 10 n
  List.replicate (width - digits.length) '0' ++ digits

/-- The text of `± n / 10 ^ places`: sign, integer part, a point and all the places. -/
def fixedText (negative : Bool) (places n : Nat) : List Char :=
  (if negative then ['-'] else []) ++
    (Nat.toDigits 10 (n / Nat.pow 10 places) ++ '.' :: padded places (n % Nat.pow 10 places))

/-- The text of a value that is not finite. -/
def Exact.special? : Exact → Option String
  | .nan => some "NaN"
  | .infinite true => some "-inf"
  | .infinite false => some "inf"
  | .finite .. => none

/-- The text of `x` with a fixed number of places; a half goes to the even digit, and a
negative zero keeps its sign. -/
def fixed (places : Nat) (x : Float) : String :=
  match Exact.ofFloat x with
  | .finite negative m e => String.ofList (fixedText negative places (scaled .even places m e))
  | other => other.special?.getD ""

/-! ## Whole numbers -/

/-- The float nearest to `± n`. -/
def ofSigned (negative : Bool) (n : Nat) : Float :=
  if negative then - Float.ofNat n else Float.ofNat n

/-- `x` rounded to a whole number, a half away from zero. -/
def roundWhole (x : Float) : Float :=
  match Exact.ofFloat x with
  | .finite negative m (.negSucc k) => ofSigned negative (scaled .away 0 m (.negSucc k))
  | _ => x

/-- The natural number nearest to `x`, a half upwards; zero for what is negative or no number. -/
def nearestNat (x : Float) : Nat :=
  match Exact.ofFloat x with
  | .finite false m e => scaled .away 0 m e
  | _ => 0

end SceneMarkup.Decimal
