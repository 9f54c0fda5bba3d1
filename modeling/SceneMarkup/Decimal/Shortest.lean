/-
  SceneMarkup/Decimal/Shortest.lean --- the fewest decimal digits that read back as
  a given float, and the two layouts in which they are written.

  WHAT THIS FILE IS FOR.  A size in a message and a number in a JSON text are written
  with the fewest digits that still denote the same float.  `Finite.readsBack` is the
  condition, `Finite.shortest` searches for the first length at which it can be met.
-/
import SceneMarkup.Decimal.Exact

set_option autoImplicit false

namespace SceneMarkup.Decimal

/-- A positive finite value `mantissa * 2 ^ exponent`, as a float stores it. -/
structure Finite where
  mantissa : Nat
  exponent : Int
  deriving DecidableEq, Repr, Inhabited

/-- A decimal number `digits * 10 ^ exponent`. -/
structure Scientific where
  digits : Nat
  exponent : Int
  deriving DecidableEq, Repr, Inhabited

/-- Compares `d` with `n * 2 ^ q`, exactly. -/
def Scientific.compareBinary (d : Scientific) (n : Nat) (q : Int) : Ordering :=
  compare (d.digits * Nat.pow 10 d.exponent.toNat * Nat.pow 2 (-q).toNat)
    (n * Nat.pow 2 q.toNat * Nat.pow 10 (-d.exponent).toNat)

/-- Whether the gap to the next smaller float is half the gap to the next larger one. -/
def Finite.narrowBelow (x : Finite) : Bool :=
  x.mantissa == hiddenOne && decide (-1074 < x.exponent)

/-- Whether `d` lies among the reals that round to `x`: between the two halfway points to the
neighbours of `x`, which belong to `x` when its mantissa is even. -/
def Finite.readsBack (x : Finite) (d : Scientific) : Bool :=
  let below := if x.narrowBelow then 4 * x.mantissa - 1 else 4 * x.mantissa - 2
  let above := 4 * x.mantissa + 2
  let ends := x.mantissa % 2 == 0
  let low := d.compareBinary below (x.exponent - 2)
  let high := d.compareBinary above (x.exponent - 2)
  (low == .gt || (ends && low == .eq)) && (high == .lt || (ends && high == .eq))

/-- The decimal exponent of the leading digit of `x`. The offset makes the scaled value of the
least float exceed one. -/
def Finite.leading (x : Finite) : Int :=
  let scaledUp :=
    x.mantissa * Nat.pow 10 350 * Nat.pow 2 x.exponent.toNat / Nat.pow 2 (-x.exponent).toNat
  ((Nat.toDigits 10 scaledUp).length : Int) - 351

/-- The number of steps of `10 ^ k` in `x`, rounded down. -/
def Finite.steps (x : Finite) (k : Int) : Nat :=
  x.mantissa * Nat.pow 2 x.exponent.toNat * Nat.pow 10 (-k).toNat /
    (Nat.pow 2 (-x.exponent).toNat * Nat.pow 10 k.toNat)

/-- Whether twice `x` lies below `(2 n + 1) * 10 ^ k`, at it or above it. -/
def Finite.compareMiddle (x : Finite) (n : Nat) (k : Int) : Ordering :=
  (Scientific.mk (2 * n + 1) k).compareBinary (2 * x.mantissa) x.exponent |>.swap

/-- The decimal with `count` digits nearest to `x` that reads back as `x`, if there is one; `tie`
chooses between two that are equally near. -/
def Finite.withDigits? (tie : Tie) (x : Finite) (count : Nat) : Option Scientific :=
  let k := x.leading - count + 1
  let n := x.steps k
  let low := x.readsBack ⟨n, k⟩
  let high := x.readsBack ⟨n + 1, k⟩
  match low, high with
  | false, false => none
  | true, false => some ⟨n, k⟩
  | false, true => some ⟨n + 1, k⟩
  | true, true =>
      match x.compareMiddle n k with
      | .lt => some ⟨n, k⟩
      | .gt => some ⟨n + 1, k⟩
      | .eq => match tie with
          | .away => some ⟨n + 1, k⟩
          | .even => some (if n % 2 = 0 then ⟨n, k⟩ else ⟨n + 1, k⟩)

/-- The decimal with the fewest digits that reads back as `x`; seventeen always suffice. -/
def Finite.shortest (tie : Tie) (x : Finite) : Scientific :=
  ((List.range 17).findSome? fun i => x.withDigits? tie (i + 1)).getD ⟨x.steps (-1074), -1074⟩

/-! ## Layouts -/

/-- The digits of `d` without zeros at the end, and the power of ten of the last of them. -/
def Scientific.trimmed (d : Scientific) : List Char × Int :=
  let all := Nat.toDigits 10 d.digits
  let kept := (all.reverse.dropWhile (· == '0')).reverse
  (kept, d.exponent + (all.length - kept.length : Nat))

/-- Digits with a point and no exponent: `ds * 10 ^ k`. -/
def positional (ds : List Char) (k : Int) : List Char :=
  if 0 ≤ k then ds ++ List.replicate k.toNat '0'
  else
    let after := (-k).toNat
    if after < ds.length then
      ds.take (ds.length - after) ++ '.' :: ds.drop (ds.length - after)
    else '0' :: '.' :: (List.replicate (after - ds.length) '0' ++ ds)

/-- `cs` with `.0` after it unless it has a point already. -/
def withPoint (cs : List Char) : List Char :=
  if cs.contains '.' then cs else cs ++ ['.', '0']

/-- One digit, the others after a point, and an exponent, which always has a sign. -/
def exponential (ds : List Char) (k : Int) : List Char :=
  let power : Int := k + ds.length - 1
  let mark := 'e' :: (if power < 0 then '-' else '+') :: Nat.toDigits 10 power.natAbs
  match ds with
  | [] => mark
  | [d] => d :: mark
  | d :: rest => d :: '.' :: rest ++ mark

/-- How the shortest digits of a float become its text. -/
structure Layout where
  /-- which of two equally near decimals is taken -/
  tie : Tie
  /-- the text of zero -/
  zero : List Char
  /-- the text of digits times a power of ten -/
  body : List Char → Int → List Char

/-- The text of `x` in a given layout of its shortest digits. -/
def Layout.text (layout : Layout) (x : Float) : String :=
  match Exact.ofFloat x with
  | .finite negative m e =>
      let body := if m = 0 then layout.zero else
        let (ds, k) := ((Finite.mk m e).shortest layout.tie).trimmed
        layout.body ds k
      String.ofList ((if negative then ['-'] else []) ++ body)
  | other => other.special?.getD ""

/-- Sizes in messages have no exponent and, when whole, no point; of two equally near decimals
the larger is taken. -/
def sizeLayout : Layout := ⟨.away, ['0'], positional⟩

/-- Numbers of a JSON text are positional for a leading digit between the fifth place after the
point and the sixteenth place before it, and always a float's spelling; of two equally near
decimals the even one is taken. -/
def jsonLayout : Layout :=
  ⟨.even, ['0', '.', '0'], fun ds k =>
    let size : Int := k + ds.length
    if -5 < size ∧ size ≤ 16 then withPoint (positional ds k) else exponential ds k⟩

/-- The shortest text of `x` without an exponent; a whole number has no point. -/
def plain (x : Float) : String := sizeLayout.text x

/-- The text of `x` as a JSON number. -/
def json (x : Float) : String := jsonLayout.text x

end SceneMarkup.Decimal
