/-
  SceneMarkup/Json/Reader.lean --- JSON text to JSON values, with the position of
  the first fault.

  WHAT THIS FILE IS FOR.  A reader is a step: it takes characters off the front of
  the text and hands the rest back.  A fault records what is wrong and the text that
  was left when it was noticed; the position in bytes, the line and the column are
  worked out once, at the end, from how much text was left.

  NUMBERS.  A number without fraction and exponent is an integer as long as it fits
  in 64 bits.  The digits of a float form a significand of at most 64 bits, further
  digits being dropped, which is multiplied or divided once by a power of ten.
-/
import SceneMarkup.Json.Value

set_option autoImplicit false

namespace SceneMarkup.Json

/-! ## Faults -/

/-- What is wrong with a text. -/
inductive Cause where
  | endOfValue
  | endOfList
  | endOfObject
  | endOfString
  | expectedValue
  | expectedIdent
  | expectedColon
  | expectedListMark
  | expectedObjectMark
  | trailingComma
  | trailingCharacters
  | keyNotString
  | invalidNumber
  | numberOutOfRange
  | invalidEscape
  | controlCharacter
  | loneSurrogate
  | endOfHexEscape
  | nestingTooDeep
  deriving DecidableEq, Repr, Inhabited

/-- The wording of a cause. -/
def Cause.message : Cause → String
  | .endOfValue => "EOF while parsing a value"
  | .endOfList => "EOF while parsing a list"
  | .endOfObject => "EOF while parsing an object"
  | .endOfString => "EOF while parsing a string"
  | .expectedValue => "expected value"
  | .expectedIdent => "expected ident"
  | .expectedColon => "expected `:`"
  | .expectedListMark => "expected `,` or `]`"
  | .expectedObjectMark => "expected `,` or `\x7d`"
  | .trailingComma => "trailing comma"
  | .trailingCharacters => "trailing characters"
  | .keyNotString => "key must be a string"
  | .invalidNumber => "invalid number"
  | .numberOutOfRange => "number out of range"
  | .invalidEscape => "invalid escape"
  | .controlCharacter => "control character (\\u0000-\\u001F) found while parsing a string"
  | .loneSurrogate => "lone leading surrogate in hex escape"
  | .endOfHexEscape => "unexpected end of hex escape"
  | .nestingTooDeep => "recursion limit exceeded"

/-- A fault: its cause, the text left when it was noticed, and how many bytes of that text
belong to it. -/
structure Fault where
  cause : Cause
  rest : List Char
  past : Nat
  deriving DecidableEq, Repr, Inhabited

/-- A step takes characters off the front of a text. -/
abbrev Step (α : Type) : Type := List Char → Except Fault (α × List Char)

/-- A fault after all that was taken off. -/
def after {α : Type} (cause : Cause) (rest : List Char) : Except Fault α :=
  .error ⟨cause, rest, 0⟩

/-- A fault at the next byte, which the fault includes. -/
def peeked {α : Type} (cause : Cause) (rest : List Char) : Except Fault α :=
  .error ⟨cause, rest, 1⟩

/-- The number of bytes that a text takes. -/
def byteSize (cs : List Char) : Nat := cs.foldr (fun c n => c.utf8Size + n) 0

/-- The rest after blanks: spaces, tabs, line feeds and carriage returns. -/
def skipBlank (cs : List Char) : List Char :=
  cs.dropWhile fun c => c == ' ' || c == '\n' || c == '\t' || c == '\r'

/-! ## Numbers -/

/-- The value of a decimal digit. -/
def digitValue (c : Char) : Nat := c.toNat - 48

/-- The largest integer that a number without fraction and exponent may have. -/
def maxInteger : Nat := 0xFFFFFFFFFFFFFFFF

/-- Adds digits to a significand while it fits in 64 bits: the significand, how many digits it
took, and the rest. -/
def significand (sig count : Nat) : List Char → Nat × Nat × List Char
  | [] => (sig, count, [])
  | c :: cs =>
      if c.isDigit && decide (sig * 10 + digitValue c ≤ maxInteger) then
        significand (sig * 10 + digitValue c) (count + 1) cs
      else (sig, count, c :: cs)

/-- Whether a digit comes next. -/
def digitNext : List Char → Bool
  | c :: _ => c.isDigit
  | [] => false

/-- `f * 10 ^ e` by one multiplication or division; below the range of the powers of ten `f` is
divided by the largest one first. There is none if the result is infinite. -/
def scaleByTen (f : Float) (e : Int) : Option Float :=
  if 0 ≤ e then
    if e ≤ 308 then
      let g := f * Float.ofScientific 1 false e.toNat
      if g.isInf then none else some g
    else if f == 0 then some f else none
  else if -308 ≤ e then some (f / Float.ofScientific 1 false e.natAbs)
  else if f == 0 then some f
  else scaleByTen (f / Float.ofScientific 1 false 308) (e + 308)
termination_by e.natAbs
decreasing_by omega

/-- The float `± sig * 10 ^ e`. -/
def floatOf (negative : Bool) (sig : Nat) (e : Int) (rest : List Char) :
    Except Fault (Number × List Char) :=
  match scaleByTen (Float.ofNat sig) e with
  | none => after .numberOutOfRange rest
  | some f => .ok (.float (if negative then -f else f), rest)

/-- The digits of an exponent, or none where the exponent exceeds 31 bits; then the rest begins
after the digit that made it too large. -/
def exponentDigits (e : Nat) : List Char → Option Nat × List Char
  | [] => (some e, [])
  | c :: cs =>
      if c.isDigit then
        if e * 10 + digitValue c ≤ 0x7FFFFFFF then exponentDigits (e * 10 + digitValue c) cs
        else (none, cs)
      else (some e, c :: cs)

/-- The sign of an exponent: whether it is negative, and the rest. -/
def exponentSign : List Char → Bool × List Char
  | '+' :: cs => (false, cs)
  | '-' :: cs => (true, cs)
  | cs => (false, cs)

/-- The exponent of a float, after its `e`. -/
def exponentPart (negative : Bool) (sig : Nat) (base : Int) (cs : List Char) :
    Except Fault (Number × List Char) :=
  let (down, digits) := exponentSign cs
  match digits with
  | [] => after .endOfValue []
  | c :: rest =>
      if !c.isDigit then peeked .invalidNumber (c :: rest)
      else match exponentDigits (digitValue c) rest with
        | (some e, rest) => floatOf negative sig (if down then base - e else base + e) rest
        | (none, rest) =>
            if sig != 0 && !down then after .numberOutOfRange rest
            else .ok (.float (if negative then -0.0 else 0.0), rest.dropWhile Char.isDigit)

/-- What may follow the digits of a float: an exponent, or nothing. -/
def floatEnd (negative : Bool) (sig : Nat) (base : Int) : List Char →
    Except Fault (Number × List Char)
  | 'e' :: cs => exponentPart negative sig base cs
  | 'E' :: cs => exponentPart negative sig base cs
  | cs => floatOf negative sig base cs

/-- The fraction of a float, after its point. -/
def fractionPart (negative : Bool) (sig : Nat) (base : Int) (cs : List Char) :
    Except Fault (Number × List Char) :=
  let (sig, count, rest) := significand sig 0 cs
  if digitNext rest then floatEnd negative sig (base - count) (rest.dropWhile Char.isDigit)
  else if count = 0 then
    if rest.isEmpty then after .endOfValue [] else peeked .invalidNumber rest
  else floatEnd negative sig (base - count) rest

/-- An integer without fraction and exponent; a negative one of more than 63 bits, and a
negative zero, are floats. -/
def integerOf (negative : Bool) (sig : Nat) : Number :=
  if negative then
    if sig = 0 ∨ 0x8000000000000000 < sig then .float (- Float.ofNat sig)
    else .integer (- (sig : Int))
  else .integer sig

/-- A number whose integer part is complete. -/
def numberEnd (negative : Bool) (sig : Nat) : List Char → Except Fault (Number × List Char)
  | '.' :: cs => fractionPart negative sig 0 cs
  | 'e' :: cs => exponentPart negative sig 0 cs
  | 'E' :: cs => exponentPart negative sig 0 cs
  | cs => .ok (integerOf negative sig, cs)

/-- A number whose integer part has digits that do not fit. -/
def longNumber (negative : Bool) (sig : Nat) (cs : List Char) : Except Fault (Number × List Char) :=
  let dropped := (cs.takeWhile Char.isDigit).length
  match cs.dropWhile Char.isDigit with
  | '.' :: rest => fractionPart negative sig dropped rest
  | rest => floatEnd negative sig dropped rest

/-- A number, after its sign. -/
def unsigned (negative : Bool) : List Char → Except Fault (Number × List Char)
  | [] => after .endOfValue []
  | c :: cs =>
      if c == '0' then
        if digitNext cs then peeked .invalidNumber cs else numberEnd negative 0 cs
      else if c.isDigit then
        let (sig, _, rest) := significand (digitValue c) 0 cs
        if digitNext rest then longNumber negative sig rest else numberEnd negative sig rest
      else peeked .invalidNumber (c :: cs)

/-! ## Strings -/

/-- The character that a backslash and `c` stand for. -/
def simpleEscape? (c : Char) : Option Char :=
  match c with
  | '"' => some '"'
  | '\\' => some '\\'
  | '/' => some '/'
  | 'b' => some '\x08'
  | 'f' => some '\x0c'
  | 'n' => some '\n'
  | 'r' => some '\r'
  | 't' => some '\t'
  | _ => none

/-- The value of a hexadecimal digit. -/
def hexValue? (c : Char) : Option Nat :=
  if c.isDigit then some (c.toNat - 48)
  else if 'a' ≤ c ∧ c ≤ 'f' then some (c.toNat - 87)
  else if 'A' ≤ c ∧ c ≤ 'F' then some (c.toNat - 55)
  else none

/-- The value of four hexadecimal digits. -/
def hexQuad? (a b c d : Char) : Option Nat := do
  let a ← hexValue? a
  let b ← hexValue? b
  let c ← hexValue? c
  let d ← hexValue? d
  return ((a * 16 + b) * 16 + c) * 16 + d

/-- Whether `n` is the first half of a pair that stands for one character. -/
def isHighHalf (n : Nat) : Bool := decide (0xD800 ≤ n ∧ n ≤ 0xDBFF)

/-- Whether `n` is the second half of a pair that stands for one character. -/
def isLowHalf (n : Nat) : Bool := decide (0xDC00 ≤ n ∧ n ≤ 0xDFFF)

/-- The character that two halves stand for. -/
def pairChar (high low : Nat) : Char :=
  Char.ofNat (0x10000 + (high - 0xD800) * 0x400 + (low - 0xDC00))

/-- What is wrong after the first half of a pair when no second half follows. -/
def missingHalf : List Char → Fault
  | [] => ⟨.endOfString, [], 0⟩
  | '\\' :: [] => ⟨.endOfString, [], 0⟩
  | '\\' :: 'u' :: rest =>
      if byteSize rest < 4 then ⟨.endOfString, [], 0⟩ else ⟨.invalidEscape, rest, 4⟩
  | '\\' :: rest => ⟨.endOfHexEscape, rest, 1⟩
  | rest => ⟨.endOfHexEscape, rest, 1⟩

/-- The characters of a string up to its closing quote, behind those already read in reverse. -/
def stringBody (done : List Char) : List Char → Except Fault (List Char × List Char)
  | [] => after .endOfString []
  | '"' :: rest => .ok (done.reverse, rest)
  | '\\' :: [] => after .endOfString []
  | '\\' :: 'u' :: a :: b :: c :: d :: rest =>
      match hexQuad? a b c d with
      | none => .error ⟨.invalidEscape, a :: b :: c :: d :: rest, 4⟩
      | some n =>
          if isLowHalf n then after .loneSurrogate rest
          else if !isHighHalf n then stringBody (Char.ofNat n :: done) rest
          else match rest with
            | '\\' :: 'u' :: e :: f :: g :: h :: rest =>
                match hexQuad? e f g h with
                | none => .error ⟨.invalidEscape, e :: f :: g :: h :: rest, 4⟩
                | some m =>
                    if isLowHalf m then stringBody (pairChar n m :: done) rest
                    else after .loneSurrogate rest
            | rest => .error (missingHalf rest)
  | '\\' :: 'u' :: rest =>
      if byteSize rest < 4 then after .endOfString [] else .error ⟨.invalidEscape, rest, 4⟩
  | '\\' :: c :: rest =>
      match simpleEscape? c with
      | some e => stringBody (e :: done) rest
      | none => peeked .invalidEscape (c :: rest)
  | c :: rest =>
      if c.toNat < 0x20 then peeked .controlCharacter (c :: rest)
      else stringBody (c :: done) rest

/-! ## Values -/

/-- Takes the letters of a word off the front. -/
def word (value : Value) : List Char → List Char → Except Fault (Value × List Char)
  | [], cs => .ok (value, cs)
  | _ :: _, [] => after .endOfValue []
  | w :: ws, c :: cs => if c = w then word value ws cs else peeked .expectedIdent (c :: cs)

/-- The items of a list after its bracket, behind those already read in reverse. `fuel` bounds
their number. -/
def items (item : Step Value) : Nat → List Value → Step (List Value)
  | 0, _, cs => peeked .endOfList cs
  | fuel + 1, done, cs =>
      match skipBlank cs with
      | [] => after .endOfList []
      | ']' :: rest => .ok (done.reverse, rest)
      | c :: rest =>
          let next : Except Fault (List Char) :=
            if done.isEmpty then .ok (c :: rest)
            else if c == ',' then
              match skipBlank rest with
              | [] => after .endOfValue []
              | ']' :: rest => peeked .trailingComma (']' :: rest)
              | rest => .ok rest
            else peeked .expectedListMark (c :: rest)
          match next with
          | .error fault => .error fault
          | .ok cs =>
              match item cs with
              | .error fault => .error fault
              | .ok (v, rest) => items item fuel (v :: done) rest

/-- The colon between a key and its value. -/
def colon (cs : List Char) : Except Fault (List Char) :=
  match skipBlank cs with
  | [] => after .endOfObject []
  | ':' :: rest => .ok rest
  | rest => peeked .expectedColon rest

/-- One field of an object, at its key. -/
def entry (item : Step Value) (cs : List Char) : Except Fault ((String × Value) × List Char) :=
  match cs with
  | [] => after .endOfValue []
  | '"' :: rest => do
      let (key, rest) ← stringBody [] rest
      let rest ← colon rest
      let (value, rest) ← item rest
      return ((String.ofList key, value), rest)
  | '\x7d' :: _ => peeked .trailingComma cs
  | _ => peeked .keyNotString cs

/-- The fields of an object after its brace, added to those already read. -/
def entries (item : Step Value) : Nat → Bool → Fields → Step Fields
  | 0, _, _, cs => peeked .endOfObject cs
  | fuel + 1, first, done, cs =>
      match skipBlank cs with
      | [] => after .endOfObject []
      | '\x7d' :: rest => .ok (done, rest)
      | c :: rest =>
          let next : Except Fault (List Char) :=
            if first then .ok (c :: rest)
            else if c == ',' then .ok (skipBlank rest)
            else peeked .expectedObjectMark (c :: rest)
          match next with
          | .error fault => .error fault
          | .ok cs =>
              match entry item cs with
              | .error fault => .error fault
              | .ok ((key, value), rest) => entries item fuel false (done.insert key value) rest

/-- A value; `depth` is how many lists and objects may still be open inside each other. -/
def value : Nat → Step Value
  | depth, cs =>
      match skipBlank cs with
      | [] => after .endOfValue []
      | c :: rest =>
          if c == 'n' then word .null ['u', 'l', 'l'] rest
          else if c == 't' then word (.bool true) ['r', 'u', 'e'] rest
          else if c == 'f' then word (.bool false) ['a', 'l', 's', 'e'] rest
          else if c == '-' then (unsigned true rest).map fun (n, rest) => (.number n, rest)
          else if c.isDigit then
            (unsigned false (c :: rest)).map fun (n, rest) => (.number n, rest)
          else if c == '"' then
            (stringBody [] rest).map fun (s, rest) => (.string (String.ofList s), rest)
          else if c == '[' then
            match depth with
            | 0 => peeked .nestingTooDeep (c :: rest)
            | depth + 1 =>
                (items (value depth) (rest.length + 1) [] rest).map fun (vs, rest) =>
                  (.array vs, rest)
          else if c == '\x7b' then
            match depth with
            | 0 => peeked .nestingTooDeep (c :: rest)
            | depth + 1 =>
                (entries (value depth) (rest.length + 1) true [] rest).map fun (fs, rest) =>
                  (.object fs, rest)
          else peeked .expectedValue (c :: rest)

/-- A whole text: one value and blanks. -/
def document (depth : Nat) (cs : List Char) : Except Fault Value := do
  let (v, rest) ← value depth cs
  match skipBlank rest with
  | [] => return v
  | rest => peeked .trailingCharacters rest

/-! ## Positions -/

/-- A place in a text: lines count from one, columns are bytes since the last line feed. -/
structure Position where
  line : Nat
  column : Nat
  deriving DecidableEq, Repr, Inhabited

/-- The place after one more byte. -/
def Position.step (p : Position) (byte : UInt8) : Position :=
  if byte == 10 then ⟨p.line + 1, 0⟩ else ⟨p.line, p.column + 1⟩

/-- The place after the first `count` bytes of `text`. -/
def Position.ofOffset (text : String) (count : Nat) : Position :=
  (text.toUTF8.toList.take count).foldl Position.step ⟨1, 0⟩

/-- Why a text is no JSON, and where. -/
structure ReadError where
  cause : Cause
  position : Position
  deriving DecidableEq, Repr, Inhabited

/-- The wording of a reading error. -/
def ReadError.message (e : ReadError) : String :=
  e.cause.message ++ " at line " ++ toString e.position.line ++ " column " ++
    toString e.position.column

/-- How many lists and objects a document may have open inside each other. -/
def nestingLimit : Nat := 127

/-- Reads a JSON text in which at most `depth` lists and objects are open inside each other. -/
def readNested (depth : Nat) (text : String) : Except ReadError Value :=
  match document depth text.toList with
  | .ok v => .ok v
  | .error fault =>
      let offset := text.utf8ByteSize - byteSize fault.rest + fault.past
      .error ⟨fault.cause, .ofOffset text offset⟩

/-- Reads a JSON text. -/
def read (text : String) : Except ReadError Value := readNested nestingLimit text

end SceneMarkup.Json
