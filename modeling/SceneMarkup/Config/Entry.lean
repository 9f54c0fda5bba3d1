/-
  SceneMarkup/Config/Entry.lean --- a configuration text as keys and values.

  WHAT THIS FILE IS FOR.  A configuration text has an entry on a line, a key, an equals
  sign and a value, and comments.  Quotation marks around a text allow escapes in it,
  apostrophes do not.
-/
import SceneMarkup.Json.Reader
import SceneMarkup.Text.Lines

set_option autoImplicit false

namespace SceneMarkup.Config

/-- A value in a configuration text. -/
inductive Scalar where
  | text (content : String)
  | bool (value : Bool)
  | integer (value : Int)
  deriving DecidableEq, Repr, Inhabited

/-- A key and its value. -/
abbrev Entry : Type := String × Scalar

/-! ## Characters -/

/-- A space or a tab. -/
def isGap (c : Char) : Bool := c == ' ' || c == '\t'

/-- What comes after spaces and tabs. -/
def skipGap (cs : List Char) : List Char := cs.dropWhile isGap

/-- Whether a character may stand as it is in a comment or between quotes. -/
def isPlain (c : Char) : Bool := c == '\t' || (decide (0x20 ≤ c.toNat) && c.toNat != 0x7F)

/-- Whether a character may stand in a key without quotes. -/
def isKeyChar (c : Char) : Bool := c.isAlphanum || c == '_' || c == '-'

/-! ## Texts -/

/-- The character with a code, unless the code is of half a pair or too large. -/
def charOfCode? (code : Nat) : Option Char :=
  if code.isValidChar then some (Char.ofNat code) else none

/-- The character that a letter after a backslash stands for. -/
def escaped? : Char → Option Char
  | 'b' => some '\x08'
  | 't' => some '\t'
  | 'n' => some '\n'
  | 'f' => some '\x0c'
  | 'r' => some '\r'
  | '"' => some '"'
  | '\\' => some '\\'
  | _ => none

/-- A character before what was read of a text. -/
def before (c : Char) (read : List Char × List Char) : List Char × List Char :=
  (c :: read.1, read.2)

/-- A text with escapes up to the quotation mark that ends it, and the rest. -/
def escapedText : List Char → Option (List Char × List Char)
  | [] => none
  | '"' :: rest => some ([], rest)
  | '\\' :: 'u' :: a :: b :: c :: d :: rest => do
      let char ← charOfCode? (← Json.hexQuad? a b c d)
      return before char (← escapedText rest)
  | '\\' :: 'U' :: a :: b :: c :: d :: e :: f :: g :: h :: rest => do
      let high ← Json.hexQuad? a b c d
      let char ← charOfCode? (high * 0x10000 + (← Json.hexQuad? e f g h))
      return before char (← escapedText rest)
  | '\\' :: c :: rest => do
      let char ← escaped? c
      return before char (← escapedText rest)
  | c :: rest => do
      if isPlain c && c != '\\' then return before c (← escapedText rest) else none

/-- A text without escapes up to the apostrophe that ends it, and the rest. -/
def literalText : List Char → Option (List Char × List Char)
  | [] => none
  | c :: rest =>
      if c = '\x27' then some ([], rest)
      else if isPlain c then (literalText rest).map (before c)
      else none

/-- A key, and the rest. -/
def key? : List Char → Option (List Char × List Char)
  | '"' :: rest => escapedText rest
  | '\x27' :: rest => literalText rest
  | cs =>
      let key := cs.takeWhile isKeyChar
      if key.isEmpty then none else some (key, cs.dropWhile isKeyChar)

/-! ## Values -/

/-- The value of a digit of a number system. -/
def digit? (base : Nat) (c : Char) : Option Nat := (Json.hexValue? c).filter (· < base)

/-- The number that digits denote, after those of `value`, with single underscores between them. -/
def digits? (base value : Nat) : List Char → Option Nat
  | [] => some value
  | '_' :: c :: rest => do digits? base (value * base + (← digit? base c)) rest
  | c :: rest => do digits? base (value * base + (← digit? base c)) rest

/-- The number that one or more digits denote. -/
def natural? (base : Nat) : List Char → Option Nat
  | [] => none
  | c :: rest => do digits? base (← digit? base c) rest

/-- The number that decimal digits denote; they begin with a zero only if there is no other. -/
def decimal? : List Char → Option Nat
  | '0' :: _ :: _ => none
  | cs => natural? 10 cs

/-- The integer that a word denotes, if it fits in 64 bits. -/
def integer? (word : List Char) : Option Int := do
  let value : Int ← match word with
    | '-' :: rest => do pure (-((← decimal? rest : Nat) : Int))
    | '+' :: rest => do pure ((← decimal? rest : Nat) : Int)
    | '0' :: 'x' :: rest => do pure ((← natural? 16 rest : Nat) : Int)
    | '0' :: 'o' :: rest => do pure ((← natural? 8 rest : Nat) : Int)
    | '0' :: 'b' :: rest => do pure ((← natural? 2 rest : Nat) : Int)
    | rest => do pure ((← decimal? rest : Nat) : Int)
  if -0x8000000000000000 ≤ value ∧ value < 0x8000000000000000 then some value else none

/-- The value that a word denotes. -/
def Scalar.ofWord? (word : List Char) : Option Scalar :=
  if word = "true".toList then some (.bool true)
  else if word = "false".toList then some (.bool false)
  else (integer? word).map .integer

/-- Whether a character may stand in a word. -/
def isWordChar (c : Char) : Bool := isKeyChar c || c == '+'

/-- A value, and the rest. -/
def value? : List Char → Option (Scalar × List Char)
  | '"' :: rest =>
      (escapedText rest).map fun (content, rest) => (.text (String.ofList content), rest)
  | '\x27' :: rest =>
      (literalText rest).map fun (content, rest) => (.text (String.ofList content), rest)
  | cs =>
      (Scalar.ofWord? (cs.takeWhile isWordChar)).map fun value => (value, cs.dropWhile isWordChar)

/-! ## Lines -/

/-- Whether nothing but a comment is left of a line. -/
def isEnd (cs : List Char) : Bool :=
  match skipGap cs with
  | [] => true
  | '#' :: comment => comment.all isPlain
  | _ => false

/-- The entry on a line that is neither blank nor a comment. -/
def entry? (line : List Char) : Option Entry := do
  let (key, rest) ← key? (skipGap line)
  match skipGap rest with
  | '=' :: rest =>
      let (value, rest) ← value? (skipGap rest)
      if isEnd rest then some (String.ofList key, value) else none
  | _ => none

/-- A text without the mark that may stand at its start to tell the order of its bytes. -/
def withoutMark : List Char → List Char
  | '\uFEFF' :: rest => rest
  | cs => cs

/-- The entries of a configuration text, or nothing where a line is malformed or a key is
repeated. -/
def entries? (text : List Char) : Option (List Entry) := do
  let lines := (Text.lines (withoutMark text)).filter fun line => !isEnd line
  let entries ← lines.mapM entry?
  if (entries.map (·.1)).Nodup then some entries else none

end SceneMarkup.Config
