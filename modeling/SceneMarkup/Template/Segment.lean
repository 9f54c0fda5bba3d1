/-
  SceneMarkup/Template/Segment.lean --- a template as the segments of its text.

  WHAT THIS FILE IS FOR.  A template is text with tags between two or three braces.  A
  tag names a field, which stands for its value, or calls a helper with arguments.
  Tags that open or close blocks are not understood.
-/
import SceneMarkup.Json.Reader

set_option autoImplicit false

namespace SceneMarkup.Template

/-- What a tag can call. -/
inductive Helper where
  /-- the name of a component -/
  | pascalCase
  /-- lines moved to the right -/
  | indent
  deriving DecidableEq, Repr, Inhabited

/-- The helper of a name. -/
def Helper.ofName? (name : String) : Option Helper :=
  match name with
  | "pascal_case" => some .pascalCase
  | "indent" => some .indent
  | _ => none

/-- An argument of a helper. -/
inductive Argument where
  | field (name : String)
  | literal (value : Json.Value)
  deriving Repr, Inhabited

/-- A part of a template. -/
inductive Segment where
  | text (content : String)
  | field (name : String)
  | call (helper : Helper) (arguments : List Argument)
  /-- a call of something that is no helper, or of one that lacks an argument -/
  | unknown (name : String)
  deriving Repr, Inhabited

/-! ## Words -/

/-- Whether a character may stand between the words of a tag. -/
def isTagBlank (c : Char) : Bool := c == ' ' || c == '\t' || c == '\n' || c == '\r'

/-- Whether a character may stand in the name of a field. -/
def isNameChar (c : Char) : Bool :=
  c.isAlphanum || c == '_' || c == '-' || c == '$' || decide (0x80 ≤ c.toNat)

/-- A text without digits at its beginning, of which there is at least one. -/
def afterDigits? (cs : List Char) : Option (List Char) :=
  if (cs.takeWhile Char.isDigit).isEmpty then none else some (cs.dropWhile Char.isDigit)

/-- A text without a given character at its beginning, if it has it. -/
def withoutFirst (c : Char) (cs : List Char) : List Char :=
  if cs.head? = some c then cs.tail else cs

/-- Whether a word is written like a number: digits, a point with or without digits after it, and
an exponent after a capital `E`. -/
def looksNumeric (word : List Char) : Bool :=
  match afterDigits? (withoutFirst '-' word) with
  | none => false
  | some rest =>
      match (withoutFirst '.' rest).dropWhile Char.isDigit with
      | [] => true
      | 'E' :: power => afterDigits? (withoutFirst '-' power) == some []
      | _ => false

/-- The words that name a value. -/
def isConstant (word : String) : Bool := word == "true" || word == "false" || word == "null"

/-- The words that are no argument, because blocks use them. -/
def isKeyword (word : String) : Bool := word == "as" || word == "else"

/-- A text between single quotes as it is written between double quotes. -/
def doubleQuoted : List Char → List Char
  | [] => []
  | '\\' :: '\'' :: rest => '\'' :: doubleQuoted rest
  | '"' :: rest => '\\' :: '"' :: doubleQuoted rest
  | '\'' :: rest => '"' :: doubleQuoted rest
  | c :: rest => c :: doubleQuoted rest

/-- The literal of a JSON text. -/
def Argument.ofJson? (word : List Char) : Option Argument :=
  match Json.read (String.ofList word) with
  | .ok value => some (.literal value)
  | .error _ => none

/-- The literal or the field that a word stands for. -/
def Argument.ofWord? (word : List Char) : Option Argument :=
  let text := String.ofList word
  if looksNumeric word || isConstant text then Argument.ofJson? word
  else if isKeyword text then none
  else if word.all isNameChar then some (.field text)
  else match word with
    | '\'' :: _ => Argument.ofJson? (doubleQuoted word)
    | c :: _ =>
        if c == '"' || c == '[' || c == '\x7b' then Argument.ofJson? word else none
    | [] => none

/-- Pieces of the text inside a tag, cut at blanks that are not between quotes; `quote` is the
quote between which the text begins. -/
def tagPieces (quote : Option Char) : List Char → List (List Char)
  | [] => [[]]
  | c :: rest =>
      if quote.isNone && isTagBlank c then [] :: tagPieces quote rest
      else
        let next :=
          match quote with
          | some q => if c = q then none else some q
          | none => if c = '"' ∨ c = '\'' then some c else none
        match tagPieces next rest with
        | [] => [[c]]
        | piece :: others => (c :: piece) :: others

/-- The words inside a tag. -/
def tagWords (inner : List Char) : List (List Char) :=
  (tagPieces none inner).filter fun word => !word.isEmpty

/-! ## Tags -/

/-- The tags that stand for nothing. -/
def isSilent (name : String) : Bool := name == "log" || name == "raw"

/-- The tags that need an argument, so that no field can be shown by them. -/
def needsArgument (name : String) : Bool :=
  ["if", "unless", "each", "with", "lookup", "eq", "ne", "gt", "gte", "lt", "lte", "and", "or",
    "not", "len"].contains name

/-- The segment of a name with arguments: without arguments it is a field unless it names a
helper, with arguments it is a call. -/
def Segment.ofName (name : String) (arguments : List Argument) : Segment :=
  match Helper.ofName? name with
  | some helper => .call helper arguments
  | none =>
      if isSilent name then .text ""
      else if arguments.isEmpty && !needsArgument name then .field name
      else .unknown name

/-- The segment of a tag. -/
def Segment.ofTag? (inner : List Char) : Option Segment :=
  match tagWords inner with
  | [] => none
  | name :: arguments =>
      if !name.all isNameChar || (String.ofList name == "else" && arguments.isEmpty) then none
      else do return .ofName (String.ofList name) (← arguments.mapM Argument.ofWord?)

/-- The text up to some closing braces, and the rest after them. -/
def untilClosed (braces : Nat) : List Char → Option (List Char × List Char)
  | [] => none
  | c :: rest =>
      if (c :: rest).take braces = List.replicate braces '\x7d' then
        some ([], rest.drop (braces - 1))
      else (untilClosed braces rest).map fun (inner, after) => (c :: inner, after)

/-- What is left after closing braces is shorter. -/
theorem length_of_untilClosed {braces : Nat} {cs inner rest : List Char}
    (h : untilClosed braces cs = some (inner, rest)) : rest.length < cs.length := by
  fun_induction untilClosed braces cs generalizing inner rest with
  | case1 => simp at h
  | case2 c cs hclosed =>
    simp only [Option.some.injEq, Prod.mk.injEq] at h
    simp only [← h.2, List.length_drop, List.length_cons]
    omega
  | case3 c cs hopen ih =>
    obtain ⟨⟨i, r⟩, hread, heq⟩ := Option.map_eq_some_iff.1 h
    simp only [Prod.mk.injEq] at heq
    have := ih hread
    simp only [← heq.2, List.length_cons]
    omega

/-! ## Templates -/

/-- A text put before some segments. -/
def consText (cs : List Char) : List Segment → List Segment
  | .text content :: rest => .text (String.ofList cs ++ content) :: rest
  | segments => if cs.isEmpty then segments else .text (String.ofList cs) :: segments

/-- The segments of a template's text after some backslashes, or nothing where a tag is malformed.
A tag stands between two or three braces. One backslash before two braces keeps them, and two
more, from being a tag; of several backslashes before two braces one is dropped. -/
def segmentsAfter? (backslashes : Nat) (cs : List Char) : Option (List Segment) :=
  match cs with
  | [] => some (consText (List.replicate backslashes '\\') [])
  | '\\' :: rest => segmentsAfter? (backslashes + 1) rest
  | '\x7b' :: '\x7b' :: rest =>
      if backslashes = 1 then do
        let more := if rest.take 2 = ['\x7b', '\x7b'] then 2 else 0
        return consText (List.replicate (2 + more) '\x7b') (← segmentsAfter? 0 (rest.drop more))
      else
        let three := rest.head? = some '\x7b'
        match _h : untilClosed (if three then 3 else 2) (if three then rest.tail else rest) with
        | none => none
        | some (inner, after) => do
            let segment ← Segment.ofTag? inner
            return consText (List.replicate (backslashes - 1) '\\')
              (segment :: (← segmentsAfter? 0 after))
  | c :: rest => do
      return consText (List.replicate backslashes '\\' ++ [c]) (← segmentsAfter? 0 rest)
termination_by cs.length
decreasing_by
  · simp only [List.length_cons]
    omega
  · simp only [List.length_cons, List.length_drop]
    omega
  · have := length_of_untilClosed ‹_›
    split at this <;> simp only [List.length_cons, List.length_tail] at this ⊢ <;> omega
  · simp only [List.length_cons]
    omega

/-- The segments of a template's text, or nothing where a tag is malformed. -/
def segments? (cs : List Char) : Option (List Segment) := segmentsAfter? 0 cs

end SceneMarkup.Template
