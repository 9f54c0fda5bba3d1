/-
  SceneMarkup/Text/Words.lean --- names as words: `primary-button`, `PrimaryButton`.

  WHAT THIS FILE IS FOR.  A name is split at everything that is no ASCII letter or
  digit, between letters and digits, before a capital that follows a small letter, and
  before the last of several capitals when a small letter follows it.
-/
set_option autoImplicit false

namespace SceneMarkup.Text

/-- Whether a character is an ASCII letter or digit. -/
def isWordChar (c : Char) : Bool := c.isAlphanum

/-- Whether a word ends between `a` and `b`, where `next` comes after `b`. -/
def splitsBetween (a b : Char) (next : Option Char) : Bool :=
  (a.isLower && b.isUpper) || (a.isAlpha && b.isDigit) || (a.isDigit && b.isAlpha) ||
    (a.isUpper && b.isUpper && next.any Char.isLower)

/-- Whether a word ends between `a` and the text after it. -/
def splitsAfter (a : Char) : List Char → Bool
  | [] => false
  | b :: rest => splitsBetween a b rest.head?

/-- The words of a text, with an empty one beside each character that separates words. -/
def pieces : List Char → List (List Char)
  | [] => [[]]
  | c :: rest =>
      if !isWordChar c then [] :: pieces rest
      else match pieces rest with
        | [] => [[c]]
        | word :: words =>
            if splitsAfter c rest then [c] :: word :: words else (c :: word) :: words

/-- The words of a text. -/
def words (cs : List Char) : List (List Char) := (pieces cs).filter fun word => !word.isEmpty

/-- The words in small letters, with hyphens between them. -/
def kebab (cs : List Char) : List Char :=
  List.intercalate ['-'] ((words cs).map fun word => word.map Char.toLower)

/-- A word that begins with a capital. -/
def capitalized : List Char → List Char
  | [] => []
  | c :: rest => c.toUpper :: rest.map Char.toLower

/-- The words joined, each beginning with a capital. -/
def pascal (cs : List Char) : List Char := (words cs).flatMap capitalized

end SceneMarkup.Text
