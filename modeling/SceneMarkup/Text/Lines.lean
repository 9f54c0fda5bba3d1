/-
  SceneMarkup/Text/Lines.lean --- a text as lines, and lines moved to the right.
-/
set_option autoImplicit false

namespace SceneMarkup.Text

/-- The lines of a text. A line feed ends a line, together with one carriage return before it; no
empty line follows the last line feed. -/
def lines : List Char → List (List Char)
  | [] => []
  | c :: rest =>
      if c = '\n' then [] :: lines rest
      else if c = '\r' && rest.head? == some '\n' then lines rest
      else match lines rest with
        | [] => [[c]]
        | line :: others => (c :: line) :: others

/-- Whether a character is blank: the property `White_Space` of Unicode. -/
def isBlank (c : Char) : Bool :=
  let n := c.toNat
  (0x09 ≤ n && n ≤ 0x0D) || n == 0x20 || n == 0x85 || n == 0xA0 || n == 0x1680 ||
    (0x2000 ≤ n && n ≤ 0x200A) || n == 0x2028 || n == 0x2029 || n == 0x202F || n == 0x205F ||
    n == 0x3000

/-- A line moved `count` places to the right, unless it is blank. -/
def indentLine (count : Nat) (line : List Char) : List Char :=
  if line.all isBlank then line else List.replicate count ' ' ++ line

/-- The lines of a text moved `count` places to the right, with line feeds between them. -/
def indent (count : Nat) (cs : List Char) : List Char :=
  List.intercalate ['\n'] ((lines cs).map (indentLine count))

end SceneMarkup.Text
