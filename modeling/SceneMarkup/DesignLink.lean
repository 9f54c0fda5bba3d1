/-
  SceneMarkup/DesignLink.lean --- links to design files: the key of the file and the
  id of a node.

  WHAT THIS FILE IS FOR.  The key stands after the first marker that letters or digits
  follow.  The id is a parameter of the query, where a colon may be written in other
  ways.
-/
set_option autoImplicit false

namespace SceneMarkup.DesignLink

/-- What stands before the key of a file. -/
def markers : List (List Char) := ["figma.com/file/".toList, "figma.com/design/".toList]

/-- The key after a marker with which a text begins. -/
def keyHere? (cs : List Char) : Option (List Char) := do
  let rest ← markers.findSome? fun marker => marker.isPrefixOf? cs
  let key := rest.takeWhile Char.isAlphanum
  if key.isEmpty then none else some key

/-- The key after the first marker that has one. -/
def keyIn? : List Char → Option (List Char)
  | [] => none
  | c :: rest => keyHere? (c :: rest) <|> keyIn? rest

/-- The parts of a text between the occurrences of a mark. -/
def partsBetween (mark : Char) : List Char → List (List Char)
  | [] => [[]]
  | c :: rest =>
      if c = mark then [] :: partsBetween mark rest
      else match partsBetween mark rest with
        | [] => [[c]]
        | part :: others => (c :: part) :: others

/-- The text after the first occurrence of a mark. -/
def afterMark? (mark : Char) (cs : List Char) : Option (List Char) :=
  match cs.dropWhile (· != mark) with
  | [] => none
  | _ :: rest => some rest

/-- The value of a parameter that gives the id of a node; a fragment does not belong to it. -/
def idParameter? (parameter : List Char) : Option (List Char) := do
  let rest ← "node-id=".toList.isPrefixOf? parameter
  let value := rest.takeWhile (· != '#')
  if value.isEmpty then none else some value

/-- An id in which a colon may be written as a hyphen or as its hexadecimal code. -/
def decodeId : List Char → List Char
  | '%' :: '3' :: 'A' :: rest => ':' :: decodeId rest
  | '%' :: '3' :: 'a' :: rest => ':' :: decodeId rest
  | '-' :: rest => ':' :: decodeId rest
  | c :: rest => c :: decodeId rest
  | [] => []

/-- The id that the query of a link gives. -/
def idIn? (link : List Char) : Option (List Char) := do
  let query ← afterMark? '?' link
  let value ← (partsBetween '&' query).findSome? idParameter?
  return decodeId value

/-- The key of the file that a link leads to. -/
def fileKey? (link : String) : Option String := (keyIn? link.toList).map String.ofList

/-- The id of the node that a link leads to. -/
def nodeId? (link : String) : Option String := (idIn? link.toList).map String.ofList

end SceneMarkup.DesignLink
