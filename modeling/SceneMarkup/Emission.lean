/-
  SceneMarkup/Emission.lean --- a walk and its styles to markup and a stylesheet.

  WHAT THIS FILE IS FOR.  The walk is a flat list.  Hidden nodes may be left out, with
  all that is below them; each node that is kept becomes an element with a class; and
  the elements are put into each other by their depths alone (`assemble`).
-/
import SceneMarkup.ClassName
import SceneMarkup.Markup.Tree
import SceneMarkup.Style.Resolve
import SceneMarkup.Stylesheet

set_option autoImplicit false

namespace SceneMarkup

/-- What markup is wanted. -/
structure EmitOptions where
  /-- the beginning of every class name -/
  classStart : String
  /-- whether hidden nodes become elements -/
  includeHidden : Bool
  /-- whether elements carry the ids of their nodes -/
  emitNodeIds : Bool
  deriving DecidableEq, Repr, Inhabited

/-- Markup, its stylesheet, and remarks. -/
structure Emission where
  markup : List Markup
  stylesheet : Stylesheet
  diagnostics : Diagnostics
  deriving Repr, Inhabited

/-- A list of styles that does not belong to a walk. -/
inductive ResolutionMismatch where
  | count (entries resolved : Nat)
  | node (entry resolved : String)
  deriving DecidableEq, Repr, Inhabited

/-- The wording of a mismatch. -/
def ResolutionMismatch.message : ResolutionMismatch → String
  | .count entries resolved =>
      "Resolution mismatch: " ++ toString entries ++ " walk entries but " ++ toString resolved ++
        " resolved nodes"
  | .node entry resolved =>
      "Resolution mismatch: walk entry `" ++ entry ++ "` resolved as `" ++ resolved ++ "`"

namespace Emission

/-! ## Pairing -/

/-- A node of a walk with its style. -/
abbrev Styled : Type := Entry × Resolved

/-- The nodes of a walk with their styles, or the first that does not match. -/
def pair (entries : List Entry) (resolved : List Resolved) :
    Except ResolutionMismatch (List Styled) :=
  if entries.length ≠ resolved.length then .error (.count entries.length resolved.length)
  else
    match (entries.zip resolved).find? fun (entry, style) => entry.id != style.nodeId with
    | some (entry, style) => .error (.node entry.id style.nodeId)
    | none => .ok (entries.zip resolved)

/-! ## Hidden nodes -/

/-- What becomes of a node. -/
inductive Fate where
  /-- it becomes an element -/
  | kept
  /-- it is hidden and left out -/
  | omitted
  /-- it is below a node that is left out -/
  | below
  deriving DecidableEq, Repr, Inhabited

/-- The nodes of a walk with what becomes of them. `skip` is the depth of the node that was left
out last, as long as what follows may be below it. -/
def fates (includeHidden : Bool) (skip : Option Nat) : List Styled → List (Styled × Fate)
  | [] => []
  | styled :: rest =>
      if skip.any fun depth => depth < styled.1.depth then
        (styled, .below) :: fates includeHidden skip rest
      else if !styled.1.layer.visible && !includeHidden then
        (styled, .omitted) :: fates includeHidden (some styled.1.depth) rest
      else (styled, .kept) :: fates includeHidden none rest

/-- The nodes with a fate, in order. -/
def withFate (fate : Fate) (all : List (Styled × Fate)) : List Styled :=
  (all.filter fun (_, f) => f == fate).map (·.1)

/-- The remark on a hidden node that is left out. -/
def omission (styled : Styled) : Diagnostic :=
  .info styled.1.id "hidden node omitted from markup"

/-! ## Classes -/

/-- The classes made so far: by the key of their declarations, and as rules. -/
structure Classes where
  namer : ClassName.Namer
  byKey : List (String × String)
  rules : Stylesheet
  deriving Repr, Inhabited

/-- No class, for names that begin with `start`. -/
def Classes.fresh (start : String) : Classes := ⟨.fresh start, [], []⟩

/-- The class of a record, which has none if it is empty. Records with the same key share a class;
the first of them gives it its name. -/
def Classes.classFor (classes : Classes) (record : Record) (name fallback : String) :
    Option String × Classes :=
  if record.isEmpty then (none, classes)
  else
    let key := record.canonicalKey
    match classes.byKey.lookup key with
    | some given => (some given, classes)
    | none =>
        let (given, namer) := classes.namer.mint name fallback
        (some given,
          ⟨namer, (key, given) :: classes.byKey, classes.rules ++ [.ofRecord given record]⟩)

/-! ## Elements -/

/-- The name of the element of a node. -/
def elementName : NodeKind → String
  | .text _ => "p"
  | _ => "div"

/-- The attributes that tell what a node is. -/
def kindAttributes : NodeKind → List (String × String)
  | .shape shape => [("data-shape", shape.kind.name)]
  | .placeholder typeTag => [("data-placeholder", typeTag)]
  | _ => []

/-- The attribute that holds the id of a node. -/
def idAttributes (emitNodeIds : Bool) (layer : Layer) : List (String × String) :=
  if emitNodeIds then [("data-node-id", layer.id)] else []

/-- A run of text: a text, or a span if it has declarations of its own. -/
def runMarkup (layer : Layer) (classes : Classes) (run : ResolvedRun) : Markup × Classes :=
  let label := layer.kind.label
  match classes.classFor run.record (layer.name ++ " run") (label ++ " run") with
  | (none, classes) => (.text run.run.text, classes)
  | (some given, classes) =>
      (.element { Tag.named "span" with className := some given } [.text run.run.text], classes)

/-- Some runs of text, in order. -/
def runsMarkup (layer : Layer) (classes : Classes) : List ResolvedRun → List Markup × Classes
  | [] => ([], classes)
  | run :: rest =>
      let (first, classes) := runMarkup layer classes run
      let (others, classes) := runsMarkup layer classes rest
      (first :: others, classes)

/-- The content of a text: one text if no run has declarations of its own, and nothing if there
are no characters either. -/
def textMarkup (layer : Layer) (characters : String) (classes : Classes)
    (runs : List ResolvedRun) : List Markup × Classes :=
  if runs.all fun run => run.record.isEmpty then
    (if characters.isEmpty then [] else [.text characters], classes)
  else runsMarkup layer classes runs

/-- An element that has still to receive its child elements. -/
structure Piece where
  depth : Nat
  tag : Tag
  inner : List Markup
  deriving Repr, Inhabited

/-- The element of a node, with the content of the node itself. -/
def pieceOf (emitNodeIds : Bool) (styled : Styled) (classes : Classes) : Piece × Classes :=
  let layer := styled.1.layer
  let (className, classes) := classes.classFor styled.2.record layer.name layer.kind.label
  let tag : Tag :=
    ⟨elementName layer.kind, className, kindAttributes layer.kind ++ idAttributes emitNodeIds layer⟩
  match layer.kind with
  | .text text =>
      let (inner, classes) := textMarkup layer text.characters classes styled.2.runs
      (⟨styled.1.depth, tag, inner⟩, classes)
  | _ => (⟨styled.1.depth, tag, []⟩, classes)

/-- The elements of some nodes, in order. -/
def piecesOf (emitNodeIds : Bool) : List Styled → Classes → List Piece × Classes
  | [], classes => ([], classes)
  | styled :: rest, classes =>
      let (piece, classes) := pieceOf emitNodeIds styled classes
      let (pieces, classes) := piecesOf emitNodeIds rest classes
      (piece :: pieces, classes)

/-! ## Assembly -/

/-- An element that is open, with the children it has so far. -/
structure Opened where
  tag : Tag
  children : List Markup
  deriving Repr, Inhabited

/-- The open elements, the innermost first, and the roots that are complete. -/
structure Assembly where
  opened : List Opened
  roots : List Markup
  deriving Repr, Inhabited

namespace Assembly

/-- Nothing open and nothing complete. -/
def empty : Assembly := ⟨[], []⟩

/-- Completes the innermost element. -/
def close (a : Assembly) : Assembly :=
  match a.opened with
  | [] => a
  | [e] => ⟨[], a.roots ++ [.element e.tag e.children]⟩
  | e :: parent :: rest =>
      ⟨{ parent with children := parent.children ++ [.element e.tag e.children] } :: rest, a.roots⟩

/-- Completes the innermost `n` elements. -/
def closeTimes : Nat → Assembly → Assembly
  | 0, a => a
  | n + 1, a => closeTimes n a.close

/-- Completes elements until at most `depth` are open. -/
def closeTo (depth : Nat) (a : Assembly) : Assembly := a.closeTimes (a.opened.length - depth)

/-- Opens an element at its depth. -/
def push (a : Assembly) (piece : Piece) : Assembly :=
  let a := a.closeTo piece.depth
  { a with opened := ⟨piece.tag, piece.inner⟩ :: a.opened }

end Assembly

/-- The forest of elements that are listed with their depths. -/
def assemble (pieces : List Piece) : List Markup :=
  ((pieces.foldl Assembly.push .empty).closeTo 0).roots

/-! ## Emission -/

/-- The markup and the stylesheet of nodes with their styles. -/
def ofStyled (options : EmitOptions) (all : List Styled) : Emission :=
  let decided := fates options.includeHidden none all
  let (pieces, classes) :=
    piecesOf options.emitNodeIds (withFate .kept decided) (.fresh options.classStart)
  ⟨assemble pieces, classes.rules, (withFate .omitted decided).map omission⟩

end Emission

/-- The markup and the stylesheet of a walk and its styles. -/
def emit (options : EmitOptions) (entries : List Entry) (resolved : List Resolved) :
    Except ResolutionMismatch Emission :=
  (Emission.pair entries resolved).map (Emission.ofStyled options)

end SceneMarkup
