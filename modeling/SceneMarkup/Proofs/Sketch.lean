/-
  SceneMarkup/Proofs/Sketch.lean --- the markup of a forest, said by recursion.

  WHAT THIS FILE IS FOR.  Emission goes through flat lists: fates, pieces, a stack of
  open elements.  A sketch says what comes of it without any list or state: each node
  that is not left out is one element around the elements of its children.  Elements of
  a sketch still hold the records that ask for their classes; `Sketch.markup` puts the
  classes in.
-/
import SceneMarkup.Emission

set_option autoImplicit false

namespace SceneMarkup

/-- What an element has when it asks for its class: its record, and two names to call it by. -/
structure ClassRequest where
  record : Record
  name : String
  fallback : String
  deriving DecidableEq, Repr, Inhabited

/-- A piece of markup whose elements do not have their classes yet. -/
inductive Sketch where
  | text (content : String)
  | element (name : String) (request : ClassRequest) (attributes : List (String × String))
      (children : List Sketch)
  deriving Repr, Inhabited

namespace Sketch

/-! ## Classes -/

mutual

/-- The requests for classes in the order of the text: an element comes before its children. -/
def requests : Sketch → List ClassRequest
  | .text _ => []
  | .element _ request _ children => request :: requestsIn children

/-- The requests for classes of some sketches, in order. -/
def requestsIn : List Sketch → List ClassRequest
  | [] => []
  | sketch :: rest => sketch.requests ++ requestsIn rest

end

mutual

/-- The markup in which every element has the class of its record. -/
def markup (classOf : Record → Option String) : Sketch → Markup
  | .text content => .text content
  | .element name request attributes children =>
      .element ⟨name, classOf request.record, attributes⟩ (markupIn classOf children)

/-- The markup of some sketches, in order. -/
def markupIn (classOf : Record → Option String) : List Sketch → List Markup
  | [] => []
  | sketch :: rest => sketch.markup classOf :: markupIn classOf rest

end

theorem requestsIn_append (first others : List Sketch) :
    requestsIn (first ++ others) = requestsIn first ++ requestsIn others := by
  induction first with
  | nil => rfl
  | cons sketch rest ih => rw [List.cons_append, requestsIn, requestsIn, ih, List.append_assoc]

theorem markupIn_append (classOf : Record → Option String) (first others : List Sketch) :
    markupIn classOf (first ++ others) = markupIn classOf first ++ markupIn classOf others := by
  induction first with
  | nil => rfl
  | cons sketch rest ih => rw [List.cons_append, markupIn, markupIn, ih, List.cons_append]

mutual

/-- Markup depends on the classes of the records that are in it, and on no others. -/
theorem markup_congr {f g : Record → Option String} :
    ∀ sketch : Sketch, (∀ q ∈ sketch.requests, f q.record = g q.record) →
      sketch.markup f = sketch.markup g
  | .text _, _ => rfl
  | .element name request attributes children, h => by
      rw [requests, List.forall_mem_cons] at h
      rw [markup, markup, h.1, markupIn_congr children h.2]

theorem markupIn_congr {f g : Record → Option String} :
    ∀ sketches : List Sketch, (∀ q ∈ requestsIn sketches, f q.record = g q.record) →
      markupIn f sketches = markupIn g sketches
  | [], _ => rfl
  | sketch :: rest, h => by
      rw [requestsIn, List.forall_mem_append] at h
      rw [markupIn, markupIn, markup_congr sketch h.1, markupIn_congr rest h.2]

end

/-! ## The content of a text -/

/-- A run of text: a text, or a span if it has declarations of its own. -/
def ofRun (layer : Layer) (run : ResolvedRun) : Sketch :=
  if run.record.isEmpty then .text run.run.text
  else
    .element "span" ⟨run.record, layer.name ++ " run", layer.kind.label ++ " run"⟩ []
      [.text run.run.text]

/-- The content of a text. -/
def ofText (layer : Layer) (characters : String) (runs : List ResolvedRun) : List Sketch :=
  if runs.all fun run => run.record.isEmpty then
    if characters.isEmpty then [] else [.text characters]
  else runs.map (ofRun layer)

/-- The requests within a text are those of its runs that have declarations. -/
theorem map_record_requestsIn_ofText (layer : Layer) (characters : String)
    (runs : List ResolvedRun) :
    (requestsIn (ofText layer characters runs)).map (·.record) =
      (runs.map (·.record)).filter (!·.isEmpty) := by
  unfold ofText
  split
  · rename_i hall
    have hnone : (runs.map (·.record)).filter (!·.isEmpty) = [] := by
      rw [List.filter_eq_nil_iff]
      intro record hrecord
      obtain ⟨run, hrun, rfl⟩ := List.mem_map.1 hrecord
      rw [List.all_eq_true.1 hall run hrun]
      simp
    rw [hnone]
    split
    · rfl
    · rfl
  · rename_i hnotAll
    clear hnotAll
    induction runs with
    | nil => rfl
    | cons run rest ih =>
        rw [List.map_cons, requestsIn, List.map_append, ih, List.map_cons, ofRun]
        cases hempty : run.record.isEmpty with
        | true => rw [if_pos rfl, List.filter_cons_of_neg (by simp [hempty])]; rfl
        | false =>
            rw [if_neg Bool.false_ne_true, List.filter_cons_of_pos (by simp [hempty])]
            rfl

/-- The content that a node has of its own. -/
def ownContent (layer : Layer) (style : Resolved) : List Sketch :=
  match layer.kind with
  | .text block => ofText layer block.characters style.runs
  | _ => []

/-! ## Forests -/

/-- What the element of a node asks for. -/
def nodeRequest (layer : Layer) (style : Resolved) : ClassRequest :=
  ⟨style.record, layer.name, layer.kind.label⟩

/-- The name of the element of a node: a text is a paragraph. -/
def nodeName (kind : NodeKind) : String :=
  match kind with
  | .text _ => "p"
  | _ => "div"

/-- The attributes of the element of a node: of a shape which shape it is, of a placeholder the type
that is not understood, and of every node its id, if ids are asked for. -/
def nodeAttributes (emitNodeIds : Bool) (layer : Layer) : List (String × String) :=
  (match layer.kind with
    | .shape shape => [("data-shape", shape.kind.name)]
    | .placeholder typeTag => [("data-placeholder", typeTag)]
    | _ => []) ++ if emitNodeIds then [("data-node-id", layer.id)] else []

/-- The element of a node around its own content and what is below the node. -/
def nodeElement (options : EmitOptions) (layer : Layer) (style : Resolved)
    (below : List Sketch) : Sketch :=
  .element (nodeName layer.kind) (nodeRequest layer style)
    (nodeAttributes options.emitNodeIds layer) (ownContent layer style ++ below)

mutual

/-- The element of a node, unless the node is hidden and hidden nodes are left out. The styles are
those of the node and of all that is below it, in order. -/
def ofNode (options : EmitOptions) (styles : List Resolved) : Node → List Sketch
  | ⟨layer, children⟩ =>
      match styles with
      | [] => []
      | style :: styles =>
          if !layer.visible && !options.includeHidden then []
          else [nodeElement options layer style (ofForest options styles children)]

/-- The elements of a forest. The styles are those of its nodes, in order. -/
def ofForest (options : EmitOptions) (styles : List Resolved) : List Node → List Sketch
  | [] => []
  | node :: rest => ofNode options styles node ++ ofForest options (styles.drop node.count) rest

end

theorem ofForest_cons_omitted (options : EmitOptions) {layer : Layer}
    (h : (!layer.visible && !options.includeHidden) = true) (style : Resolved)
    (styles : List Resolved) (children rest : List Node) :
    ofForest options (style :: styles) (⟨layer, children⟩ :: rest) =
      ofForest options (styles.drop (countIn children)) rest := by
  rw [ofForest, ofNode, if_pos h, List.nil_append, Node.count, Nat.add_comm, List.drop_succ_cons]

theorem ofForest_cons_kept (options : EmitOptions) {layer : Layer}
    (h : (!layer.visible && !options.includeHidden) = false) (style : Resolved)
    (styles : List Resolved) (children rest : List Node) :
    ofForest options (style :: styles) (⟨layer, children⟩ :: rest) =
      nodeElement options layer style (ofForest options styles children) ::
        ofForest options (styles.drop (countIn children)) rest := by
  rw [ofForest, ofNode, if_neg (by simpa using h), List.singleton_append, Node.count, Nat.add_comm,
    List.drop_succ_cons]

end Sketch

mutual

/-- The hidden nodes of a tree that are below no other hidden node, in order. -/
def Node.outermostHidden : Node → List Layer
  | ⟨layer, children⟩ => if layer.visible then outermostHiddenIn children else [layer]

/-- The hidden nodes of a forest that are below no other hidden node, in order. -/
def outermostHiddenIn : List Node → List Layer
  | [] => []
  | node :: rest => node.outermostHidden ++ outermostHiddenIn rest

end

theorem outermostHiddenIn_cons (layer : Layer) (children rest : List Node) :
    outermostHiddenIn (⟨layer, children⟩ :: rest) =
      (if layer.visible then outermostHiddenIn children else [layer]) ++
        outermostHiddenIn rest := by
  rw [outermostHiddenIn, Node.outermostHidden]

mutual

/-- The nodes of a tree that become elements, in order: hidden nodes are left out with all that is
below them, unless they are to be included. -/
def Node.shown (includeHidden : Bool) : Node → List Layer
  | ⟨layer, children⟩ =>
      if !layer.visible && !includeHidden then [] else layer :: shownIn includeHidden children

/-- The nodes of a forest that become elements, in order. -/
def shownIn (includeHidden : Bool) : List Node → List Layer
  | [] => []
  | node :: rest => node.shown includeHidden ++ shownIn includeHidden rest

end

theorem shownIn_cons (includeHidden : Bool) (layer : Layer) (children rest : List Node) :
    shownIn includeHidden (⟨layer, children⟩ :: rest) =
      (if !layer.visible && !includeHidden then [] else layer :: shownIn includeHidden children) ++
        shownIn includeHidden rest := by
  rw [shownIn, Node.shown]

end SceneMarkup
