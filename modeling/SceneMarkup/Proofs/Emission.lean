/-
  SceneMarkup/Proofs/Emission.lean --- emission draws the sketch of its forest.

  WHAT THIS FILE IS FOR.  Three passes over flat lists stand between a walk and its
  markup: which nodes are kept (`fates`), what each of them carries (`piecesOf`), and how
  they are put into each other by depth alone (`assemble`).  Each pass is brought back to
  the forest that was walked, and `ofStyled_eq` joins the three.

  THE INVARIANT OF THE STACK.  While the nodes below some depth are pushed, the elements
  that are open above that depth are not touched: pushing them all and closing again
  appends their finished elements to the innermost open one (`closeTo_foldl_push`).
-/
import SceneMarkup.Proofs.Classes
import SceneMarkup.Proofs.Walk

set_option autoImplicit false

namespace SceneMarkup.Emission

/-! ## Fates -/

theorem fates_cons_omitted {includeHidden : Bool} (styled : Styled) (rest : List Styled)
    (h : (!styled.1.layer.visible && !includeHidden) = true) :
    fates includeHidden none (styled :: rest) =
      (styled, .omitted) :: fates includeHidden (some styled.1.depth) rest := by
  rw [fates, if_neg (by simp), if_pos h]

theorem fates_cons_kept {includeHidden : Bool} (styled : Styled) (rest : List Styled)
    (h : (!styled.1.layer.visible && !includeHidden) = false) :
    fates includeHidden none (styled :: rest) =
      (styled, .kept) :: fates includeHidden none rest := by
  rw [fates, if_neg (by simp), if_neg (by simpa using h)]

/-- Whatever is deeper than a node that was left out is below it. -/
theorem fates_of_deeper (includeHidden : Bool) {depth : Nat} {all : List Styled}
    (h : ∀ styled ∈ all, depth < styled.1.depth) :
    fates includeHidden (some depth) all = all.map fun styled => (styled, .below) := by
  induction all with
  | nil => rfl
  | cons styled rest ih =>
      rw [List.forall_mem_cons] at h
      rw [fates, if_pos (by simpa using h.1), ih h.2, List.map_cons]

/-- The fates of a list whose second part begins no deeper than anything in the first. -/
theorem fates_append (includeHidden : Bool) {skip : Option Nat} {first others : List Styled}
    (hskip : ∀ depth ∈ skip, ∀ next ∈ others.head?, next.1.depth ≤ depth)
    (hfirst : ∀ styled ∈ first, ∀ next ∈ others.head?, next.1.depth ≤ styled.1.depth) :
    fates includeHidden skip (first ++ others) =
      fates includeHidden skip first ++ fates includeHidden none others := by
  induction first generalizing skip with
  | nil =>
      cases others with
      | nil => rfl
      | cons next rest =>
          have hnot : (skip.any fun depth => depth < next.1.depth) = false := by
            cases skip with
            | none => rfl
            | some depth => simpa using hskip depth rfl next rfl
          simp only [List.nil_append, fates, hnot, Option.any_none, Bool.false_eq_true, if_false]
  | cons styled rest ih =>
      rw [List.forall_mem_cons] at hfirst
      rw [List.cons_append, fates, fates]
      split
      · rw [ih hskip hfirst.2, List.cons_append]
      · split
        · rw [ih (by rintro _ ⟨⟩; exact hfirst.1) hfirst.2, List.cons_append]
        · rw [ih (by rintro _ ⟨⟩) hfirst.2, List.cons_append]

theorem withFate_append (fate : Fate) (first others : List (Styled × Fate)) :
    withFate fate (first ++ others) = withFate fate first ++ withFate fate others := by
  rw [withFate, List.filter_append, List.map_append, withFate, withFate]

theorem withFate_cons_same (fate : Fate) (styled : Styled) (rest : List (Styled × Fate)) :
    withFate fate ((styled, fate) :: rest) = styled :: withFate fate rest := by
  rw [withFate, List.filter_cons_of_pos (by simp), List.map_cons, withFate]

theorem withFate_cons_other {fate other : Fate} (h : other ≠ fate) (styled : Styled)
    (rest : List (Styled × Fate)) :
    withFate fate ((styled, other) :: rest) = withFate fate rest := by
  rw [withFate, List.filter_cons_of_neg (by simpa using h), withFate]

theorem withFate_map_below {fate : Fate} (h : Fate.below ≠ fate) (all : List Styled) :
    withFate fate (all.map fun styled => (styled, .below)) = [] := by
  induction all with
  | nil => rfl
  | cons styled rest ih => rw [List.map_cons, withFate_cons_other h, ih]

theorem map_fst_fates (includeHidden : Bool) (skip : Option Nat) (all : List Styled) :
    (fates includeHidden skip all).map (·.1) = all := by
  induction all generalizing skip with
  | nil => rfl
  | cons styled rest ih =>
      unfold fates
      split
      · rw [List.map_cons, ih]
      · split
        · rw [List.map_cons, ih]
        · rw [List.map_cons, ih]

theorem mem_of_mem_withFate {includeHidden : Bool} {skip : Option Nat} {fate : Fate}
    {all : List Styled} {styled : Styled}
    (h : styled ∈ withFate fate (fates includeHidden skip all)) : styled ∈ all := by
  obtain ⟨decided, hdecided, rfl⟩ := List.mem_map.1 h
  rw [← map_fst_fates includeHidden skip all]
  exact List.mem_map_of_mem (List.mem_filter.1 hdecided).1

/-! ## The walk of a forest with its styles -/

/-- The walk of the trees of a forest at some depth, with the styles of the nodes. -/
def styledIn (parent : Option Layer) (depth index : Nat) (styles : List Resolved)
    (nodes : List Node) : List Styled :=
  (entriesIn parent depth index nodes).zip styles

theorem zip_append_drop {α β : Type} (first others : List α) (styles : List β) :
    (first ++ others).zip styles =
      first.zip styles ++ others.zip (styles.drop first.length) := by
  induction first generalizing styles with
  | nil => rfl
  | cons a rest ih =>
      cases styles with
      | nil => simp
      | cons style styles =>
          rw [List.cons_append, List.zip_cons_cons, List.zip_cons_cons, ih, List.cons_append,
            List.length_cons, List.drop_succ_cons]

theorem styledIn_cons (parent : Option Layer) (depth index : Nat) (style : Resolved)
    (styles : List Resolved) (layer : Layer) (children rest : List Node) :
    styledIn parent depth index (style :: styles) (⟨layer, children⟩ :: rest) =
      (.ofNode parent depth index ⟨layer, children⟩, style) ::
        (styledIn (some layer) (depth + 1) 0 styles children ++
          styledIn parent depth (index + 1) (styles.drop (countIn children)) rest) := by
  rw [styledIn, entriesIn_cons, List.zip_cons_cons, zip_append_drop, length_entriesIn, styledIn,
    styledIn]

/-- The walk of a forest begins at the depth of its roots. -/
theorem depth_of_mem_head?_styledIn {parent : Option Layer} {depth index : Nat}
    {styles : List Resolved} {nodes : List Node} {next : Styled}
    (h : next ∈ (styledIn parent depth index styles nodes).head?) : next.1.depth = depth := by
  rw [styledIn, List.zip, List.head?_zipWith] at h
  split at h
  · rename_i entry style hentry hstyle
    cases h
    exact depth_of_mem_head?_entriesIn hentry
  · cases h

theorem le_depth_of_mem_styledIn {parent : Option Layer} {depth index : Nat}
    {styles : List Resolved} {nodes : List Node} {styled : Styled}
    (h : styled ∈ styledIn parent depth index styles nodes) : depth ≤ styled.1.depth :=
  le_depth_of_mem_entriesIn (List.of_mem_zip h).1

/-- A hidden node that is left out takes all that is below it along, and nothing else. -/
theorem fates_styledIn_omitted {includeHidden : Bool} {layer : Layer}
    (hhidden : (!layer.visible && !includeHidden) = true) (parent : Option Layer)
    (depth index : Nat) (style : Resolved) (styles : List Resolved) (children rest : List Node) :
    fates includeHidden none
        (styledIn parent depth index (style :: styles) (⟨layer, children⟩ :: rest)) =
      ((.ofNode parent depth index ⟨layer, children⟩, style), .omitted) ::
        ((styledIn (some layer) (depth + 1) 0 styles children).map (fun s => (s, .below)) ++
          fates includeHidden none
            (styledIn parent depth (index + 1) (styles.drop (countIn children)) rest)) := by
  rw [styledIn_cons, fates_cons_omitted _ _ hhidden, fates_append, fates_of_deeper]
  · exact fun styled h => le_depth_of_mem_styledIn h
  · rintro _ ⟨⟩ next hnext
    exact Nat.le_of_eq (depth_of_mem_head?_styledIn hnext)
  · intro styled h next hnext
    rw [depth_of_mem_head?_styledIn hnext]
    exact Nat.le_of_succ_le (le_depth_of_mem_styledIn h)

/-- A node that is kept leaves its children and its siblings to their own fates. -/
theorem fates_styledIn_kept {includeHidden : Bool} {layer : Layer}
    (hkept : (!layer.visible && !includeHidden) = false) (parent : Option Layer)
    (depth index : Nat) (style : Resolved) (styles : List Resolved) (children rest : List Node) :
    fates includeHidden none
        (styledIn parent depth index (style :: styles) (⟨layer, children⟩ :: rest)) =
      ((.ofNode parent depth index ⟨layer, children⟩, style), .kept) ::
        (fates includeHidden none (styledIn (some layer) (depth + 1) 0 styles children) ++
          fates includeHidden none
            (styledIn parent depth (index + 1) (styles.drop (countIn children)) rest)) := by
  rw [styledIn_cons, fates_cons_kept _ _ hkept, fates_append]
  · rintro _ ⟨⟩
  · intro styled h next hnext
    rw [depth_of_mem_head?_styledIn hnext]
    exact Nat.le_of_succ_le (le_depth_of_mem_styledIn h)

/-- There is a style for every node of a forest, and each node is left out with what is below it
or kept. Induction on this goes through the forest as emission does. -/
inductive Suffice (includeHidden : Bool) : List Resolved → List Node → Prop where
  | nil (styles : List Resolved) : Suffice includeHidden styles []
  | omitted {layer : Layer} {children rest : List Node} {style : Resolved} {styles : List Resolved}
      (hidden : (!layer.visible && !includeHidden) = true)
      (others : Suffice includeHidden (styles.drop (countIn children)) rest) :
      Suffice includeHidden (style :: styles) (⟨layer, children⟩ :: rest)
  | kept {layer : Layer} {children rest : List Node} {style : Resolved} {styles : List Resolved}
      (shown : (!layer.visible && !includeHidden) = false)
      (below : Suffice includeHidden styles children)
      (others : Suffice includeHidden (styles.drop (countIn children)) rest) :
      Suffice includeHidden (style :: styles) (⟨layer, children⟩ :: rest)

theorem suffice_of_le (includeHidden : Bool) {styles : List Resolved} {nodes : List Node}
    (h : countIn nodes ≤ styles.length) : Suffice includeHidden styles nodes := by
  induction nodes using forest_induction generalizing styles with
  | nil => exact .nil styles
  | cons layer children rest ihChildren ihRest =>
      rw [countIn_cons] at h
      cases styles with
      | nil => rw [List.length_nil] at h; omega
      | cons style styles =>
          rw [List.length_cons] at h
          have hrest : countIn rest ≤ (styles.drop (countIn children)).length := by
            rw [List.length_drop]; omega
          cases hhidden : (!layer.visible && !includeHidden) with
          | true => exact .omitted hhidden (ihRest hrest)
          | false => exact .kept hhidden (ihChildren (by omega)) (ihRest hrest)

/-! ## Pieces -/

theorem runMarkup_eq (layer : Layer) (classes : Classes) (run : ResolvedRun) :
    runMarkup layer classes run =
      ((Sketch.ofRun layer run).markup (classes.serve (Sketch.ofRun layer run).requests).classOf,
        classes.serve (Sketch.ofRun layer run).requests) := by
  cases hempty : run.record.isEmpty with
  | true =>
      simp only [runMarkup, Classes.classFor_of_isEmpty classes hempty, Sketch.ofRun, hempty,
        if_true, Sketch.markup, Sketch.requests]
      rfl
  | false =>
      let request : ClassRequest :=
        ⟨run.record, layer.name ++ " run", layer.kind.label ++ " run"⟩
      obtain ⟨given, hgiven⟩ :=
        (Classes.knows_give classes request).exists_classOf hempty
      have hanswer : classes.classFor run.record (layer.name ++ " run")
          (layer.kind.label ++ " run") = (some given, classes.give request) := by
        rw [← hgiven]
        exact Classes.classFor_eq classes run.record request.name request.fallback
      have hsketch : Sketch.ofRun layer run =
          .element "span" request [] [.text run.run.text] := by
        rw [Sketch.ofRun, hempty]; rfl
      have hserve : classes.serve (Sketch.ofRun layer run).requests = classes.give request := by
        rw [hsketch]; rfl
      rw [hserve, hsketch, Sketch.markup, show request.record = run.record from rfl, hgiven]
      simp only [runMarkup, hanswer]
      rfl

theorem runsMarkup_eq (layer : Layer) (classes : Classes) (runs : List ResolvedRun) :
    runsMarkup layer classes runs =
      (Sketch.markupIn (classes.serve (Sketch.requestsIn (runs.map (Sketch.ofRun layer)))).classOf
          (runs.map (Sketch.ofRun layer)),
        classes.serve (Sketch.requestsIn (runs.map (Sketch.ofRun layer)))) := by
  induction runs generalizing classes with
  | nil => rfl
  | cons run rest ih =>
      simp only [runsMarkup, runMarkup_eq, ih, List.map_cons, Sketch.requestsIn,
        Classes.serve_append, Sketch.markupIn]
      refine Prod.ext (congrArg (· :: _) (Sketch.markup_congr _ fun q hq => ?_)) rfl
      exact ((Classes.knows_serve hq).classOf_eq (Classes.keeps_serve _ _)).symm

theorem textMarkup_eq (layer : Layer) (characters : String) (classes : Classes)
    (runs : List ResolvedRun) :
    textMarkup layer characters classes runs =
      (Sketch.markupIn
          (classes.serve (Sketch.requestsIn (Sketch.ofText layer characters runs))).classOf
          (Sketch.ofText layer characters runs),
        classes.serve (Sketch.requestsIn (Sketch.ofText layer characters runs))) := by
  unfold textMarkup Sketch.ofText
  split
  · split
    · rfl
    · rfl
  · exact runsMarkup_eq layer classes runs

/-- The requests of a node, and of the spans of its text. -/
def requestsOf (styled : Styled) : List ClassRequest :=
  Sketch.nodeRequest styled.1.layer styled.2 ::
    Sketch.requestsIn (Sketch.ownContent styled.1.layer styled.2)

/-- The piece of a node, once there is a class for every record. -/
def pieceWith (emitNodeIds : Bool) (classOf : Record → Option String) (styled : Styled) : Piece :=
  ⟨styled.1.depth,
    ⟨Sketch.nodeName styled.1.layer.kind, classOf styled.2.record,
      Sketch.nodeAttributes emitNodeIds styled.1.layer⟩,
    Sketch.markupIn classOf (Sketch.ownContent styled.1.layer styled.2)⟩

theorem pieceWith_congr {f g : Record → Option String} {styled : Styled}
    (h : ∀ q ∈ requestsOf styled, f q.record = g q.record) (emitNodeIds : Bool) :
    pieceWith emitNodeIds f styled = pieceWith emitNodeIds g styled := by
  rw [requestsOf, List.forall_mem_cons] at h
  have hown : f styled.2.record = g styled.2.record := h.1
  rw [pieceWith, pieceWith, hown, Sketch.markupIn_congr _ h.2]

theorem pieceOf_eq (emitNodeIds : Bool) (styled : Styled) (classes : Classes) :
    pieceOf emitNodeIds styled classes =
      (pieceWith emitNodeIds (classes.serve (requestsOf styled)).classOf styled,
        classes.serve (requestsOf styled)) := by
  obtain ⟨⟨⟨layer, children⟩, depth, parentId, placement, index⟩, style⟩ := styled
  have hclass : (classes.serve (requestsOf (⟨⟨layer, children⟩, depth, parentId, placement, index⟩,
      style))).classOf style.record =
      (classes.give (Sketch.nodeRequest layer style)).classOf style.record :=
    (Classes.knows_give classes (Sketch.nodeRequest layer style)).classOf_eq
      (Classes.keeps_serve _ _)
  simp only [pieceOf, pieceWith, hclass, Entry.layer, elementName, kindAttributes, idAttributes,
    Sketch.nodeName, Sketch.nodeAttributes]
  simp only [Classes.classFor_eq, requestsOf, Classes.serve_cons, Sketch.nodeRequest,
    Sketch.ownContent]
  cases layer.kind with
  | text block => simp only [textMarkup_eq]
  | _ => simp only [Sketch.requestsIn, Sketch.markupIn, Classes.serve_nil]

/-- The pieces of some nodes are as the classes would have them that are known in the end. -/
theorem piecesOf_eq (emitNodeIds : Bool) (all : List Styled) (classes : Classes) :
    piecesOf emitNodeIds all classes =
      (all.map (pieceWith emitNodeIds (classes.serve (all.flatMap requestsOf)).classOf),
        classes.serve (all.flatMap requestsOf)) := by
  induction all generalizing classes with
  | nil => rfl
  | cons styled rest ih =>
      simp only [piecesOf, pieceOf_eq, ih, List.flatMap_cons, Classes.serve_append, List.map_cons]
      refine Prod.ext (congrArg (· :: _) (pieceWith_congr (fun q hq => ?_) _)) rfl
      exact ((Classes.knows_serve hq).classOf_eq (Classes.keeps_serve _ _)).symm

/-! ## Assembly -/

namespace Assembly

/-- Finished markup put into the innermost open element, or among the roots. -/
def append (a : Assembly) (done : List Markup) : Assembly :=
  match a.opened with
  | [] => ⟨[], a.roots ++ done⟩
  | e :: rest => ⟨{ e with children := e.children ++ done } :: rest, a.roots⟩

theorem append_nil (a : Assembly) : a.append [] = a := by
  obtain ⟨opened, roots⟩ := a
  cases opened with
  | nil => simp only [append, List.append_nil]
  | cons e rest => simp only [append, List.append_nil]

theorem append_append (a : Assembly) (first others : List Markup) :
    (a.append first).append others = a.append (first ++ others) := by
  obtain ⟨opened, roots⟩ := a
  cases opened with
  | nil => simp only [append, List.append_assoc]
  | cons e rest => simp only [append, List.append_assoc]

theorem length_opened_append (a : Assembly) (done : List Markup) :
    (a.append done).opened.length = a.opened.length := by
  obtain ⟨opened, roots⟩ := a
  cases opened with
  | nil => rfl
  | cons e rest => rfl

theorem length_opened_close (a : Assembly) : a.close.opened.length = a.opened.length - 1 := by
  obtain ⟨opened, roots⟩ := a
  cases opened with
  | nil => rfl
  | cons e rest =>
      cases rest with
      | nil => rfl
      | cons parent rest => rfl

/-- An element on top of an assembly, when it is completed, is appended to what is below. -/
theorem close_mk_cons (a : Assembly) (e : Opened) :
    close ⟨e :: a.opened, a.roots⟩ = a.append [.element e.tag e.children] := by
  obtain ⟨opened, roots⟩ := a
  cases opened with
  | nil => rfl
  | cons parent rest => rfl

theorem length_opened_closeTimes (n : Nat) (a : Assembly) :
    (a.closeTimes n).opened.length = a.opened.length - n := by
  induction n generalizing a with
  | zero => rfl
  | succ n ih =>
      rw [closeTimes, ih, length_opened_close]
      omega

theorem closeTimes_add (m n : Nat) (a : Assembly) :
    a.closeTimes (m + n) = (a.closeTimes m).closeTimes n := by
  induction m generalizing a with
  | zero => rw [Nat.zero_add, closeTimes]
  | succ m ih => rw [Nat.succ_add, closeTimes, ih, closeTimes]

theorem length_opened_closeTo (depth : Nat) (a : Assembly) :
    (a.closeTo depth).opened.length = min a.opened.length depth := by
  rw [closeTo, length_opened_closeTimes]
  omega

theorem closeTo_of_le {depth : Nat} {a : Assembly} (h : a.opened.length ≤ depth) :
    a.closeTo depth = a := by
  rw [closeTo, Nat.sub_eq_zero_of_le h, closeTimes]

/-- Closing to a depth may stop at a greater depth on the way. -/
theorem closeTo_closeTo {depth deeper : Nat} (h : depth ≤ deeper) (a : Assembly) :
    (a.closeTo deeper).closeTo depth = a.closeTo depth := by
  have hsplit : a.opened.length - depth =
      (a.opened.length - deeper) + (min a.opened.length deeper - depth) := by omega
  rw [closeTo.eq_1 depth (a.closeTo deeper), length_opened_closeTo, closeTo.eq_1 depth a, hsplit,
    closeTimes_add, closeTo]

/-- An element that was opened last and has received its children is completed by closing to the
depth at which it was opened. -/
theorem closeTo_append_mk_cons {depth : Nat} {a : Assembly} (h : a.opened.length = depth)
    (tag : Tag) (inner done : List Markup) :
    (append ⟨⟨tag, inner⟩ :: a.opened, a.roots⟩ done).closeTo depth =
      a.append [.element tag (inner ++ done)] := by
  have hone : (⟨tag, inner ++ done⟩ :: a.opened).length - depth = 1 := by
    rw [List.length_cons, h]; omega
  rw [append, closeTo]
  dsimp only
  rw [hone, closeTimes, closeTimes, close_mk_cons]

end Assembly

/-- The pieces of the nodes of a forest that are kept. -/
def keptPieces (options : EmitOptions) (classOf : Record → Option String) (all : List Styled) :
    List Piece :=
  (withFate .kept (fates options.includeHidden none all)).map
    (pieceWith options.emitNodeIds classOf)

/-- Pushing the nodes of a forest leaves the elements above it open and untouched; the elements of
the forest are appended to the innermost of them. -/
theorem closeTo_foldl_push {options : EmitOptions} {styles : List Resolved} {nodes : List Node}
    (h : Suffice options.includeHidden styles nodes) (classOf : Record → Option String)
    (parent : Option Layer) (depth index : Nat) (a : Assembly) (ha : depth ≤ a.opened.length) :
    ((keptPieces options classOf (styledIn parent depth index styles nodes)).foldl
        Assembly.push a).closeTo depth =
      (a.closeTo depth).append
        (Sketch.markupIn classOf (Sketch.ofForest options styles nodes)) := by
  induction h generalizing parent depth index a with
  | nil styles =>
      rw [Sketch.ofForest, Sketch.markupIn, Assembly.append_nil]
      rfl
  | omitted hidden others ih =>
      rw [keptPieces, fates_styledIn_omitted hidden, withFate_cons_other (by decide),
        withFate_append, withFate_map_below (by decide), List.nil_append, ← keptPieces,
        Sketch.ofForest_cons_omitted options hidden]
      exact ih _ _ _ a ha
  | @kept layer children rest style styles shown below others ihBelow ihOthers =>
      rw [keptPieces, fates_styledIn_kept shown, withFate_cons_same, withFate_append,
        List.map_cons, List.map_append, ← keptPieces, ← keptPieces, List.foldl_cons,
        List.foldl_append, Sketch.ofForest_cons_kept options shown, Sketch.markupIn]
      -- `b` has the element of the node open on top of what was open above it
      let piece : Piece :=
        pieceWith options.emitNodeIds classOf
          (Entry.ofNode parent depth index ⟨layer, children⟩, style)
      let b := a.push piece
      have hbase : (a.closeTo depth).opened.length = depth := by
        rw [Assembly.length_opened_closeTo]; omega
      have hb : b = ⟨⟨piece.tag, piece.inner⟩ :: (a.closeTo depth).opened,
        (a.closeTo depth).roots⟩ := rfl
      have hbLength : b.opened.length = depth + 1 := by
        rw [hb, List.length_cons, hbase]
      have hbelow := ihBelow (some layer) (depth + 1) 0 b (Nat.le_of_eq hbLength.symm)
      rw [Assembly.closeTo_of_le (Nat.le_of_eq hbLength)] at hbelow
      -- `x` is where the pieces of the children lead
      generalize hx : (keptPieces options classOf
        (styledIn (some layer) (depth + 1) 0 styles children)).foldl Assembly.push b = x at hbelow
      have hxLength : depth ≤ x.opened.length := by
        have hmin := congrArg (fun y => y.opened.length) hbelow
        rw [Assembly.length_opened_append, hbLength, Assembly.length_opened_closeTo] at hmin
        omega
      have hxClose : x.closeTo depth = (a.closeTo depth).append
          [(Sketch.nodeElement options layer style
            (Sketch.ofForest options styles children)).markup classOf] := by
        rw [← Assembly.closeTo_closeTo (Nat.le_succ depth), hbelow, hb,
          Assembly.closeTo_append_mk_cons hbase, Sketch.nodeElement, Sketch.markup,
          Sketch.markupIn_append]
        rfl
      have hothers := ihOthers parent depth (index + 1) x hxLength
      rw [hxClose, Assembly.append_append] at hothers
      exact hothers

theorem assemble_keptPieces (options : EmitOptions) (classOf : Record → Option String)
    {styles : List Resolved} {roots : List Node}
    (h : Suffice options.includeHidden styles roots) :
    assemble (keptPieces options classOf (styledIn none 0 0 styles roots)) =
      Sketch.markupIn classOf (Sketch.ofForest options styles roots) := by
  rw [assemble, closeTo_foldl_push h classOf none 0 0 .empty (Nat.zero_le _)]
  rfl

/-! ## Requests and remarks -/

theorem flatMap_requestsOf_kept {options : EmitOptions} {styles : List Resolved}
    {nodes : List Node} (h : Suffice options.includeHidden styles nodes) (parent : Option Layer)
    (depth index : Nat) :
    (withFate .kept (fates options.includeHidden none
        (styledIn parent depth index styles nodes))).flatMap requestsOf =
      Sketch.requestsIn (Sketch.ofForest options styles nodes) := by
  induction h generalizing parent depth index with
  | nil styles => rfl
  | omitted hidden others ih =>
      rw [fates_styledIn_omitted hidden, withFate_cons_other (by decide), withFate_append,
        withFate_map_below (by decide), List.nil_append,
        Sketch.ofForest_cons_omitted options hidden]
      exact ih _ _ _
  | kept shown below others ihBelow ihOthers =>
      rw [fates_styledIn_kept shown, withFate_cons_same, withFate_append, List.flatMap_cons,
        List.flatMap_append, ihBelow, ihOthers, Sketch.ofForest_cons_kept options shown,
        Sketch.requestsIn, Sketch.nodeElement, Sketch.requests, Sketch.requestsIn_append,
        requestsOf, List.cons_append, List.cons_append, List.append_assoc]
      rfl

/-- The nodes that are kept are those that are neither hidden nor below a hidden node, or all if
hidden nodes are not left out. -/
theorem map_layer_kept {includeHidden : Bool} {styles : List Resolved} {nodes : List Node}
    (h : Suffice includeHidden styles nodes) (parent : Option Layer) (depth index : Nat) :
    (withFate .kept (fates includeHidden none
        (styledIn parent depth index styles nodes))).map (·.1.layer) =
      shownIn includeHidden nodes := by
  induction h generalizing parent depth index with
  | nil styles => rfl
  | omitted hidden others ih =>
      rw [fates_styledIn_omitted hidden, withFate_cons_other (by decide), withFate_append,
        withFate_map_below (by decide), List.nil_append, ih, shownIn_cons, if_pos hidden,
        List.nil_append]
  | kept shown below others ihBelow ihOthers =>
      rw [fates_styledIn_kept shown, withFate_cons_same, withFate_append, List.map_cons,
        List.map_append, ihBelow, ihOthers, shownIn_cons, if_neg (by simpa using shown),
        List.cons_append]
      rfl

/-- The nodes that are left out, apart from those below them, are the outermost hidden nodes. -/
theorem map_layer_omitted {includeHidden : Bool} {styles : List Resolved} {nodes : List Node}
    (h : Suffice includeHidden styles nodes) (parent : Option Layer) (depth index : Nat) :
    (withFate .omitted (fates includeHidden none
        (styledIn parent depth index styles nodes))).map (·.1.layer) =
      if includeHidden then [] else outermostHiddenIn nodes := by
  induction h generalizing parent depth index with
  | nil styles => cases includeHidden <;> rfl
  | @omitted layer children rest style styles hidden others ih =>
      obtain ⟨hvisible, hinclude⟩ : layer.visible = false ∧ includeHidden = false := by
        simpa using hidden
      rw [fates_styledIn_omitted hidden, withFate_cons_same, withFate_append,
        withFate_map_below (by decide), List.nil_append, List.map_cons, ih, outermostHiddenIn_cons,
        hvisible, hinclude]
      rfl
  | @kept layer children rest style styles shown below others ihBelow ihOthers =>
      rw [fates_styledIn_kept shown, withFate_cons_other (by decide), withFate_append,
        List.map_append, ihBelow, ihOthers, outermostHiddenIn_cons]
      cases hinclude : includeHidden with
      | true => rfl
      | false =>
          have hvisible : layer.visible = true := by simpa [hinclude] using shown
          rw [hvisible]
          rfl

/-! ## The whole emission -/

/-- The classes of an emission, given in the order in which its elements occur. -/
def classesOf (options : EmitOptions) (sketches : List Sketch) : Classes :=
  (Classes.fresh options.classStart).serve (Sketch.requestsIn sketches)

/-- The remarks on the hidden nodes of a forest, if they are left out. -/
def omissions (options : EmitOptions) (roots : List Node) : Diagnostics :=
  if options.includeHidden then []
  else (outermostHiddenIn roots).map fun layer =>
    .info layer.id "hidden node omitted from markup"

/-- The emission of a walk is the sketch of its forest with the classes put in. -/
theorem ofStyled_eq (options : EmitOptions) {styles : List Resolved} {roots : List Node}
    (hstyles : countIn roots ≤ styles.length) :
    ofStyled options ((preorder roots).zip styles) =
      let sketches := Sketch.ofForest options styles roots
      ⟨Sketch.markupIn (classesOf options sketches).classOf sketches,
        (classesOf options sketches).rules, omissions options roots⟩ := by
  have hsuffice := suffice_of_le options.includeHidden hstyles
  have hrequests := flatMap_requestsOf_kept hsuffice none 0 0
  have homitted := map_layer_omitted hsuffice none 0 0
  have hmarkup := assemble_keptPieces options
    (classesOf options (Sketch.ofForest options styles roots)).classOf hsuffice
  rw [styledIn, ← preorder] at hrequests homitted hmarkup
  have homissions : (withFate .omitted (fates options.includeHidden none
      ((preorder roots).zip styles))).map omission = omissions options roots := by
    have hmap := congrArg (List.map fun layer : Layer =>
      Diagnostic.info layer.id "hidden node omitted from markup") homitted
    rw [List.map_map] at hmap
    refine hmap.trans ?_
    unfold omissions
    cases options.includeHidden with
    | true => rfl
    | false => rfl
  simp only [ofStyled, piecesOf_eq, hrequests, homissions]
  rw [← classesOf, ← hmarkup]
  rfl

/-- Styles that name the nodes of a walk in order are paired with them. -/
theorem pair_of_ids_eq {entries : List Entry} {resolved : List Resolved}
    (h : resolved.map (·.nodeId) = entries.map (·.id)) :
    pair entries resolved = .ok (entries.zip resolved) := by
  have hlength : entries.length = resolved.length := by
    have := congrArg List.length h
    rw [List.length_map, List.length_map] at this
    exact this.symm
  rw [pair, if_neg (by simpa using hlength), List.find?_eq_none.2]
  rintro ⟨entry, style⟩ hmem
  obtain ⟨i, hi, hget⟩ := List.getElem_of_mem hmem
  rw [List.getElem_zip, Prod.mk.injEq] at hget
  have hid := congrArg (·[i]?) h
  rw [List.length_zip] at hi
  simp only [List.getElem?_map] at hid
  rw [List.getElem?_eq_getElem (by omega), List.getElem?_eq_getElem (by omega), hget.1,
    hget.2] at hid
  simpa using hid.symm

theorem emit_of_ids_eq (options : EmitOptions) {roots : List Node} {resolved : List Resolved}
    (h : resolved.map (·.nodeId) = (preorder roots).map (·.id)) :
    emit options (preorder roots) resolved =
      let sketches := Sketch.ofForest options resolved roots
      .ok ⟨Sketch.markupIn (classesOf options sketches).classOf sketches,
        (classesOf options sketches).rules, omissions options roots⟩ := by
  have hstyles : countIn roots ≤ resolved.length := by
    have hlength := congrArg List.length h
    rw [List.length_map, List.length_map, preorder, length_entriesIn] at hlength
    exact Nat.le_of_eq hlength.symm
  rw [emit, pair_of_ids_eq h, Except.map, ofStyled_eq options hstyles]

/-- Emission of a walk succeeds with any styles that name its nodes in order, and its markup is
the forest itself, drawn by recursion: each node that is not left out is one element, which holds
the content of the node and then the elements of its children. The outermost hidden nodes are
remarked on, in order, if hidden nodes are left out. -/
theorem emit_walk_eq_sketch (options : EmitOptions) (roots : List Node) (resolved : List Resolved)
    (h : resolved.map (·.nodeId) = (Walker.start roots).rest.map (·.id)) :
    emit options (Walker.start roots).rest resolved =
      let sketches := Sketch.ofForest options resolved roots
      .ok ⟨Sketch.markupIn (classesOf options sketches).classOf sketches,
        (classesOf options sketches).rules, omissions options roots⟩ := by
  rw [Walker.rest_start] at h ⊢
  exact emit_of_ids_eq options h

/-- A hidden first child is left out with what is below it; its sibling and the other roots keep
their places. -/
theorem emit_walk_eq_sketch_hidden_child :
    let hidden : Node := ⟨{ Layer.ofKind "b" (.placeholder "X") with visible := false },
      [⟨Layer.ofKind "c" (.placeholder "Y"), []⟩]⟩
    let text : Node := ⟨Layer.ofKind "d" (.text (.ofStyle "Hi" (.ofFont "Inter" 400 16))), []⟩
    let roots : List Node :=
      [⟨Layer.ofKind "a" (.frame .plain), [hidden, text]⟩,
        ⟨Layer.ofKind "e" (.shape ⟨.star, .uniform 0⟩), []⟩,
        ⟨Layer.ofKind "f" (.placeholder "Z"), []⟩]
    let resolved : List Resolved := ["a", "b", "c", "d", "e", "f"].map fun id => ⟨id, .empty, []⟩
    resolved.map (·.nodeId) = (Walker.start roots).rest.map (·.id) ∧
      emit ⟨"", false, true⟩ (Walker.start roots).rest resolved =
        .ok ⟨[.element ⟨"div", none, [("data-node-id", "a")]⟩
              [.element ⟨"p", none, [("data-node-id", "d")]⟩ [.text "Hi"]],
            .element ⟨"div", none, [("data-shape", "star"), ("data-node-id", "e")]⟩ [],
            .element ⟨"div", none, [("data-placeholder", "Z"), ("data-node-id", "f")]⟩ []], [],
          [.info "b" "hidden node omitted from markup"]⟩ := by
  intro hidden text roots resolved
  have h : resolved.map (·.nodeId) = (Walker.start roots).rest.map (·.id) := rfl
  exact ⟨h, (emit_walk_eq_sketch ⟨"", false, true⟩ roots resolved h).trans rfl⟩

end SceneMarkup.Emission
