/-
  SceneMarkup/Proofs/Document/Content.lean --- what stands on the pages of a document,
  and when the document is accepted.

  WHAT THIS FILE IS FOR.  The five forms of a document differ in where their top-level
  nodes stand (`contents`) and in how messages name them; the conversion is then the
  same (`convertRoot_eq`).  So an accepted document is one whose pages are lists and
  whose objects can all be used and have ids of their own, and its scene is those
  objects read place by place (`accepted_of_ofValue`, `ofValue_of_acceptable`).
-/
import SceneMarkup.Proofs.Document.Traversal

set_option autoImplicit false

namespace SceneMarkup.Document

open Json (Fields Value)
open RoseTree (labelsIn mapIn)

/-! ## The content of a document -/

/-- What a page or a document node contains; it contains nothing if that is no list. -/
def containedNodes : Value → List Value
  | .object fields => childrenOf fields
  | _ => []

/-- The nodes on a page; a node that is not on a page stands for itself. -/
def pageContents (page : Value) : List Value :=
  if isPage (typeOf? page) then containedNodes page else [page]

/-- The top-level nodes of a document: the items of a list, the nodes on the pages of a document
node, those on a page, or a single node. -/
def rootContents (root : Value) : List Value :=
  match root with
  | .array items => items
  | _ =>
      if typeOf? root = some "DOCUMENT" then (containedNodes root).flatMap pageContents
      else pageContents root

/-- The top-level nodes of a document, whether or not they come in an envelope. -/
def contents (v : Value) : List Value := rootContents (unwrap v).2

/-- The objects of the nodes of a document. -/
def sceneForest (v : Value) : List (RoseTree Fields) := sceneObjectsIn (contents v)

/-! ## Top-level nodes with their names in messages -/

/-- The nodes on a page that messages call `context`. -/
def containedItems (context place : String) (container : Value) :
    Except RootError (List (String × Value)) :=
  (containedIn context container).map (asChildren place 0)

/-- What a document node contains at a position: the nodes on a page, or a node. -/
def pageItems (index : Nat) (page : Value) : Except RootError (List (String × Value)) :=
  if isPage (typeOf? page) then
    let context := "page[" ++ toString index ++ "]"
    containedItems context context page
  else .ok [("document.children[" ++ toString index ++ "]", page)]

/-- What a document node contains, the first of it at `index`. -/
def pagesItems (index : Nat) : List Value → Except RootError (List (String × Value))
  | [] => .ok []
  | page :: rest => do
      let first ← pageItems index page
      return first ++ (← pagesItems (index + 1) rest)

/-- The top-level nodes below the root of a document. -/
def rootItems (root : Value) : Except RootError (List (String × Value)) :=
  match typeOf? root with
  | some "DOCUMENT" => do pagesItems 0 (← containedIn "DOCUMENT" root)
  | some tag =>
      if isPage (some tag) then containedItems "page" "page" root else .ok [("root", root)]
  | none =>
      match root with
      | .array items => .ok (asChildren "root" 0 items)
      | .object fields => .ok [("root", .object fields)]
      | other => .error (.notNodes other.kind)

theorem convertEach_singleton (context : String) (seen : List String) (v : Value) :
    convertEach seen [(context, v)] = (convertNode context seen v).toForest := by
  simp only [convertEach, Converted.append, List.append_nil]

theorem convertPage_eq (index : Nat) (seen : List String) (page : Value) :
    convertPage index seen page = (pageItems index page).map (convertEach seen) := by
  rw [convertPage, pageItems]
  split
  · cases h : containedIn ("page[" ++ toString index ++ "]") page with
    | error e => simp only [containedItems, h]; rfl
    | ok items => simp only [containedItems, h, convertAll_eq]; rfl
  · rw [Except.map, convertEach_singleton]

theorem convertPages_eq (index : Nat) (seen : List String) (pages : List Value) :
    convertPages index seen pages = (pagesItems index pages).map (convertEach seen) := by
  induction pages generalizing index seen with
  | nil => rfl
  | cons page rest ih =>
      rw [convertPages, pagesItems, convertPage_eq]
      cases pageItems index page with
      | error e => rfl
      | ok first =>
          show (convertPages (index + 1) (convertEach seen first).seen rest >>= fun others =>
            pure ((convertEach seen first).append others)) = _
          rw [ih]
          show _ = Except.map (convertEach seen)
            (pagesItems (index + 1) rest >>= fun others => pure (first ++ others))
          cases pagesItems (index + 1) rest with
          | error e => rfl
          | ok others => exact congrArg Except.ok (convertEach_append seen first others).symm

/-- The conversion of a document is the conversion of its top-level nodes. -/
theorem convertRoot_eq (root : Value) :
    convertRoot root = (rootItems root).map (convertEach []) := by
  unfold convertRoot rootItems
  cases typeOf? root with
  | none =>
      cases root with
      | array items => exact congrArg Except.ok (convertAll_eq "root" 0 [] items)
      | object fields => exact congrArg Except.ok (convertEach_singleton "root" [] _).symm
      | _ => rfl
  | some tag =>
      by_cases hdocument : tag = "DOCUMENT"
      · rw [hdocument]
        show (containedIn "DOCUMENT" root >>= fun pages => convertPages 0 [] pages) = _
        cases containedIn "DOCUMENT" root with
        | error e => rfl
        | ok pages => exact convertPages_eq 0 [] pages
      · simp only
        split
        · show (containedIn "page" root >>= fun items => pure (convertAll "page" 0 [] items)) = _
          rw [containedItems]
          cases containedIn "page" root with
          | error e => rfl
          | ok items => exact congrArg Except.ok (convertAll_eq "page" 0 [] items)
        · exact congrArg Except.ok (convertEach_singleton "root" [] root).symm

/-! ## The items are the contents -/

theorem containedNodes_of_containedIn {context : String} {container : Value} {items : List Value}
    (h : containedIn context container = .ok items) : containedNodes container = items := by
  cases container with
  | object fields =>
      rw [containedIn, Value.field?] at h
      rw [containedNodes, childrenOf, childrenOf?]
      cases hget : Fields.get? fields "children" with
      | none =>
          rw [hget] at h
          cases h
          rfl
      | some children =>
          rw [hget] at h
          cases children with
          | null => cases h; rfl
          | array values => cases h; rfl
          | _ => cases h
  | _ => cases h; rfl

theorem map_snd_of_containedItems {context place : String} {container : Value}
    {items : List (String × Value)} (h : containedItems context place container = .ok items) :
    items.map Prod.snd = containedNodes container := by
  rw [containedItems] at h
  cases hcontained : containedIn context container with
  | error e =>
      rw [hcontained] at h
      cases h
  | ok values =>
      rw [hcontained] at h
      cases h
      rw [map_snd_asChildren, containedNodes_of_containedIn hcontained]

theorem map_snd_of_pageItems {index : Nat} {page : Value} {items : List (String × Value)}
    (h : pageItems index page = .ok items) : items.map Prod.snd = pageContents page := by
  rw [pageItems] at h
  rw [pageContents]
  split at h
  · rename_i hpage
    rw [if_pos hpage, map_snd_of_containedItems h]
  · rename_i hpage
    rw [if_neg hpage]
    cases h
    rfl

theorem map_snd_of_pagesItems {index : Nat} {pages : List Value} {items : List (String × Value)}
    (h : pagesItems index pages = .ok items) :
    items.map Prod.snd = pages.flatMap pageContents := by
  induction pages generalizing index items with
  | nil => cases h; rfl
  | cons page rest ih =>
      rw [pagesItems] at h
      cases hfirst : pageItems index page with
      | error e =>
          rw [hfirst] at h
          cases h
      | ok first =>
          cases hothers : pagesItems (index + 1) rest with
          | error e =>
              rw [hfirst, hothers] at h
              cases h
          | ok others =>
              rw [hfirst, hothers] at h
              cases h
              rw [List.map_append, map_snd_of_pageItems hfirst, ih hothers, List.flatMap_cons]

/-- The top-level nodes that are converted are the contents of the document. -/
theorem map_snd_of_rootItems {root : Value} {items : List (String × Value)}
    (h : rootItems root = .ok items) : items.map Prod.snd = rootContents root := by
  cases root with
  | array values =>
      cases h
      exact map_snd_asChildren "root" 0 values
  | object fields =>
      unfold rootItems at h
      unfold rootContents
      dsimp only
      split at h
      · rename_i htype
        rw [if_pos htype]
        cases hpages : containedIn "DOCUMENT" (.object fields) with
        | error e =>
            rw [hpages] at h
            cases h
        | ok pages =>
            rw [hpages] at h
            rw [containedNodes_of_containedIn hpages]
            exact map_snd_of_pagesItems h
      · rename_i tag hdocument htype
        rw [if_neg (by rw [htype]; rintro ⟨⟩; exact hdocument rfl), pageContents, htype]
        split at h
        · rename_i hpage
          rw [if_pos hpage, map_snd_of_containedItems h]
        · rename_i hpage
          rw [if_neg hpage]
          cases h
          rfl
      · rename_i htype
        rw [htype, if_neg nofun, pageContents, htype, isPage]
        cases h
        rfl
  | _ => cases h

/-! ## Accepted documents -/

/-- What an accepted document is: its objects can be used and have ids of their own, and its scene
is those objects read place by place. -/
structure Accepted (v : Value) (parsed : Parsed) : Prop where
  acceptable : Acceptable [] (sceneForest v)
  name_eq : parsed.tree.name = (unwrap v).1
  treesIn_eq : treesIn parsed.tree.roots = mapIn layerOf (sceneForest v)
  diagnostics_eq : parsed.diagnostics = (labelsIn (sceneForest v)).flatMap remarksOn

theorem ofValue_of_rootItems {v : Value} {items : List (String × Value)}
    (h : rootItems (unwrap v).2 = .ok items) :
    ofValue v =
      let found := convertEach [] items
      let errors := found.notes.filter Diagnostic.isError
      if errors.isEmpty then
        .ok ⟨⟨(unwrap v).1, found.value⟩, found.notes.filter fun d => !d.isError⟩
      else .error (.invalid errors) := by
  unfold ofValue
  dsimp only
  rw [convertRoot_eq, h]
  rfl

theorem sceneForest_of_rootItems {v : Value} {items : List (String × Value)}
    (h : rootItems (unwrap v).2 = .ok items) :
    sceneForest v = sceneObjectsIn (items.map Prod.snd) := by
  rw [sceneForest, contents, map_snd_of_rootItems h]

theorem rootItems_of_ofValue {v : Value} {parsed : Parsed} (h : ofValue v = .ok parsed) :
    ∃ items, rootItems (unwrap v).2 = .ok items := by
  cases hitems : rootItems (unwrap v).2 with
  | ok items => exact ⟨items, rfl⟩
  | error e =>
      unfold ofValue at h
      dsimp only at h
      rw [convertRoot_eq, hitems] at h
      cases h

/-- A document whose objects can be used and have ids of their own is accepted, if its pages are
lists. -/
theorem ofValue_of_acceptable {v : Value} {items : List (String × Value)}
    (hitems : rootItems (unwrap v).2 = .ok items) (h : Acceptable [] (sceneForest v)) :
    ∃ parsed, ofValue v = .ok parsed ∧ Accepted v parsed := by
  have hreads :=
    convertEach_reads (sceneForest_of_rootItems hitems ▸ h.mono fun _ => Usable.regular)
  rw [← sceneForest_of_rootItems hitems] at hreads
  have hnone : ∀ d ∈ (convertEach [] items).notes, d.isError = false := by
    intro d hd
    rw [hreads.notes_eq, List.mem_flatMap] at hd
    obtain ⟨fields, hfields, hd⟩ := hd
    exact (h.each fields hfields).isError_eq_false d hd
  have herrors : (convertEach [] items).notes.filter Diagnostic.isError = [] :=
    List.filter_eq_nil_iff.2 fun d hd => by rw [hnone d hd]; exact Bool.false_ne_true
  have hrest : (convertEach [] items).notes.filter (fun d => !d.isError) =
      (convertEach [] items).notes :=
    List.filter_eq_self.2 fun d hd => by rw [hnone d hd]; rfl
  refine ⟨⟨⟨(unwrap v).1, (convertEach [] items).value⟩, (convertEach [] items).notes⟩, ?_,
    h, rfl, hreads.trees_eq h.each, hreads.notes_eq⟩
  rw [ofValue_of_rootItems hitems]
  dsimp only
  rw [herrors, hrest]
  rfl

/-- A document whose objects can be visited is rejected with the errors of its objects, in order, if
there are any. -/
theorem ofValue_eq_invalid {v : Value} {items : List (String × Value)}
    (hitems : rootItems (unwrap v).2 = .ok items) (h : Visitable [] (sceneForest v))
    (herror : ∃ fields ∈ labelsIn (sceneForest v), ∃ d ∈ remarksOn fields, d.isError = true) :
    ofValue v = .error (.invalid
      (((labelsIn (sceneForest v)).flatMap remarksOn).filter Diagnostic.isError)) := by
  have hreads := convertEach_reads (sceneForest_of_rootItems hitems ▸ h)
  rw [← sceneForest_of_rootItems hitems] at hreads
  rw [ofValue_of_rootItems hitems]
  dsimp only
  rw [hreads.notes_eq, if_neg]
  rw [List.isEmpty_iff, List.filter_eq_nil_iff]
  obtain ⟨fields, hfields, d, hd, hisError⟩ := herror
  exact fun hnone => hnone d (List.mem_flatMap.2 ⟨fields, hfields, hd⟩) hisError

theorem accepted_of_ofValue {v : Value} {parsed : Parsed} (h : ofValue v = .ok parsed) :
    Accepted v parsed := by
  obtain ⟨items, hitems⟩ := rootItems_of_ofValue h
  have hacceptable : Acceptable [] (sceneForest v) := by
    rw [sceneForest_of_rootItems hitems]
    refine convertEach_sound List.nodup_nil fun d hd => ?_
    rw [ofValue_of_rootItems hitems] at h
    dsimp only at h
    split at h
    · rename_i hnone
      rw [List.isEmpty_iff, List.filter_eq_nil_iff] at hnone
      exact Bool.not_eq_true _ ▸ hnone d hd
    · cases h
  obtain ⟨parsed', hparsed, haccepted⟩ := ofValue_of_acceptable hitems hacceptable
  rw [h] at hparsed
  cases hparsed
  exact haccepted

end SceneMarkup.Document
