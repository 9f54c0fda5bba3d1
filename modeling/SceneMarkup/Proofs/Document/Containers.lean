/-
  SceneMarkup/Proofs/Document/Containers.lean --- the containers around the nodes of a
  document.

  WHAT THIS FILE IS FOR.  The same nodes may come as a list, on a page, on several pages of
  a document node, and in an envelope around any of these (`Contains`).  The conversion goes
  over the same nodes in each case, and only the places that messages name are not the same
  (`SameButPlace`): an id that comes twice is found wherever it comes
  (`containers_irrelevant`).
-/
import Mathlib.Data.List.Forall2
import SceneMarkup.Proofs.Document.Content

set_option autoImplicit false

namespace SceneMarkup

/-! ## Messages that name places -/

/-- Two remarks that are the same, or two errors that say the same of a node, which has no id or is
called by its place all the same, and name its place differently. -/
inductive Diagnostic.SameButPlace : Diagnostic → Diagnostic → Prop where
  | same (d : Diagnostic) : SameButPlace d d
  | notObject (place place' : String) :
      SameButPlace (.error none (place ++ ": expected a node object"))
        (.error none (place' ++ ": expected a node object"))
  | noId (place place' : String) :
      SameButPlace (.error none (place ++ ": missing required field `id`"))
        (.error none (place' ++ ": missing required field `id`"))
  | children (nodeId : Option String) (place place' : String) :
      SameButPlace (.error nodeId (place ++ ": field `children` must be an array"))
        (.error nodeId (place' ++ ": field `children` must be an array"))

/-- The error of an id that was seen before. -/
def Diagnostic.duplicateId (id : String) : Diagnostic :=
  .error (some id) ("duplicate node id `" ++ id ++ "`")

/-- Whether a remark is the error of an id that was seen before. -/
def Diagnostic.isDuplicateId (d : Diagnostic) : Bool :=
  d.nodeId.any fun id => d == duplicateId id

namespace Diagnostic.SameButPlace

variable {d e : Diagnostic}

theorem nodeId_eq (h : SameButPlace d e) : d.nodeId = e.nodeId := by
  cases h <;> rfl

theorem isError_eq (h : SameButPlace d e) : d.isError = e.isError := by
  cases h <;> rfl

/-- A message on children that are no list is not one on an id. -/
theorem isDuplicateId_children (nodeId : Option String) (place : String) :
    (Diagnostic.error nodeId
      (place ++ ": field `children` must be an array")).isDuplicateId = false := by
  rw [isDuplicateId, Diagnostic.error]
  cases nodeId with
  | none => rfl
  | some id =>
      simp only [Option.any_some, beq_eq_false_iff_ne, ne_eq]
      intro heq
      -- the one message ends in a letter, the other in a backquote
      have hends := congrArg (fun e : Diagnostic => e.message.toList.getLast?) heq
      rw [duplicateId, Diagnostic.error] at hends
      simp [List.getLast?_cons] at hends

theorem isDuplicateId_eq (h : SameButPlace d e) : d.isDuplicateId = e.isDuplicateId := by
  cases h with
  | same => rfl
  | notObject place place' => rfl
  | noId place place' => rfl
  | children nodeId place place' => rw [isDuplicateId_children, isDuplicateId_children]

/-- The places are named in errors alone, and not in those of ids that were seen before. -/
theorem eq_of_placeless (h : SameButPlace d e) (hd : d.isError = false ∨ d.isDuplicateId = true) :
    d = e := by
  cases h with
  | same => rfl
  | notObject place place' => rcases hd with hd | hd <;> cases hd
  | noId place place' => rcases hd with hd | hd <;> cases hd
  | children nodeId place place' =>
      rcases hd with hd | hd
      · cases hd
      · rw [isDuplicateId_children] at hd
        cases hd

end Diagnostic.SameButPlace

/-- Remarks that are the same one by one, but for the places that they name. -/
abbrev Diagnostics.SameButPlaces (ds es : Diagnostics) : Prop :=
  List.Forall₂ Diagnostic.SameButPlace ds es

namespace Diagnostics.SameButPlaces

variable {ds es : Diagnostics}

theorem refl (ds : Diagnostics) : SameButPlaces ds ds :=
  List.forall₂_same.2 fun d _ => .same d

theorem append_right (h : SameButPlaces ds es) (others : Diagnostics) :
    SameButPlaces (ds ++ others) (es ++ others) := List.rel_append h (refl others)

theorem isEmpty_eq (h : SameButPlaces ds es) : ds.isEmpty = es.isEmpty := by
  cases h <;> rfl

theorem map_nodeId_eq (h : SameButPlaces ds es) : ds.map (·.nodeId) = es.map (·.nodeId) := by
  induction h with
  | nil => rfl
  | cons hhead _ ih => rw [List.map_cons, List.map_cons, hhead.nodeId_eq, ih]

/-- Related remarks are filtered alike by what does not depend on places. -/
theorem filter {p : Diagnostic → Bool} (hp : ∀ d e : Diagnostic, d.SameButPlace e → p d = p e)
    (h : SameButPlaces ds es) : SameButPlaces (ds.filter p) (es.filter p) :=
  List.rel_filter (fun d e hde => Bool.eq_iff_iff.1 (hp d e hde)) h

/-- Remarks that name no places are the same. -/
theorem eq_of_forall (h : SameButPlaces ds es)
    (hds : ∀ d ∈ ds, d.isError = false ∨ d.isDuplicateId = true) : ds = es := by
  induction h with
  | nil => rfl
  | cons hhead _ ih =>
      rw [List.forall_mem_cons] at hds
      rw [hhead.eq_of_placeless hds.1, ih hds.2]

end Diagnostics.SameButPlaces

namespace Document

open Json (Fields Value)

/-! ## Conversions under different names -/

/-- What was built is the same, and so are the ids seen and the remarks, but for the places that
these name. -/
structure Converted.SameButPlaces {α : Type} (a b : Converted α) : Prop where
  value_eq : a.value = b.value
  seen_eq : a.seen = b.seen
  notes : a.notes.SameButPlaces b.notes

namespace Converted.SameButPlaces

theorem refl {α : Type} (a : Converted α) : a.SameButPlaces a := ⟨rfl, rfl, .refl a.notes⟩

theorem toForest {a b : Converted (Option Node)} (h : a.SameButPlaces b) :
    a.toForest.SameButPlaces b.toForest :=
  ⟨congrArg Option.toList h.value_eq, h.seen_eq, h.notes⟩

theorem append {a b c d : Converted (List Node)} (hfirst : a.SameButPlaces b)
    (hothers : c.SameButPlaces d) : (a.append c).SameButPlaces (b.append d) where
  value_eq := by rw [Converted.append, hfirst.value_eq, hothers.value_eq]; rfl
  seen_eq := hothers.seen_eq
  notes := List.rel_append hfirst.notes hothers.notes

end Converted.SameButPlaces

/-- Nodes are converted alike under any names, if each is. -/
theorem convertEach_sameButPlaces_of_forall {items others : List (String × Value)}
    (hvalues : items.map Prod.snd = others.map Prod.snd)
    (hnode : ∀ v ∈ items.map Prod.snd, ∀ context context' seen,
      (convertNode context seen v).SameButPlaces (convertNode context' seen v))
    (seen : List String) :
    (convertEach seen items).SameButPlaces (convertEach seen others) := by
  induction items generalizing others seen with
  | nil =>
      rw [List.map_nil, eq_comm, List.map_eq_nil_iff] at hvalues
      rw [hvalues]
      exact .refl _
  | cons item rest ih =>
      obtain ⟨context, v⟩ := item
      obtain ⟨⟨context', v'⟩, rest', rfl, hv, hrest⟩ := List.map_eq_cons_iff.1 hvalues.symm
      obtain rfl : v' = v := hv
      rw [List.map_cons, List.forall_mem_cons] at hnode
      have hfirst := (hnode.1 context context' seen).toForest
      refine hfirst.append ?_
      rw [hfirst.seen_eq]
      exact ih hrest.symm hnode.2 _

theorem childrenNotes_sameButPlaces (context context' : String) (fields : Fields) :
    (childrenNotes context fields).SameButPlaces (childrenNotes context' fields) := by
  unfold childrenNotes
  split
  · exact .nil
  · exact .cons (.children _ _ _) .nil

/-- A node is converted alike, whatever messages call it while its id is not known. -/
theorem convertNode_sameButPlaces (v : Value) : ∀ (context context' : String) (seen : List String),
    (convertNode context seen v).SameButPlaces (convertNode context' seen v) := by
  induction v using node_induction with
  | other v hv =>
      intro context context' seen
      cases v with
      | object fields => exact absurd rfl (hv fields)
      | _ => exact ⟨rfl, rfl, .cons (.notObject _ _) .nil⟩
  | object fields ih =>
      intro context context' seen
      have hchildren := childrenNotes_sameButPlaces context context' fields
      rw [convertNode_object, convertNode_object]
      cases hid : idOf? fields with
      | none =>
          -- the children are called by the place of the node
          have hbelow := convertEach_sameButPlaces_of_forall
            ((map_snd_asChildren context 0 (childrenOf fields)).trans
              (map_snd_asChildren context' 0 (childrenOf fields)).symm)
            (fun v hv => ih v (map_snd_asChildren context 0 (childrenOf fields) ▸ hv)) seen
          have hown : Diagnostics.SameButPlaces
              (childrenNotes context fields ++
                [.error none (context ++ ": missing required field `id`")])
              (childrenNotes context' fields ++
                [.error none (context' ++ ": missing required field `id`")]) :=
            List.rel_append hchildren (.cons (.noId _ _) .nil)
          simp only [inspect, hid, convertBelow]
          exact ⟨rfl, hbelow.seen_eq, List.rel_append hown hbelow.notes⟩
      | some id =>
          simp only [inspect_of_idOf? hid]
          exact ⟨rfl, rfl, ((hchildren.append_right _).append_right _).append_right _⟩

/-- Nodes are converted alike, whatever messages call them. -/
theorem convertEach_sameButPlaces {items others : List (String × Value)}
    (h : items.map Prod.snd = others.map Prod.snd) (seen : List String) :
    (convertEach seen items).SameButPlaces (convertEach seen others) :=
  convertEach_sameButPlaces_of_forall h (fun v _ => convertNode_sameButPlaces v) seen

/-! ## Containers -/

/-- A page with some nodes. -/
inductive Page (nodes : List Value) : Value → Prop where
  | intro {fields : Fields} {tag : String} (htag : tagOf? fields = some tag)
      (hpage : tag = "CANVAS" ∨ tag = "PAGE") (hnodes : childrenOf? fields = some nodes) :
      Page nodes (.object fields)

/-- Some nodes in a list, on a page, or on the pages of a document node, one page after the
other. -/
inductive Holds (nodes : List Value) : Value → Prop where
  | list : Holds nodes (.array nodes)
  | page {v : Value} (h : Page nodes v) : Holds nodes v
  | document {fields : Fields} {pages : List Value} {parts : List (List Value)}
      (htag : tagOf? fields = some "DOCUMENT") (hpages : childrenOf? fields = some pages)
      (hparts : List.Forall₂ Page parts pages) (hnodes : parts.flatten = nodes) :
      Holds nodes (.object fields)

/-- Some nodes in a container, which may come in an envelope. -/
inductive Contains (nodes : List Value) : Value → Prop where
  | bare {v : Value} (h : Holds nodes v) : Contains nodes v
  | envelope {fields : Fields} {content : Value} (htype : fields.get? "type" = none)
      (hcontent : fields.get? "document" = some content) (h : Holds nodes content) :
      Contains nodes (.object fields)

theorem typeOf?_object (fields : Fields) : typeOf? (.object fields) = tagOf? fields := rfl

theorem containedIn_of_childrenOf? {fields : Fields} {nodes : List Value}
    (h : childrenOf? fields = some nodes) (context : String) :
    containedIn context (.object fields) = .ok nodes := by
  unfold childrenOf? at h
  unfold containedIn
  rw [Value.field?]
  cases hget : fields.get? "children" with
  | none =>
      rw [hget] at h
      cases h
      rfl
  | some children =>
      rw [hget] at h
      cases children with
      | null => cases h; rfl
      | array items => cases h; rfl
      | _ => cases h

theorem containedItems_of_childrenOf? {fields : Fields} {nodes : List Value}
    (h : childrenOf? fields = some nodes) (context place : String) :
    containedItems context place (.object fields) = .ok (asChildren place 0 nodes) := by
  rw [containedItems, containedIn_of_childrenOf? h]
  rfl

theorem Page.isPage {nodes : List Value} {v : Value} (h : Page nodes v) :
    isPage (typeOf? v) = true := by
  cases h with
  | intro htag hpage =>
      rw [typeOf?_object, htag]
      rcases hpage with rfl | rfl <;> rfl

theorem Page.exists_containedItems {nodes : List Value} {v : Value} (h : Page nodes v)
    (context place : String) :
    ∃ items, containedItems context place v = .ok items ∧ items.map Prod.snd = nodes := by
  cases h with
  | intro _ _ hnodes =>
      exact ⟨_, containedItems_of_childrenOf? hnodes context place, map_snd_asChildren _ _ _⟩

theorem exists_pagesItems {parts : List (List Value)} {pages : List Value}
    (h : List.Forall₂ Page parts pages) (index : Nat) :
    ∃ items, pagesItems index pages = .ok items ∧ items.map Prod.snd = parts.flatten := by
  induction h generalizing index with
  | nil => exact ⟨[], rfl, rfl⟩
  | @cons nodes page parts pages hpage _ ih =>
      obtain ⟨first, hfirst, hnodes⟩ := hpage.exists_containedItems
        ("page[" ++ toString index ++ "]") ("page[" ++ toString index ++ "]")
      obtain ⟨others, hothers, hparts⟩ := ih (index + 1)
      refine ⟨first ++ others, ?_, ?_⟩
      · rw [pagesItems, pageItems, if_pos hpage.isPage, hothers]
        dsimp only
        rw [hfirst]
        rfl
      · rw [List.map_append, hnodes, hparts, List.flatten_cons]

/-- The top-level nodes of a container are those that it holds. -/
theorem Holds.exists_rootItems {nodes : List Value} {v : Value} (h : Holds nodes v) :
    ∃ items, rootItems v = .ok items ∧ items.map Prod.snd = nodes := by
  cases h with
  | list => exact ⟨asChildren "root" 0 nodes, rfl, map_snd_asChildren _ _ _⟩
  | page hpage =>
      obtain ⟨items, hitems, hnodes⟩ := hpage.exists_containedItems "page" "page"
      refine ⟨items, ?_, hnodes⟩
      cases hpage with
      | intro htag hpage =>
          rw [rootItems, typeOf?_object, htag]
          rcases hpage with rfl | rfl <;> exact hitems
  | document htag hpages hparts hnodes =>
      obtain ⟨items, hitems, hitemNodes⟩ := exists_pagesItems hparts 0
      refine ⟨items, ?_, hitemNodes.trans hnodes⟩
      rw [rootItems, typeOf?_object, htag]
      show (containedIn "DOCUMENT" _ >>= fun pages => pagesItems 0 pages) = _
      rw [containedIn_of_childrenOf? hpages]
      exact hitems

theorem get?_type_of_tagOf? {fields : Fields} {tag : String} (h : tagOf? fields = some tag) :
    (fields.get? "type").isSome = true := by
  obtain ⟨v, hget, -⟩ := Option.bind_eq_some_iff.1 h
  rw [hget, Option.isSome_some]

/-- A container without an envelope is its own content. -/
theorem Holds.unwrap_eq {nodes : List Value} {v : Value} (h : Holds nodes v) :
    (unwrap v).2 = v := by
  have htagged : ∀ {fields : Fields} {tag : String}, tagOf? fields = some tag →
      (unwrap (.object fields)).2 = .object fields := by
    intro fields tag htag
    rw [unwrap, Value.field?, if_pos (get?_type_of_tagOf? htag)]
  cases h with
  | list => rfl
  | page hpage =>
      cases hpage with
      | intro htag => exact htagged htag
  | document htag => exact htagged htag

theorem Contains.exists_rootItems {nodes : List Value} {v : Value} (h : Contains nodes v) :
    ∃ items, rootItems (unwrap v).2 = .ok items ∧ items.map Prod.snd = nodes := by
  cases h with
  | bare h =>
      rw [h.unwrap_eq]
      exact h.exists_rootItems
  | @envelope fields content htype hcontent h =>
      have hunwrap : (unwrap (.object fields)).2 = content := by
        simp only [unwrap, Value.field?, htype, hcontent, Option.isSome_none, Bool.false_eq_true,
          if_false]
      rw [hunwrap]
      exact h.exists_rootItems

/-! ## Outcomes -/

/-- Two readings come to the same: the same roots and remarks, or errors that name the same nodes
in the same order, with the same errors of ids that come twice. -/
inductive SameOutcome : Except ParseError Parsed → Except ParseError Parsed → Prop where
  | accepted {parsed parsed' : Parsed} (hroots : parsed.tree.roots = parsed'.tree.roots)
      (hdiagnostics : parsed.diagnostics = parsed'.diagnostics) :
      SameOutcome (.ok parsed) (.ok parsed')
  | rejected {errors errors' : Diagnostics}
      (hids : errors.map (·.nodeId) = errors'.map (·.nodeId))
      (hduplicates : errors.filter Diagnostic.isDuplicateId =
        errors'.filter Diagnostic.isDuplicateId) :
      SameOutcome (.error (.invalid errors)) (.error (.invalid errors'))

/-- Documents with the same top-level nodes are read alike. -/
theorem sameOutcome_of_rootItems {v v' : Value} {items items' : List (String × Value)}
    (h : rootItems (unwrap v).2 = .ok items) (h' : rootItems (unwrap v').2 = .ok items')
    (hnodes : items.map Prod.snd = items'.map Prod.snd) : SameOutcome (ofValue v) (ofValue v') := by
  have hsame := convertEach_sameButPlaces hnodes []
  have herrors := hsame.notes.filter fun d e hde => hde.isError_eq
  have hothers := hsame.notes.filter (p := fun d => !d.isError) fun d e hde => by
    rw [hde.isError_eq]
  rw [ofValue_of_rootItems h, ofValue_of_rootItems h']
  dsimp only
  rw [herrors.isEmpty_eq]
  split
  · refine .accepted hsame.value_eq (hothers.eq_of_forall fun d hd => .inl ?_)
    simpa using (List.mem_filter.1 hd).2
  · refine .rejected herrors.map_nodeId_eq ?_
    refine (herrors.filter fun d e hde => hde.isDuplicateId_eq).eq_of_forall fun d hd => .inr ?_
    exact (List.mem_filter.1 hd).2

/-- The container around some nodes does not matter. Whether they come in a list, on a page, on any
number of pages of a document node, or in an envelope around one of these, they are accepted in all
containers or in none: with the same scene and the same remarks, or with errors about the same
nodes in the same order. An id that comes twice is reported on two pages as it is in one list. -/
theorem containers_irrelevant {nodes : List Value} {v v' : Value} (h : Contains nodes v)
    (h' : Contains nodes v') : SameOutcome (ofValue v) (ofValue v') := by
  obtain ⟨items, hitems, hnodes⟩ := h.exists_rootItems
  obtain ⟨items', hitems', hnodes'⟩ := h'.exists_rootItems
  exact sameOutcome_of_rootItems hitems hitems' (hnodes.trans hnodes'.symm)

/-- An id that comes on two pages is reported as in one list, and so is what is no node. -/
theorem containers_irrelevant_id_on_two_pages :
    let star : Value := .object [("absoluteBoundingBox", .array [.ofInt 0, .ofInt 0, .ofInt 5,
      .ofInt 5]), ("id", .string "star"), ("type", .string "STAR")]
    let page (tag : String) (nodes : List Value) : Value :=
      .object [("children", .array nodes), ("type", .string tag)]
    let list : Value := .array [star, .null, star]
    let file : Value := .object [("document", .object
      [("children", .array [page "CANVAS" [star], page "PAGE" [], page "PAGE" [.null, star]]),
        ("type", .string "DOCUMENT")])]
    Contains [star, .null, star] list ∧ Contains [star, .null, star] file ∧
      ∃ errors errors', ofValue list = .error (.invalid errors) ∧
        ofValue file = .error (.invalid errors') ∧
        errors = [.error none "root.children[1]: expected a node object", .duplicateId "star"] ∧
        errors'.map (·.nodeId) = [none, some "star"] ∧
        errors'.filter Diagnostic.isDuplicateId = [.duplicateId "star"] := by
  intro star page list file
  have hlist : Contains [star, .null, star] list := .bare .list
  have hpage : ∀ nodes, Page nodes (page "PAGE" nodes) := fun nodes => .intro rfl (.inr rfl) rfl
  have hfile : Contains [star, .null, star] file :=
    .envelope rfl rfl (.document rfl rfl
      (.cons (.intro rfl (.inl rfl) rfl) (.cons (hpage _) (.cons (hpage _) .nil))) rfl)
  refine ⟨hlist, hfile, ?_⟩
  have hsame := containers_irrelevant hlist hfile
  have hrejected : ofValue list = .error (.invalid
      [.error none "root.children[1]: expected a node object", .duplicateId "star"]) := rfl
  rw [hrejected] at hsame
  generalize hread : ofValue file = outcome at hsame
  cases hsame with
  | rejected hids hduplicates => exact ⟨_, _, hrejected, rfl, rfl, hids.symm, hduplicates.symm⟩

end Document

end SceneMarkup
