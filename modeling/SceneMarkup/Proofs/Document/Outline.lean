/-
  SceneMarkup/Proofs/Document/Outline.lean --- no node is lost on the way from a document
  to its scene.

  WHAT THIS FILE IS FOR.  The scene has the nodes of the document in their order and
  with their children, cut off below the nodes that can have none.  Where children are
  cut off, one remark says how many, and nowhere else is there such a remark
  (`cutNotices`).
-/
import Mathlib.Data.List.Basic
import SceneMarkup.Proofs.Document.WellFormed

set_option autoImplicit false

namespace SceneMarkup.Document

open Json (Fields Value)
open Noted (NoErrors)
open RoseTree (labelsIn mapIn)

/-! ## Remarks on children that are cut off -/

/-- What is said of the children of a node that are cut off: a node of a frame-like type keeps its
children, and a node without children loses none. -/
def cutNotices (fields : Fields) : Diagnostics :=
  let id := idOf fields
  let tag := (tagOf? fields).getD ""
  let count := (childrenOf fields).length
  if count = 0 ∨ tag ∈ frameTags then []
  else if tag = "TEXT" then
    [.info id (toString count ++ " child node(s) of a text node are not emitted")]
  else if tag ∈ shapeTags then
    [.info id (toString count ++ " child node(s) of a shape node are not emitted")]
  else
    [.warning id ("unsupported node type `" ++ tag ++ "`, emitted as placeholder (" ++
      toString count ++ " child node(s) dropped)")]

/-- The remark on a node of an unknown type says whether children were dropped. -/
theorem filter_statesCut_unsupportedNote (id tag : String) (count : Nat) :
    [unsupportedNote id tag count].filter Diagnostic.statesCut =
      if count = 0 then []
      else [.warning id ("unsupported node type `" ++ tag ++ "`, emitted as placeholder (" ++
        toString count ++ " child node(s) dropped)")] := by
  rw [unsupportedNote]
  split
  · rw [String.append_empty]
    have hother : Diagnostic.statesCut (.warning id
        ("unsupported node type `" ++ tag ++ "`, emitted as placeholder")) = false :=
      endsIn_append_eq_false _ (by decide) (by decide)
    rw [List.filter_cons_of_neg (by rw [hother]; exact Bool.false_ne_true), List.filter_nil]
  · have hsplit : "`, emitted as placeholder (" = "`, emitted as placeholder" ++ " (" := rfl
    have hmessage : "unsupported node type `" ++ tag ++ "`, emitted as placeholder" ++
        (" (" ++ toString count ++ " child node(s) dropped)") =
          "unsupported node type `" ++ tag ++ "`, emitted as placeholder (" ++ toString count ++
            " child node(s) dropped)" := by
      rw [hsplit]
      simp only [String.append_assoc]
    rw [hmessage]
    exact List.filter_cons_of_pos (endsIn_append_self _ _)

theorem cutNotes_eq (built : Layer) (count : Nat) :
    cutNotes built count =
      if count = 0 then []
      else [.info built.id (toString count ++
        (" child node(s) of a " ++ built.kind.label ++ " node are not emitted"))] := by
  rw [cutNotes]
  simp only [String.append_assoc]

theorem filter_statesCut_cutNotes (built : Layer) (count : Nat) :
    (cutNotes built count).filter Diagnostic.statesCut = cutNotes built count := by
  unfold cutNotes
  split
  · rfl
  · exact List.filter_cons_of_pos (endsIn_append_self _ _)

/-- Of the remarks on a usable node, those that state that children were cut off say how many. -/
theorem filter_statesCut_remarksOn {fields : Fields} (h : Usable fields) :
    (remarksOn fields).filter Diagnostic.statesCut = cutNotices fields := by
  have hfound := found_of_noErrors h.isError_eq_false
  show (inspectTyped (idOf fields) fields).notes.filter Diagnostic.statesCut = cutNotices fields
  generalize inspectTyped (idOf fields) fields = found at hfound ⊢
  rw [cutNotices]
  cases hfound with
  | @unknown tag htag hclass =>
      rw [NodeClass.ofTag?_eq_none_iff, understoodTags, List.mem_append, List.mem_cons, not_or,
        not_or] at hclass
      obtain ⟨hframe, htext, hshape⟩ := hclass
      rw [filter_statesCut_unsupportedNote, htag, Option.getD_some, if_neg htext, if_neg hshape]
      simp only [hframe, or_false]
      rfl
  | @known tag nodeClass source built htag hclass hdecode hnoErrors hbuilt =>
      obtain ⟨hid, hmakes, _⟩ := layer_value hbuilt
      have hown : (layer (idOf fields) nodeClass source).notes.filter Diagnostic.statesCut = [] :=
        List.filter_eq_nil_iff.2 fun d hd => by
          rw [(each_layer nodeClass source d hd).statesCut_eq]
          exact Bool.false_ne_true
      rw [List.filter_append, hown, List.nil_append, htag, Option.getD_some]
      rcases NodeClass.tag_of_ofTag? hclass with ⟨hframe, hmem⟩ | ⟨rfl, rfl⟩ | ⟨⟨kind, rfl⟩, hmem⟩
      · rw [if_pos hframe, if_pos (.inr hmem)]
        rfl
      · have hnot : "TEXT" ∉ frameTags := by decide
        generalize hkind : built.kind = kind at hmakes
        cases hmakes
        rw [if_neg (by decide), filter_statesCut_cutNotes, cutNotes_eq, hid, hkind]
        simp only [hnot, or_false]
        rfl
      · have hnot : tag ∉ frameTags := not_mem_frameTags_of_mem_shapeTags tag hmem
        have htext : tag ≠ "TEXT" := fun heq => absurd (heq ▸ hmem) (by decide)
        generalize hkind : built.kind = kind at hmakes
        cases hmakes
        rw [if_neg (by exact Bool.false_ne_true), filter_statesCut_cutNotes, cutNotes_eq, hid,
          hkind, if_neg htext, if_pos hmem]
        simp only [hnot, or_false]
        rfl

/-! ## The outline of a document -/

/-- The scene of an accepted document has the nodes of the document, with their ids, in their
order and below each other as there, cut off below the nodes that are not of a frame-like type.
Each node that loses children is remarked on once, with how many it loses, and no other remark
says so. -/
theorem outline_of_ofValue {v : Value} {parsed : Parsed} (h : ofValue v = .ok parsed) :
    mapIn Layer.id (treesIn parsed.tree.roots) = mapIn idOf (sceneForest v) ∧
      parsed.diagnostics.filter Diagnostic.statesCut =
        (labelsIn (sceneForest v)).flatMap cutNotices := by
  have haccepted := accepted_of_ofValue h
  have husable := haccepted.acceptable.each
  constructor
  · rw [haccepted.treesIn_eq, RoseTree.mapIn_mapIn]
    exact RoseTree.mapIn_congr fun fields hfields => (husable fields hfields).layerOf_spec.1
  · rw [haccepted.diagnostics_eq, List.filter_flatMap]
    exact List.flatMap_congr fun fields hfields =>
      filter_statesCut_remarksOn (husable fields hfields)

theorem outline_of_ofValue_twoPages :
    ∃ parsed, ofValue twoPages = .ok parsed ∧
      mapIn Layer.id (treesIn parsed.tree.roots) =
        [⟨"frame", [⟨"text", []⟩, ⟨"widget", []⟩]⟩, ⟨"shape", []⟩] ∧
      parsed.diagnostics.filter Diagnostic.statesCut =
        [.warning "widget" ("unsupported node type `WIDGET`, emitted as placeholder " ++
            "(2 child node(s) dropped)"),
          .info "shape" "1 child node(s) of a shape node are not emitted"] := by
  obtain ⟨parsed, hparsed⟩ : ∃ parsed, ofValue twoPages = .ok parsed := ⟨_, rfl⟩
  obtain ⟨houtline, hcut⟩ := outline_of_ofValue hparsed
  exact ⟨parsed, hparsed, houtline.trans rfl, hcut.trans (by decide)⟩

end SceneMarkup.Document
