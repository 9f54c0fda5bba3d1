/-
  SceneMarkup/Proofs/DiagnosticOrder.lean --- the order of the remarks on a document.

  WHAT THIS FILE IS FOR.  Remarks are made in three blocks: while the document is read, while
  styles are found, and while markup is made.  In each block they follow a listing of nodes
  (`Diagnostics.Follows`), because whatever is remarked on a node comes in one piece, before
  anything on a node behind it.
-/
import SceneMarkup.Proofs.Selection

set_option autoImplicit false

namespace SceneMarkup

/-! ## Following a listing -/

/-- In a listing without repeats the positions grow. -/
theorem pairwise_idxOf {ids : List String} (h : ids.Nodup) :
    ids.Pairwise fun id later => ids.idxOf id ≤ ids.idxOf later := by
  rw [List.pairwise_iff_getElem]
  intro i j hi hj hij
  rw [h.idxOf_getElem i hi, h.idxOf_getElem j hj]
  exact Nat.le_of_lt hij

namespace Diagnostics

/-- Each remark names a node of a listing, and the positions of the nodes that are named never
decrease. -/
structure Follows (ds : Diagnostics) (ids : List String) : Prop where
  /-- each node is listed once, so that it has one position -/
  nodup : ids.Nodup
  names : ∀ d ∈ ds, ∃ id ∈ ids, d.nodeId = some id
  ordered : (ds.filterMap (·.nodeId)).Pairwise fun id later => ids.idxOf id ≤ ids.idxOf later

/-- What is remarked on listed items one after the other, each by its own id, follows the list. -/
theorem follows_flatMap {α : Type} {items : List α} {id : α → String} {remarks : α → Diagnostics}
    (hnames : ∀ a ∈ items, ∀ d ∈ remarks a, d.nodeId = some (id a))
    (hnodup : (items.map id).Nodup) : Follows (items.flatMap remarks) (items.map id) := by
  have hnamed : ∀ a ∈ items, ∀ named ∈ (remarks a).filterMap (·.nodeId), named = id a := by
    intro a ha named hnamed
    obtain ⟨d, hd, heq⟩ := List.mem_filterMap.1 hnamed
    rw [hnames a ha d hd, Option.some.injEq] at heq
    exact heq.symm
  refine ⟨hnodup, ?_, ?_⟩
  · intro d hd
    obtain ⟨a, ha, hd⟩ := List.mem_flatMap.1 hd
    exact ⟨id a, List.mem_map_of_mem ha, hnames a ha d hd⟩
  · rw [List.filterMap_flatMap, List.pairwise_flatMap]
    constructor
    · intro a ha
      refine List.pairwise_of_forall_mem_list fun first hfirst second hsecond => ?_
      rw [hnamed a ha first hfirst, hnamed a ha second hsecond]
    · refine (List.pairwise_map.1 (pairwise_idxOf hnodup)).imp_of_mem ?_
      intro a b ha hb hle first hfirst second hsecond
      rw [hnamed a ha first hfirst, hnamed b hb second hsecond]
      exact hle

end Diagnostics

/-! ## The blocks -/

/-- The remarks on a document that is accepted follow the nodes of its scene. -/
theorem Document.Accepted.follows {v : Json.Value} {parsed : Parsed} (h : Accepted v parsed) :
    parsed.diagnostics.Follows ((preorder parsed.tree.roots).map Entry.id) := by
  rw [h.diagnostics_eq, h.map_id_preorder, idsIn]
  exact Diagnostics.follows_flatMap (fun fields _ d hd => nodeId_of_mem_remarksOn hd)
    h.acceptable.nodup_idsIn

theorem Style.diagnostics_follows {entries : List Entry} (hnodup : (entries.map Entry.id).Nodup) :
    (Style.diagnostics entries).Follows (entries.map Entry.id) := by
  refine Diagnostics.follows_flatMap (fun entry _ d hd => ?_) hnodup
  obtain ⟨problem, -, rfl⟩ := List.mem_map.1 hd
  rfl

theorem Style.severity_of_mem_diagnostics {entries : List Entry} {d : Diagnostic}
    (h : d ∈ Style.diagnostics entries) : d.severity = .warning := by
  obtain ⟨entry, -, hd⟩ := List.mem_flatMap.1 h
  obtain ⟨problem, -, rfl⟩ := List.mem_map.1 hd
  rfl

namespace Emission

/-- The remark on a node that is left out, and none on any other. -/
def omissionNotes (decided : Styled × Fate) : Diagnostics :=
  if decided.2 == .omitted then [omission decided.1] else []

theorem map_omission_withFate (all : List (Styled × Fate)) :
    (withFate .omitted all).map omission = all.flatMap omissionNotes := by
  induction all with
  | nil => rfl
  | cons decided rest ih =>
      obtain ⟨styled, fate⟩ := decided
      rw [List.flatMap_cons, ← ih]
      cases fate with
      | omitted =>
          rw [withFate_cons_same]
          rfl
      | kept =>
          rw [withFate_cons_other (by decide)]
          rfl
      | below =>
          rw [withFate_cons_other (by decide)]
          rfl

/-- The remarks of an emission are those on the nodes that it leaves out. -/
theorem diagnostics_of_emit {options : EmitOptions} {entries : List Entry}
    {resolved : List Resolved} {emission : Emission}
    (h : emit options entries resolved = .ok emission) :
    emission.diagnostics =
        (fates options.includeHidden none (entries.zip resolved)).flatMap omissionNotes ∧
      entries.length = resolved.length := by
  rw [emit, pair] at h
  split at h
  · cases h
  · rename_i hlength
    split at h
    · cases h
    · cases h
      exact ⟨map_omission_withFate _, not_not.1 hlength⟩

theorem diagnostics_follows {options : EmitOptions} {entries : List Entry}
    {resolved : List Resolved} {emission : Emission}
    (h : emit options entries resolved = .ok emission) (hnodup : (entries.map Entry.id).Nodup) :
    emission.diagnostics.Follows (entries.map Entry.id) := by
  obtain ⟨hdiagnostics, hlength⟩ := diagnostics_of_emit h
  have hids : (fates options.includeHidden none (entries.zip resolved)).map (·.1.1.id) =
      entries.map Entry.id := by
    have hpairs := map_fst_fates options.includeHidden none (entries.zip resolved)
    have hentries := congrArg (List.map Entry.id) (List.map_fst_zip (Nat.le_of_eq hlength))
    rw [← hpairs, List.map_map, List.map_map] at hentries
    exact hentries
  rw [hdiagnostics, ← hids]
  refine Diagnostics.follows_flatMap (fun decided _ d hd => ?_) (hids ▸ hnodup)
  rw [omissionNotes] at hd
  split at hd
  · rw [List.mem_singleton.1 hd]
    rfl
  · cases hd

theorem severity_of_mem_diagnostics {options : EmitOptions} {entries : List Entry}
    {resolved : List Resolved} {emission : Emission}
    (h : emit options entries resolved = .ok emission) {d : Diagnostic}
    (hd : d ∈ emission.diagnostics) : d.severity = .info := by
  rw [(diagnostics_of_emit h).1] at hd
  obtain ⟨decided, -, hd⟩ := List.mem_flatMap.1 hd
  rw [omissionNotes] at hd
  split at hd
  · rw [List.mem_singleton.1 hd]
    rfl
  · cases hd

end Emission

/-! ## Documents -/

/-- The remarks on a compiled scene are the earlier ones, the warnings about the walk, and the
remarks on the nodes that are left out. -/
theorem exists_blocks_of_compileParsed {tree : SceneTree} {earlier : Diagnostics}
    {options : Options} {out : Output} (h : compileParsed tree earlier options = .ok out) :
    ∃ walker emission, walkOf tree options = .ok walker ∧
      emit options.emitOptions walker.rest (Style.resolve walker.rest) = .ok emission ∧
      out.diagnostics = earlier ++ Style.diagnostics walker.rest ++ emission.diagnostics := by
  rw [compileParsed] at h
  cases hwalk : walkOf tree options with
  | error error =>
      rw [hwalk] at h
      cases h
  | ok walker =>
      simp only [hwalk, bind, Except.bind] at h
      cases hemit : emit options.emitOptions walker.rest (Style.resolve walker.rest) with
      | error mismatch =>
          rw [hemit] at h
          cases h
      | ok emission =>
          rw [hemit] at h
          cases h
          exact ⟨walker, emission, rfl, hemit, rfl⟩

/-- The walk of what the options select of a well-formed scene has each id once. -/
theorem SceneTree.WellFormed.nodup_ids_walk {tree : SceneTree} (h : tree.WellFormed)
    {options : Options} {walker : Walker} (hwalk : walkOf tree options = .ok walker) :
    (walker.rest.map Entry.id).Nodup := by
  rw [walkOf_eq] at hwalk
  cases hroots : rootsOf tree options with
  | error error =>
      rw [hroots] at hwalk
      cases hwalk
  | ok roots =>
      rw [hroots] at hwalk
      cases hwalk
      rw [Walker.rest_start]
      exact (h.of_rootsOf hroots none).nodup_ids

/-- The remarks on a compiled document come in three blocks: those made while it was read, which
follow the nodes of its scene, the warnings about styles and the informations about nodes that are
left out of the markup, both of which follow the nodes of the walk. No remark is an error, and each
names a node. -/
theorem diagnostics_in_order {v : Json.Value} {options : Options} {out : Output}
    (h : compileValue v options = .ok out) :
    ∃ parsed walker emission, Document.ofValue v = .ok parsed ∧
      walkOf parsed.tree options = .ok walker ∧
      emit options.emitOptions walker.rest (Style.resolve walker.rest) = .ok emission ∧
      out.diagnostics =
        parsed.diagnostics ++ Style.diagnostics walker.rest ++ emission.diagnostics ∧
      (∀ d ∈ out.diagnostics, d.severity ≠ .error ∧ d.nodeId.isSome = true) ∧
      parsed.diagnostics.Follows ((preorder parsed.tree.roots).map Entry.id) ∧
      (Style.diagnostics walker.rest).Follows (walker.rest.map Entry.id) ∧
      (∀ d ∈ Style.diagnostics walker.rest, d.severity = .warning) ∧
      emission.diagnostics.Follows (walker.rest.map Entry.id) ∧
      ∀ d ∈ emission.diagnostics, d.severity = .info := by
  rw [compileValue] at h
  cases hparsed : Document.ofValue v with
  | error error =>
      rw [hparsed] at h
      cases h
  | ok parsed =>
      rw [hparsed] at h
      obtain ⟨walker, emission, hwalk, hemit, hdiagnostics⟩ := exists_blocks_of_compileParsed h
      obtain ⟨hwellFormed, hnoErrors⟩ := Document.wellFormed_of_ofValue hparsed
      have hnodup := hwellFormed.nodup_ids_walk hwalk
      have hread := (Document.accepted_of_ofValue hparsed).follows
      have hstyled := Style.diagnostics_follows hnodup
      have hemitted := Emission.diagnostics_follows hemit hnodup
      have hnamed : ∀ {ds : Diagnostics} {ids : List String}, ds.Follows ids →
          ∀ d ∈ ds, d.nodeId.isSome = true := by
        intro ds ids hfollows d hd
        obtain ⟨id, -, hid⟩ := hfollows.names d hd
        rw [hid, Option.isSome_some]
      refine ⟨parsed, walker, emission, rfl, hwalk, hemit, hdiagnostics, ?_, hread, hstyled,
        fun d => Style.severity_of_mem_diagnostics, hemitted,
        fun d => Emission.severity_of_mem_diagnostics hemit⟩
      intro d hd
      rw [hdiagnostics, List.mem_append, List.mem_append] at hd
      rcases hd with (hd | hd) | hd
      · exact ⟨hnoErrors d hd, hnamed hread d hd⟩
      · exact ⟨by rw [Style.severity_of_mem_diagnostics hd]; decide, hnamed hstyled d hd⟩
      · exact ⟨by rw [Emission.severity_of_mem_diagnostics hemit hd]; decide, hnamed hemitted d hd⟩

/-- A frame with a shape that is filled with something unknown, a widget, and a hidden gadget. -/
def remarked : Json.Value :=
  .object [("absoluteBoundingBox", Document.boxOf 80 40),
    ("children", .array
      [.object [("absoluteBoundingBox", Document.boxOf 5 5),
          ("fills", .array [.object [("type", .string "VIDEO")]]), ("id", .string "shape"),
          ("type", .string "ELLIPSE")],
        .object [("id", .string "widget"), ("type", .string "WIDGET")],
        .object [("id", .string "gadget"), ("type", .string "GADGET"),
          ("visible", .bool false)]]),
    ("id", .string "frame"), ("type", .string "FRAME")]

theorem diagnostics_in_order_remarked :
    let options : Options := { Options.default with includeHidden := false }
    ∃ out, compileValue remarked options = .ok out ∧
      ∃ (parsed : Document.Parsed) (walker : Walker) (emission : Emission),
      out.diagnostics =
        parsed.diagnostics ++ Style.diagnostics walker.rest ++ emission.diagnostics ∧
      parsed.diagnostics.Follows ((preorder parsed.tree.roots).map Entry.id) ∧
      (Style.diagnostics walker.rest).Follows (walker.rest.map Entry.id) ∧
      emission.diagnostics.Follows (walker.rest.map Entry.id) ∧
      out.diagnostics.map (fun d => (d.severity, d.nodeId)) =
        [(.warning, some "widget"), (.warning, some "gadget"), (.warning, some "shape"),
          (.info, some "gadget")] := by
  intro options
  obtain ⟨parsed, walker, emission, -, -, -, hdiagnostics, -, hread, hstyled, -, hemitted, -⟩ :=
    @diagnostics_in_order remarked options _ rfl
  exact ⟨_, rfl, parsed, walker, emission, hdiagnostics, hread, hstyled, hemitted,
    by decide +kernel⟩

end SceneMarkup
