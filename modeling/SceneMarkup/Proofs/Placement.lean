/-
  SceneMarkup/Proofs/Placement.lean --- the place of a node and the style of its parent.

  WHAT THIS FILE IS FOR.  A node that stands at an offset needs a parent that is positioned,
  and a node that is laid out needs a parent that lays out.  The record of each is made
  from its own entry, by different branches; what joins them is that the placement of a
  child is told by its parent's layer (`Entry.IsChildOf`) and that, in an accepted
  document, a node with children is a frame.
-/
import SceneMarkup.Proofs.Selection

set_option autoImplicit false

namespace SceneMarkup

/-! ## Parents -/

/-- An entry is that of a child: it names its parent, which has placed it. -/
structure Entry.IsChildOf (child parent : Entry) : Prop where
  mem : child.node ∈ parent.node.children
  parentId : child.parentId = some parent.id
  placement : child.placement = .inside parent.layer child.layer

/-- Every entry of a forest is that of a root, or its parent has an entry too. -/
theorem mem_or_isChildOf {parent : Option Layer} {depth index : Nat} {nodes : List Node}
    {entry : Entry} (h : entry ∈ entriesIn parent depth index nodes) :
    (entry.node ∈ nodes ∧ entry.parentId = parent.map Layer.id ∧
        entry.placement = .of parent entry.layer) ∨
      ∃ above ∈ entriesIn parent depth index nodes, entry.IsChildOf above := by
  induction nodes using forest_induction generalizing parent depth index with
  | nil => simp [entriesIn] at h
  | cons layer children rest ihChildren ihRest =>
      rw [entriesIn_cons, List.mem_cons, List.mem_append] at h
      rw [entriesIn_cons]
      rcases h with rfl | h | h
      · exact Or.inl ⟨List.mem_cons_self, rfl, rfl⟩
      · refine Or.inr ?_
        rcases ihChildren h with ⟨hmem, hid, hplacement⟩ | ⟨above, habove, hchild⟩
        · exact ⟨_, List.mem_cons_self, hmem, hid, hplacement⟩
        · exact ⟨above, List.mem_cons_of_mem _ (List.mem_append_left _ habove), hchild⟩
      · rcases ihRest h with ⟨hmem, hplace⟩ | ⟨above, habove, hchild⟩
        · exact Or.inl ⟨List.mem_cons_of_mem _ hmem, hplace⟩
        · exact Or.inr ⟨above, List.mem_cons_of_mem _ (List.mem_append_right _ habove), hchild⟩

theorem exists_parent {roots : List Node} {entry : Entry} (h : entry ∈ preorder roots)
    {id : String} (hid : entry.parentId = some id) :
    ∃ parent ∈ preorder roots, entry.IsChildOf parent := by
  rcases mem_or_isChildOf h with ⟨-, hnone, -⟩ | hparent
  · rw [hid] at hnone
    cases hnone
  · exact hparent

/-! ## Declared places -/

namespace Style

/-- A record has what its node declares, unless that is about hiding, fading or mixing. -/
theorem get?_record_eq_some_iff (entry : Entry) {property value : String}
    (hnot : property ∉ ["display", "opacity", "mix-blend-mode"]) :
    (record entry).get? property = some value ↔ (property, value) ∈ ownDeclarations entry := by
  rw [Record.get?_eq_some_iff]
  constructor
  · intro h
    rw [record_eq] at h
    rcases Record.mem_of_mem_setAll h with h | h
    · rwa [declarations_ofList_own] at h
    · exact absurd ((compositing_sublist entry.layer).mem (List.mem_map_of_mem h)) hnot
  · intro h
    exact mem_record_of_mem_own h hnot

/-- The position that a node declares: none, if it is laid out and nothing refers to it. -/
def position? (entry : Entry) : Option String :=
  match entry.placement with
  | .root => some "relative"
  | .flow _ =>
      if placesAbsolutely entry.layer.kind && !entry.node.children.isEmpty then some "relative"
      else none
  | .absolute _ => some "absolute"

theorem mem_declareIf {condition : Bool} {property value : String} {d : Declaration} :
    d ∈ declareIf condition property value ↔ condition = true ∧ d = (property, value) := by
  cases condition with
  | true => simp [declareIf]
  | false => simp [declareIf]

theorem position_mem_geometry_iff (entry : Entry) (value : String) :
    ("position", value) ∈ geometry entry ↔ position? entry = some value := by
  have hsize : ("position", value) ∉ fixedSize entry.layer := fun h =>
    absurd ((fixedSize_sublist entry.layer).mem (List.mem_map_of_mem h)) (by simp)
  unfold geometry position?
  cases entry.placement with
  | root =>
      simp only [List.mem_cons, hsize, or_false, Prod.mk.injEq, true_and, Option.some.injEq]
      exact eq_comm
  | flow direction =>
      have hgrowth : ("position", value) ≠ growth entry.layer := by
        unfold growth
        split <;> simp
      have hown : ("position", value) ∉
          if isText entry.layer.kind then [] else fixedSize entry.layer := by
        split
        · exact List.not_mem_nil
        · exact hsize
      simp only [List.cons_append, List.mem_cons, List.mem_append, hgrowth, hown, false_or,
        mem_declareIf, Prod.mk.injEq, true_and, Option.ite_none_right_eq_some, Option.some.injEq]
      exact and_congr_right fun _ => eq_comm
  | absolute offset =>
      simp [eq_comm]

theorem get?_position (entry : Entry) : (record entry).get? "position" = position? entry := by
  have hcontent : "position" ∉ contentProperties (isText entry.layer.kind) := by
    cases isText entry.layer.kind <;> decide
  refine Option.ext fun value => ?_
  rw [get?_record_eq_some_iff entry (by decide), ← position_mem_geometry_iff, ownDeclarations,
    List.mem_append, or_iff_left]
  exact fun h => hcontent ((content_sublist entry.layer).mem (List.mem_map_of_mem h))

section

variable {entry : Entry} {frame : Frame} {direction : FlowDirection}
  (hframe : entry.layer.kind.frame? = some frame)
  (hdirection : FlowDirection.ofLayoutMode? frame.layoutMode = some direction)

include hframe hdirection

theorem mem_own_of_layout {d : Declaration}
    (h : d ∈ [("display", "flex"), ("flex-direction", direction.keyword)]) :
    d ∈ ownDeclarations entry := by
  refine List.mem_append_right _ (List.mem_append_left _ ?_)
  simp only [container, hframe, layout, hdirection, List.append_assoc]
  exact List.mem_append_left _ h

theorem get?_flexDirection_of_layout :
    (record entry).get? "flex-direction" = some direction.keyword := by
  rw [get?_record_eq_some_iff entry (by decide)]
  exact mem_own_of_layout hframe hdirection (by simp)

/-- Hiding a node is declared in the place of its layout. -/
theorem get?_display_of_layout :
    (record entry).get? "display" = some (if entry.layer.visible then "flex" else "none") := by
  have hown : ("display", "flex") ∈ (Record.ofList (ownDeclarations entry)).declarations := by
    rw [declarations_ofList_own]
    exact mem_own_of_layout hframe hdirection (by simp)
  have hnodup : ((compositing entry.layer).map (·.1)).Nodup :=
    List.Nodup.sublist (compositing_sublist entry.layer) (by decide)
  rw [Record.get?_eq_some_iff, record_eq]
  cases hvisible : entry.layer.visible with
  | true =>
      refine Record.mem_setAll_of_mem hown fun hdisplay => ?_
      have hshown :
          ((compositing entry.layer).map (·.1)).Sublist ["opacity", "mix-blend-mode"] := by
        rw [compositing, hvisible]
        exact map_append_sublist (map_declareIf_sublist _ "opacity" _)
          (map_declareSome_sublist "mix-blend-mode" _)
      exact absurd (hshown.mem hdisplay) (by decide)
  | false =>
      refine Record.mem_setAll_of_nodup _ ?_ hnodup
      simp [compositing, hvisible, declareIf]

end

end Style

/-! ## Fitting -/

namespace Record

/-- A record that places its node at an offset. -/
def IsAbsolute (r : Record) : Prop := r.get? "position" = some "absolute"

/-- A record of a node from which offsets are counted. -/
def IsPositioned (r : Record) : Prop :=
  r.get? "position" = some "relative" ∨ r.get? "position" = some "absolute"

/-- A record of a node that takes part in a layout. -/
def IsLaidOut (r : Record) : Prop := r.has "flex-grow" = true ∨ r.has "flex-shrink" = true

end Record

/-- The record of a node fits that of its parent: the node stands at an offset or is laid out, and
not both. -/
structure Entry.Fits (entry parent : Entry) : Prop where
  /-- an offset is counted from the parent -/
  offset : (Style.record entry).IsAbsolute → (Style.record parent).IsPositioned
  /-- a layout is that of the parent, which has it unless it is hidden -/
  layout : (Style.record entry).IsLaidOut → ∃ direction, entry.placement = .flow direction ∧
    (Style.record parent).get? "flex-direction" = some
      (match direction with
        | .row => "row"
        | .column => "column") ∧
    (Style.record parent).get? "display" = some (if parent.layer.visible then "flex" else "none")
  one : (Style.record entry).IsAbsolute ↔ ¬(Style.record entry).IsLaidOut

namespace Style

/-- A node takes part in a layout if and only if it is laid out by its parent. -/
theorem isLaidOut_record_iff (entry : Entry) :
    (record entry).IsLaidOut ↔ entry.placement.isFlow = true := by
  rw [Record.IsLaidOut, Record.has_iff, Record.has_iff, mem_properties_record entry (by decide),
    mem_properties_record entry (by decide)]
  exact flexGrow_or_flexShrink_mem_own entry

/-- A frame with children at offsets is positioned, wherever it stands itself. -/
theorem isPositioned_of_placesAbsolutely {entry : Entry}
    (hkind : placesAbsolutely entry.layer.kind = true) (hchildren : entry.node.children ≠ []) :
    (record entry).IsPositioned := by
  rw [Record.IsPositioned, get?_position, position?]
  cases entry.placement with
  | root => exact Or.inl rfl
  | flow direction =>
      have hchild : (!entry.node.children.isEmpty) = true := by simpa using hchildren
      simp [hkind, hchild]
  | absolute offset => exact Or.inr rfl

end Style

/-- A child whose parent is a frame fits it. -/
theorem Entry.IsChildOf.fits {entry parent : Entry} (h : entry.IsChildOf parent)
    (hframe : parent.layer.kind.frame?.isSome = true) : entry.Fits parent := by
  obtain ⟨frame, hframe⟩ := Option.isSome_iff_exists.1 hframe
  have hplacement := h.placement
  rw [Placement.inside, Placement.direction?, hframe, Option.bind_some] at hplacement
  cases hdirection : FlowDirection.ofLayoutMode? frame.layoutMode with
  | some direction =>
      have hflow : entry.placement = .flow direction := by
        rw [hplacement, hdirection]
      have hlaid : (Style.record entry).IsLaidOut :=
        (Style.isLaidOut_record_iff entry).2 (by rw [hflow]; rfl)
      have hnot : ¬(Style.record entry).IsAbsolute := by
        rw [Record.IsAbsolute, Style.get?_position, Style.position?, hflow]
        dsimp only
        split <;> simp
      refine ⟨fun habsolute => absurd habsolute hnot, fun _ => ⟨direction, hflow, ?_, ?_⟩,
        iff_of_false hnot (not_not_intro hlaid)⟩
      · rw [Style.get?_flexDirection_of_layout hframe hdirection]
        cases direction <;> rfl
      · exact Style.get?_display_of_layout hframe hdirection
  | none =>
      have hoffset : ∃ offset, entry.placement = .absolute offset := by
        rw [hplacement, hdirection]
        exact ⟨_, rfl⟩
      obtain ⟨offset, hoffset⟩ := hoffset
      have habsolute : (Style.record entry).IsAbsolute := by
        rw [Record.IsAbsolute, Style.get?_position, Style.position?, hoffset]
      have hnot : ¬(Style.record entry).IsLaidOut := by
        rw [Style.isLaidOut_record_iff, hoffset]
        exact Bool.false_ne_true
      have hmode : frame.layoutMode = .none := by
        cases hmode : frame.layoutMode with
        | none => rfl
        | horizontal => rw [hmode] at hdirection; cases hdirection
        | vertical => rw [hmode] at hdirection; cases hdirection
      have hkind : Style.placesAbsolutely parent.layer.kind = true := by
        simp [Style.placesAbsolutely, hframe, hmode]
      refine ⟨fun _ => ?_, fun hlaid => absurd hlaid hnot, iff_of_true habsolute hnot⟩
      exact Style.isPositioned_of_placesAbsolutely hkind (List.ne_nil_of_mem h.mem)

/-- Whatever an accepted document and the root selected in it, every walked node that names a parent
has one parent in the walk, and fits it: it is either at an offset from a parent that is positioned,
or laid out in the direction of a parent that lays out its children. -/
theorem placement_fits_parent {v : Json.Value} {parsed : Document.Parsed}
    (h : Document.ofValue v = .ok parsed) (options : Options) (walker : Walker)
    (hwalk : walkOf parsed.tree options = .ok walker) :
    ∀ entry ∈ walker.rest, ∀ id, entry.parentId = some id →
      ∃ parent ∈ walker.rest, parent.id = id ∧ entry.Fits parent ∧
        ∀ other ∈ walker.rest, other.id = id → other = parent := by
  intro entry hentry id hid
  rw [walkOf_eq] at hwalk
  cases hroots : rootsOf parsed.tree options with
  | error error =>
      rw [hroots] at hwalk
      cases hwalk
  | ok roots =>
      rw [hroots] at hwalk
      cases hwalk
      have hwell : (SceneTree.mk none roots).WellFormed :=
        (Document.accepted_of_ofValue h).wellFormed.of_rootsOf hroots none
      rw [Walker.rest_start] at hentry ⊢
      obtain ⟨parent, hparent, hchild⟩ := exists_parent hentry hid
      have hparentId : parent.id = id := by
        rw [hchild.parentId] at hid
        exact Option.some.inj hid
      have hframe := hwell.isSome_frame? parent hparent (List.ne_nil_of_mem hchild.mem)
      refine ⟨parent, hparent, hparentId, hchild.fits hframe, fun other hother hotherId => ?_⟩
      exact List.inj_on_of_nodup_map hwell.nodup_ids hother hparent (hotherId.trans hparentId.symm)

/-- A frame that holds a hidden row, in which there are a text and a frame with a shape. -/
def hiddenRow : Json.Value :=
  .array [.object [("absoluteBoundingBox", Document.boxOf 80 40),
    ("children", .array
      [.object [("absoluteBoundingBox", Document.boxOf 60 20),
        ("children", .array
          [.object [("absoluteBoundingBox", Document.boxOf 30 10), ("characters", .string "Hi"),
              ("id", .string "text"),
              ("style", .object [("fontFamily", .string "Inter"), ("fontSize", .ofInt 16),
                ("fontWeight", .ofInt 400)]),
              ("type", .string "TEXT")],
            .object [("absoluteBoundingBox", Document.boxOf 20 20),
              ("children", .array [.object [("absoluteBoundingBox", Document.boxOf 5 5),
                ("id", .string "dot"), ("type", .string "ELLIPSE")]]),
              ("id", .string "box"), ("type", .string "FRAME")]]),
        ("id", .string "row"), ("layoutMode", .string "HORIZONTAL"), ("type", .string "FRAME"),
        ("visible", .bool false)]]),
    ("id", .string "page"), ("type", .string "FRAME")]]

/-- The row is selected. The text and the frame in it are laid out, and hiding the row leaves its
direction; the frame is positioned for its shape. -/
theorem placement_fits_parent_hidden_row :
    ∃ parsed walker, Document.ofValue hiddenRow = .ok parsed ∧
      walkOf parsed.tree { Options.default with rootNode := some "row" } = .ok walker ∧
      ∃ row text box dot, walker.rest = [row, text, box, dot] ∧
        text.Fits row ∧ box.Fits row ∧ dot.Fits box ∧
        (Style.record row).get? "flex-direction" = some "row" ∧
        (Style.record row).get? "display" = some "none" ∧
        (Style.record dot).IsAbsolute ∧ (Style.record box).IsPositioned := by
  obtain ⟨parsed, walker, hparsed, hwalk, row, text, box, dot, hrest, hplaces, hrow, htext, hdot⟩ :
      ∃ parsed walker, Document.ofValue hiddenRow = .ok parsed ∧
        walkOf parsed.tree { Options.default with rootNode := some "row" } = .ok walker ∧
        ∃ row text box dot : Entry, walker.rest = [row, text, box, dot] ∧
          [text.parentId, box.parentId, dot.parentId] = [some row.id, some row.id, some box.id] ∧
          row.layer.visible = false ∧ text.placement = .flow .row ∧ dot.placement.isFlow = false :=
    ⟨_, _, rfl, rfl, _, _, _, _, rfl, rfl, rfl, rfl, rfl⟩
  have hall := placement_fits_parent hparsed _ walker hwalk
  rw [hrest] at hall
  have hfits : ∀ child ∈ [row, text, box, dot], ∀ parent ∈ [row, text, box, dot],
      child.parentId = some parent.id → child.Fits parent := by
    intro child hchild parent hparent hid
    obtain ⟨other, -, -, hother, hone⟩ := hall child hchild parent.id hid
    rwa [hone parent hparent rfl]
  simp only [List.cons.injEq, and_true] at hplaces
  obtain ⟨htextId, hboxId, hdotId⟩ := hplaces
  have htextFits := hfits text (by simp) row (by simp) htextId
  have hdotFits := hfits dot (by simp) box (by simp) hdotId
  have hlaid : (Style.record text).IsLaidOut := by
    rw [Style.isLaidOut_record_iff, htext]
    rfl
  have habsolute : (Style.record dot).IsAbsolute := by
    rw [hdotFits.one, Style.isLaidOut_record_iff, hdot]
    exact Bool.false_ne_true
  obtain ⟨direction, hdirection, hflex, hdisplay⟩ := htextFits.layout hlaid
  obtain rfl := Placement.flow.inj (htext.symm.trans hdirection)
  rw [hrow] at hdisplay
  exact ⟨parsed, walker, hparsed, hwalk, row, text, box, dot, hrest, htextFits,
    hfits box (by simp) row (by simp) hboxId, hdotFits, hflex, hdisplay, habsolute,
    hdotFits.offset habsolute⟩

end SceneMarkup
