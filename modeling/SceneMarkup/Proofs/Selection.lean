/-
  SceneMarkup/Proofs/Selection.lean --- a node that is compiled alone.

  WHAT THIS FILE IS FOR.  A node is selected by recursion on the forest, and then it is
  walked as the only root.  In the walk of the whole forest it is the first entry with its
  id, and all that is below it stands behind it in one piece (`exists_below`).  Places and
  styles are told by the parent alone, so both walks agree on every node of that piece.
-/
import SceneMarkup.Proofs.Compile
import SceneMarkup.Proofs.Document.WellFormed
import SceneMarkup.Proofs.Style.Outside

set_option autoImplicit false

namespace SceneMarkup

/-! ## Searching -/

/-- The search through a forest finds the node of the first entry with the id. -/
theorem findIn?_eq (id : String) (parent : Option Layer) (depth index : Nat) (nodes : List Node) :
    findIn? id nodes =
      ((entriesIn parent depth index nodes).find? fun entry => entry.id == id).map Entry.node := by
  induction nodes using forest_induction generalizing parent depth index with
  | nil => rw [findIn?, entriesIn, List.find?_nil, Option.map_none]
  | cons layer children rest ihChildren ihRest =>
      rw [findIn?, Node.find?, entriesIn_cons]
      by_cases hid : layer.id = id
      · rw [if_pos hid, List.find?_cons_of_pos (by simpa [Entry.ofNode] using hid), Option.some_or]
        rfl
      · rw [if_neg hid, List.find?_cons_of_neg (by simpa [Entry.ofNode] using hid),
          List.find?_append, Option.map_or, ← ihChildren, ← ihRest]

/-! ## What is below a node -/

/-- Behind an entry stands all that is below its node, and then nothing that is as deep. -/
theorem exists_below {parent : Option Layer} {depth index : Nat} {nodes : List Node}
    {before others : List Entry} {entry : Entry}
    (h : entriesIn parent depth index nodes = before ++ entry :: others) :
    ∃ after, others =
        entriesIn (some entry.layer) (entry.depth + 1) 0 entry.node.children ++ after ∧
      ∀ next ∈ after.head?, next.depth ≤ entry.depth := by
  induction nodes using forest_induction generalizing parent depth index before others entry with
  | nil => simp [entriesIn] at h
  | cons layer children rest ihChildren ihRest =>
      rw [entriesIn_cons] at h
      cases before with
      | nil =>
          -- the entry is that of the first tree
          obtain ⟨rfl, rfl⟩ := List.cons.inj h
          refine ⟨_, rfl, fun next hnext => ?_⟩
          exact Nat.le_of_eq (depth_of_mem_head?_entriesIn hnext)
      | cons first before =>
          obtain ⟨-, h⟩ := List.cons.inj h
          rcases List.append_eq_append_iff.1 h with ⟨tail, -, hrest⟩ | ⟨tail, hchildren, hothers⟩
          · exact ihRest hrest
          · cases tail with
            | nil =>
                have hrest : entriesIn parent depth (index + 1) rest = [] ++ entry :: others :=
                  hothers.symm
                exact ihRest hrest
            | cons first tail =>
                -- the entry is that of a child or below one
                obtain ⟨rfl, rfl⟩ := List.cons.inj hothers
                obtain ⟨after, rfl, hafter⟩ := ihChildren hchildren
                refine ⟨_, List.append_assoc _ _ _, fun next hnext => ?_⟩
                rw [List.head?_append] at hnext
                rcases Option.or_eq_some_iff.1 hnext with hnext | ⟨-, hnext⟩
                · exact hafter next hnext
                · have hentry : entry ∈ entriesIn (some layer) (depth + 1) 0 children := by
                    rw [hchildren]
                    exact List.mem_append_right before List.mem_cons_self
                  rw [depth_of_mem_head?_entriesIn hnext]
                  exact Nat.le_of_succ_le (le_depth_of_mem_entriesIn hentry)

/-! ## Depths -/

/-- The entry in a walk in which the node is deeper by `levels`. -/
def Entry.deeper (levels : Nat) (entry : Entry) : Entry :=
  { entry with depth := entry.depth + levels }

/-- Of all entries of a forest only the depths change if its roots are deeper. -/
theorem entriesIn_add (parent : Option Layer) (depth levels index : Nat) (nodes : List Node) :
    entriesIn parent (depth + levels) index nodes =
      (entriesIn parent depth index nodes).map (Entry.deeper levels) := by
  induction nodes using forest_induction generalizing parent depth index with
  | nil => rw [entriesIn, entriesIn, List.map_nil]
  | cons layer children rest ihChildren ihRest =>
      rw [entriesIn_cons, entriesIn_cons, List.map_cons, List.map_append, ← ihChildren, ← ihRest,
        Nat.add_right_comm]
      rfl

/-- Two entries of a node, in the walk of a node above it and in a walk in which that node is
`levels` deep: they say the same of the node and of its place, and give it the same style. -/
structure Entry.Agrees (levels : Nat) (alone whole : Entry) : Prop where
  node : alone.node = whole.node
  depth : whole.depth = alone.depth + levels
  parentId : alone.parentId = whole.parentId
  placement : alone.placement = whole.placement
  index : alone.index = whole.index
  style : Style.resolveEntry alone = Style.resolveEntry whole
  warnings : Style.diagnostics [alone] = Style.diagnostics [whole]

theorem Entry.agrees_deeper (levels : Nat) (entry : Entry) :
    entry.Agrees levels (entry.deeper levels) := ⟨rfl, rfl, rfl, rfl, rfl, rfl, rfl⟩

theorem Entry.forall₂_agrees_deeper (levels : Nat) (entries : List Entry) :
    List.Forall₂ (Entry.Agrees levels) entries (entries.map (Entry.deeper levels)) := by
  rw [List.forall₂_map_right_iff, List.forall₂_same]
  intro entry _
  exact entry.agrees_deeper levels

namespace Style

theorem resolve_map_deeper (levels : Nat) (entries : List Entry) :
    resolve (entries.map (Entry.deeper levels)) = resolve entries := by
  rw [resolve, List.map_map, resolve]
  rfl

theorem diagnostics_map_deeper (levels : Nat) (entries : List Entry) :
    diagnostics (entries.map (Entry.deeper levels)) = diagnostics entries := by
  rw [diagnostics, List.flatMap_map, diagnostics]
  rfl

theorem resolve_cons (entry : Entry) (entries : List Entry) :
    resolve (entry :: entries) = resolveEntry entry :: resolve entries := List.map_cons

theorem diagnostics_append (entries others : List Entry) :
    diagnostics (entries ++ others) = diagnostics entries ++ diagnostics others :=
  List.flatMap_append

theorem diagnostics_cons (entry : Entry) (entries : List Entry) :
    diagnostics (entry :: entries) = diagnostics [entry] ++ diagnostics entries :=
  diagnostics_append [entry] entries

end Style

/-! ## Two walks -/

/-- The walk of a node alone within the walk of a forest. There `entry` is the entry of the node,
and `below` stands behind it, which is all that is below the node; alone, the node is a root and
`alone` stands behind it. -/
structure WalkedWithin (roots : List Node) (node : Node) (before : List Entry) (entry : Entry)
    (below after alone : List Entry) : Prop where
  node_eq : entry.node = node
  walk : (Walker.start roots).rest = before ++ entry :: (below ++ after)
  deeper : ∀ next ∈ below, entry.depth < next.depth
  ends : ∀ next ∈ after.head?, next.depth ≤ entry.depth
  walkAlone : (Walker.start [node]).rest = .ofNode none 0 0 node :: alone
  agrees : List.Forall₂ (Entry.Agrees entry.depth) alone below
  /-- the styles behind the root are those of a piece of the walk of the forest -/
  styles : Style.resolve (Walker.start [node]).rest =
      Style.resolveEntry (.ofNode none 0 0 node) :: Style.resolve below ∧
    Style.resolve (Walker.start roots).rest =
      Style.resolve before ++
        Style.resolveEntry entry :: (Style.resolve below ++ Style.resolve after)
  /-- and so are the warnings -/
  warnings : Style.diagnostics (Walker.start [node]).rest =
      Style.diagnostics [.ofNode none 0 0 node] ++ Style.diagnostics below ∧
    Style.diagnostics (Walker.start roots).rest =
      Style.diagnostics before ++
        (Style.diagnostics [entry] ++ (Style.diagnostics below ++ Style.diagnostics after))

theorem rest_start_singleton (node : Node) :
    (Walker.start [node]).rest =
      .ofNode none 0 0 node :: entriesIn (some node.layer) 1 0 node.children := by
  obtain ⟨layer, children⟩ := node
  rw [Walker.rest_start, preorder, entriesIn_cons, entriesIn, List.append_nil]

/-- Every node is walked alone as it is within the walk of its forest. -/
theorem exists_walkedWithin {roots : List Node} {before others : List Entry} {entry : Entry}
    (h : preorder roots = before ++ entry :: others) :
    ∃ below after alone, others = below ++ after ∧
      WalkedWithin roots entry.node before entry below after alone := by
  obtain ⟨after, rfl, hends⟩ := exists_below h
  let alone := entriesIn (some entry.layer) 1 0 entry.node.children
  have hbelow : entriesIn (some entry.layer) (entry.depth + 1) 0 entry.node.children =
      alone.map (Entry.deeper entry.depth) := by
    rw [Nat.add_comm]
    exact entriesIn_add (some entry.layer) 1 entry.depth 0 entry.node.children
  refine ⟨_, after, alone, rfl, ?_⟩
  have hwalk := Walker.rest_start roots
  rw [h] at hwalk
  have halone := rest_start_singleton entry.node
  refine ⟨rfl, hwalk, fun next hnext => le_depth_of_mem_entriesIn hnext, hends, halone, ?_, ?_, ?_⟩
  · rw [hbelow]
    exact Entry.forall₂_agrees_deeper entry.depth alone
  · rw [halone, hwalk, hbelow]
    rw [Style.resolve_append, Style.resolve_cons, Style.resolve_cons, Style.resolve_append,
      Style.resolve_map_deeper]
    exact ⟨rfl, rfl⟩
  · rw [halone, hwalk, hbelow, Style.diagnostics_append, Style.diagnostics_cons,
      Style.diagnostics_cons entry, Style.diagnostics_append, Style.diagnostics_map_deeper]
    exact ⟨rfl, rfl⟩

/-! ## Finding a node -/

namespace SceneTree

theorem find?_eq (tree : SceneTree) (id : String) :
    tree.find? id =
      ((Walker.start tree.roots).rest.find? fun entry => entry.id == id).map Entry.node := by
  rw [find?, findIn?_eq id none 0 0, Walker.rest_start, preorder]

theorem find?_eq_none_iff (tree : SceneTree) (id : String) :
    tree.find? id = none ↔ ∀ entry ∈ (Walker.start tree.roots).rest, entry.id ≠ id := by
  rw [find?_eq, Option.map_eq_none_iff, List.find?_eq_none]
  simp only [beq_iff_eq, ne_eq]

/-- A node that is found by its id is the node of the first entry with the id. -/
theorem exists_first_of_find? {tree : SceneTree} {id : String} {node : Node}
    (h : tree.find? id = some node) :
    ∃ before entry others, preorder tree.roots = before ++ entry :: others ∧
      entry.node = node ∧ entry.id = id ∧ ∀ earlier ∈ before, earlier.id ≠ id := by
  rw [find?_eq, Walker.rest_start] at h
  obtain ⟨entry, hfind, rfl⟩ := Option.map_eq_some_iff.1 h
  obtain ⟨hid, before, others, hwalk, hbefore⟩ := List.find?_eq_some_iff_append.1 hfind
  refine ⟨before, entry, others, hwalk, rfl, by simpa using hid, fun earlier hearlier => ?_⟩
  simpa using hbefore earlier hearlier

end SceneTree

/-! ## Well-formed scenes -/

section

variable {roots : List Node} {node : Node} {before : List Entry} {entry : Entry}
  {below after alone : List Entry}

theorem WalkedWithin.map_node_below (h : WalkedWithin roots node before entry below after alone) :
    alone.map Entry.node = below.map Entry.node := by
  rw [← List.forall₂_eq_eq_eq, List.forall₂_map_left_iff, List.forall₂_map_right_iff]
  exact h.agrees.imp fun _ _ hagrees => hagrees.node

/-- The nodes of the walk of a node alone are among those of the walk of its forest, in order. -/
theorem WalkedWithin.map_node_sublist
    (h : WalkedWithin roots node before entry below after alone) :
    ((preorder [node]).map Entry.node).Sublist ((preorder roots).map Entry.node) := by
  have hpiece : (preorder [node]).map Entry.node = (entry :: below).map Entry.node := by
    rw [← Walker.rest_start, h.walkAlone, List.map_cons, List.map_cons,
      h.map_node_below, h.node_eq]
    rfl
  rw [hpiece, ← Walker.rest_start roots, h.walk]
  refine List.Sublist.map Entry.node (List.Sublist.trans ?_ (List.sublist_append_right before _))
  exact (List.sublist_append_left below after).cons_cons entry

end

/-- A scene with some of the nodes of a well-formed scene is well formed. -/
theorem SceneTree.WellFormed.of_sublist {tree selected : SceneTree} (h : tree.WellFormed)
    (hsub : ((preorder selected.roots).map Entry.node).Sublist
      ((preorder tree.roots).map Entry.node)) : selected.WellFormed := by
  have hnode : ∀ entry ∈ preorder selected.roots, ∃ other ∈ preorder tree.roots,
      other.node = entry.node := by
    intro entry hentry
    exact List.mem_map.1 (hsub.mem (List.mem_map_of_mem hentry))
  have hids : ∀ entries : List Entry,
      entries.map Entry.id = (entries.map Entry.node).map Node.id := by
    intro entries
    rw [List.map_map]
    rfl
  refine ⟨?_, ?_, ?_, ?_⟩
  · intro entry hentry
    obtain ⟨other, hother, heq⟩ := hnode entry hentry
    rw [Entry.id, ← heq]
    exact h.id_ne_empty other hother
  · have hnodup := h.nodup_ids
    rw [hids] at hnodup ⊢
    exact hnodup.sublist (hsub.map Node.id)
  · intro entry hentry
    obtain ⟨other, hother, heq⟩ := hnode entry hentry
    rw [Entry.layer, ← heq]
    exact h.isSome_frame? other hother
  · intro entry hentry
    obtain ⟨other, hother, heq⟩ := hnode entry hentry
    rw [Entry.layer, ← heq]
    exact h.sound other hother

/-- The nodes that the options select are nodes of the scene, in order. -/
theorem map_node_sublist_of_rootsOf {tree : SceneTree} {options : Options} {roots : List Node}
    (hroots : rootsOf tree options = .ok roots) :
    ((preorder roots).map Entry.node).Sublist ((preorder tree.roots).map Entry.node) := by
  unfold rootsOf at hroots
  split at hroots
  · cases hroots
    exact List.Sublist.refl _
  · split at hroots
    · rename_i node hfind
      cases hroots
      obtain ⟨before, entry, others, hwalk, rfl, -⟩ := SceneTree.exists_first_of_find? hfind
      obtain ⟨below, after, alone, -, hwithin⟩ := exists_walkedWithin hwalk
      exact hwithin.map_node_sublist
    · cases hroots

/-- What the options select of a well-formed scene is well formed. -/
theorem SceneTree.WellFormed.of_rootsOf {tree : SceneTree} (h : tree.WellFormed)
    {options : Options} {roots : List Node} (hroots : rootsOf tree options = .ok roots)
    (name : Option String) : (SceneTree.mk name roots).WellFormed :=
  h.of_sublist (map_node_sublist_of_rootsOf hroots)

/-! ## Compiling -/

theorem compileTree_selected {tree : SceneTree} {id : String} {node : Node}
    (h : tree.find? id = some node) (options : Options) (name : Option String) :
    compileTree tree { options with rootNode := some id } =
      compileTree ⟨name, [node]⟩ { options with rootNode := none } := by
  have hroots : rootsOf tree { options with rootNode := some id } = .ok [node] := by
    rw [rootsOf]
    dsimp only
    rw [h]
  rw [compileTree, compileTree, compileParsed_eq, compileParsed_eq, hroots]
  rfl

/-- A node is selected by its id as the first with that id in the walk of the scene, if there is
one. What is below it is walked and styled as in the whole scene, in one piece and with the depths
counted from the node. And it is compiled as the only root of a scene would be. -/
theorem selection_local (tree : SceneTree) (id : String) :
    tree.find? id =
        ((Walker.start tree.roots).rest.find? fun entry => entry.id == id).map Entry.node ∧
      (tree.find? id = none ↔ ∀ entry ∈ (Walker.start tree.roots).rest, entry.id ≠ id) ∧
      ∀ node, tree.find? id = some node →
        (∃ before entry below after alone,
          WalkedWithin tree.roots node before entry below after alone ∧
            entry.id = id ∧ ∀ earlier ∈ before, earlier.id ≠ id) ∧
        ∀ (options : Options) (name : Option String),
          compileTree tree { options with rootNode := some id } =
            compileTree ⟨name, [node]⟩ { options with rootNode := none } := by
  refine ⟨tree.find?_eq id, tree.find?_eq_none_iff id, fun node h => ⟨?_, compileTree_selected h⟩⟩
  obtain ⟨before, entry, others, hwalk, rfl, hid, hbefore⟩ := SceneTree.exists_first_of_find? h
  obtain ⟨below, after, alone, -, hwithin⟩ := exists_walkedWithin hwalk
  exact ⟨before, entry, below, after, alone, hwithin, hid, hbefore⟩

/-- Of two nodes with the same id the first is selected, which is not a root. Its two children are
walked and styled as they are in the scene, where they are one level deeper. -/
theorem selection_local_second_id :
    let leaf (id : String) : Node := ⟨.ofKind id (.shape ⟨.star, .uniform 0⟩), []⟩
    let text : Node := ⟨.ofKind "d" (.text (.ofStyle "Hi" (.ofFont "Inter" 400 16))), []⟩
    let node : Node :=
      ⟨.ofKind "b" (.frame { Frame.plain with layoutMode := .horizontal }), [leaf "c", text]⟩
    let tree : SceneTree := ⟨none, [leaf "x",
      ⟨.ofKind "a" (.frame .plain), [leaf "y", node, leaf "b"]⟩, leaf "z"]⟩
    let listed (entries : List Entry) := entries.map fun entry => (entry.id, entry.depth)
    tree.find? "b" = some node ∧
      listed (Walker.start tree.roots).rest =
        [("x", 0), ("a", 0), ("y", 1), ("b", 1), ("c", 2), ("d", 2), ("b", 1), ("z", 0)] ∧
      listed (Walker.start [node]).rest = [("b", 0), ("c", 1), ("d", 1)] ∧
      (∃ before entry below after alone,
        WalkedWithin tree.roots node before entry below after alone ∧
          before.map (·.id) = ["x", "a", "y"] ∧ below.map (·.node) = [leaf "c", text]) ∧
      compileTree tree { Options.default with rootNode := some "b" } =
        compileTree ⟨none, [node]⟩ .default := by
  intro leaf text node tree listed
  have hfind : tree.find? "b" = some node := rfl
  obtain ⟨-, -, hselected⟩ := selection_local tree "b"
  obtain ⟨⟨before, entry, below, after, alone, hwithin, hid, hbefore⟩, hcompiles⟩ :=
    hselected node hfind
  refine ⟨hfind, rfl, rfl, ⟨before, entry, below, after, alone, hwithin, ?_, ?_⟩,
    hcompiles .default none⟩
  · have hids := congrArg (fun walk => (walk.map Entry.id).takeWhile (· != "b")) hwithin.walk
    have hall : ∀ other ∈ before.map Entry.id, (other != "b") = true := by
      simpa using hbefore
    simp only [List.map_append, List.map_cons, hid] at hids
    rw [List.takeWhile_append_of_pos hall, List.takeWhile_cons_of_neg (by simp),
      List.append_nil] at hids
    exact hids.symm
  · have halone : (Walker.start [node]).rest.tail = alone := by
      rw [hwithin.walkAlone, List.tail_cons]
    rw [← hwithin.map_node_below, ← halone]
    rfl

end SceneMarkup
