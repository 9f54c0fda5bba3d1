/-
  SceneMarkup/Proofs/Walk.lean --- the walker lists a forest in order.

  WHAT THIS FILE IS FOR.  The walker is a machine with a stack, the listing is recursion
  on the forest.  `Walker.rest_start` makes them one, so that everything after the walk
  can be discussed on the forest itself.
-/
import SceneMarkup.Walk

set_option autoImplicit false

namespace SceneMarkup

/-! ## Induction on forests -/

/-- Induction on a forest: the first tree is a layer over a forest of children, and the other
trees are a forest as well. -/
@[elab_as_elim]
theorem forest_induction {motive : List Node → Prop} (nil : motive [])
    (cons : ∀ layer children rest, motive children → motive rest →
      motive (⟨layer, children⟩ :: rest)) :
    ∀ nodes, motive nodes
  | [] => nil
  | ⟨layer, children⟩ :: rest =>
      cons layer children rest (forest_induction nil cons children)
        (forest_induction nil cons rest)

theorem countIn_cons (layer : Layer) (children rest : List Node) :
    countIn (⟨layer, children⟩ :: rest) = 1 + countIn children + countIn rest := by
  rw [countIn, Node.count]

theorem entriesIn_cons (parent : Option Layer) (depth index : Nat) (layer : Layer)
    (children rest : List Node) :
    entriesIn parent depth index (⟨layer, children⟩ :: rest) =
      .ofNode parent depth index ⟨layer, children⟩ ::
        (entriesIn (some layer) (depth + 1) 0 children ++
          entriesIn parent depth (index + 1) rest) := by
  rw [entriesIn, Node.entries, List.cons_append]

/-- A forest has as many entries as nodes. -/
theorem length_entriesIn (parent : Option Layer) (depth index : Nat) (nodes : List Node) :
    (entriesIn parent depth index nodes).length = countIn nodes := by
  induction nodes using forest_induction generalizing parent depth index with
  | nil => rw [entriesIn, countIn, List.length_nil]
  | cons layer children rest ihChildren ihRest =>
      rw [entriesIn_cons, countIn_cons, List.length_cons, List.length_append, ihChildren, ihRest]
      omega

/-- Nothing in a forest lies above its roots. -/
theorem le_depth_of_mem_entriesIn {parent : Option Layer} {depth index : Nat} {nodes : List Node}
    {entry : Entry} (h : entry ∈ entriesIn parent depth index nodes) : depth ≤ entry.depth := by
  induction nodes using forest_induction generalizing parent depth index with
  | nil => simp [entriesIn] at h
  | cons layer children rest ihChildren ihRest =>
      rw [entriesIn_cons, List.mem_cons, List.mem_append] at h
      rcases h with rfl | h | h
      · exact Nat.le_refl depth
      · exact Nat.le_of_succ_le (ihChildren h)
      · exact ihRest h

/-- A forest begins with a root. -/
theorem depth_of_mem_head?_entriesIn {parent : Option Layer} {depth index : Nat}
    {nodes : List Node} {next : Entry}
    (h : next ∈ (entriesIn parent depth index nodes).head?) : next.depth = depth := by
  cases nodes with
  | nil => simp [entriesIn] at h
  | cons node rest =>
      obtain ⟨layer, children⟩ := node
      rw [entriesIn_cons, List.head?_cons, Option.mem_some_iff] at h
      rw [← h]
      rfl

/-! ## The walker -/

namespace Pending

/-- The entries of the trees that are still to be visited. -/
def listing (stack : List Pending) : List Entry :=
  stack.flatMap fun p => p.node.entries p.parent p.depth p.index

theorem listing_append (stack others : List Pending) :
    listing (stack ++ others) = listing stack ++ listing others := by
  rw [listing, List.flatMap_append, listing, listing]

theorem listing_siblings (parent : Option Layer) (depth index : Nat) (nodes : List Node) :
    listing (siblings parent depth index nodes) = entriesIn parent depth index nodes := by
  induction nodes generalizing index with
  | nil => rw [siblings, entriesIn, listing, List.flatMap_nil]
  | cons node rest ih =>
      rw [siblings, entriesIn, ← ih (index + 1), listing, List.flatMap_cons, listing]

theorem total_append (stack others : List Pending) :
    total (stack ++ others) = total stack + total others := by
  induction stack with
  | nil => rw [List.nil_append, total, Nat.zero_add]
  | cons p rest ih => rw [List.cons_append, total, total, ih, Nat.add_assoc]

theorem total_siblings (parent : Option Layer) (depth index : Nat) (nodes : List Node) :
    total (siblings parent depth index nodes) = countIn nodes := by
  induction nodes generalizing index with
  | nil => rw [siblings, total, countIn]
  | cons node rest ih => rw [siblings, total, countIn, ih]

/-- Visiting a node puts its children in its place. -/
theorem listing_cons (p : Pending) (stack : List Pending) :
    listing (p :: stack) = p.entry :: listing (p.children ++ stack) := by
  obtain ⟨⟨layer, children⟩, parent, depth, index⟩ := p
  rw [listing_append, Pending.children, listing_siblings, listing, List.flatMap_cons,
    Node.entries, List.cons_append, ← listing]
  rfl

theorem total_cons (p : Pending) (stack : List Pending) :
    total (p :: stack) = total (p.children ++ stack) + 1 := by
  obtain ⟨⟨layer, children⟩, parent, depth, index⟩ := p
  rw [total_append, Pending.children, total_siblings, total, Node.count]
  dsimp only
  omega

end Pending

namespace Walker

/-- Enough steps take all that is still to be visited. -/
theorem take_eq_listing (roots : List Node) (n : Nat) (stack : List Pending)
    (h : Pending.total stack ≤ n) : take n ⟨roots, stack⟩ = Pending.listing stack := by
  induction n generalizing stack with
  | zero =>
      cases stack with
      | nil => rfl
      | cons p stack => rw [Pending.total_cons] at h; omega
  | succ n ih =>
      cases stack with
      | nil => rfl
      | cons p stack =>
          have hrest : Pending.total (p.children ++ stack) ≤ n := by
            rw [Pending.total_cons] at h; omega
          rw [Pending.listing_cons, ← ih _ hrest]
          rfl

/-- A walk from the start lists the forest in order. -/
theorem rest_start (roots : List Node) : (start roots).rest = preorder roots := by
  rw [rest, start, take_eq_listing _ _ _ (Nat.le_refl _), Pending.listing_siblings, preorder]

end Walker

end SceneMarkup
