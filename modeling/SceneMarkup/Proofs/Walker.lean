/-
  SceneMarkup/Proofs/Walker.lean --- walkers that are called, begun again and copied in
  any order.

  WHAT THIS FILE IS FOR.  A walker keeps a stack of nodes; what it is meant to be is a
  position in the listing of its forest.  Both give entries and begin again, so both are
  a `Source`, and sources that go on alike answer all calls alike (`Source.Alike`).  The
  invariant is that the stack of a walker lists what is behind its position.
-/
import SceneMarkup.Proofs.Places

set_option autoImplicit false

namespace SceneMarkup

/-- A call on one of several sources, which are numbered in the order in which they were made. -/
inductive Call where
  | next (source : Nat)
  | restart (source : Nat)
  | clone (source : Nat)
  deriving DecidableEq, Repr

/-- What gives entries one after the other, as long as there are any, and can begin again. -/
structure Source (σ : Type) where
  next : σ → Option (Entry × σ)
  restart : σ → σ

namespace Source

variable {σ τ : Type}

/-- The answer to a call, which is an entry if the next one is asked for and there is one, and the
sources after the call. A copy comes behind all other sources. -/
def call (source : Source σ) (states : List σ) : Call → Option Entry × List σ
  | .next i =>
      match states[i]?.bind source.next with
      | none => (none, states)
      | some (entry, s) => (some entry, states.set i s)
  | .restart i =>
      match states[i]? with
      | none => (none, states)
      | some s => (none, states.set i (source.restart s))
  | .clone i => (none, states ++ states[i]?.toList)

/-- The answers to some calls, in order. -/
def answers (source : Source σ) (states : List σ) : List Call → List (Option Entry)
  | [] => []
  | c :: rest => (source.call states c).1 :: answers source (source.call states c).2 rest

/-- The sources after some calls. -/
def after (source : Source σ) (states : List σ) (calls : List Call) : List σ :=
  calls.foldl (fun states c => (source.call states c).2) states

/-! ## Sources that go on alike -/

theorem forall₂_getElem? {R : σ → τ → Prop} {xs : List σ} {ys : List τ}
    (h : List.Forall₂ R xs ys) (i : Nat) :
    (xs[i]? = none ∧ ys[i]? = none) ∨ ∃ x y, xs[i]? = some x ∧ ys[i]? = some y ∧ R x y := by
  induction h generalizing i with
  | nil => exact Or.inl ⟨rfl, rfl⟩
  | cons hxy _ ih =>
      cases i with
      | zero => exact Or.inr ⟨_, _, rfl, rfl, hxy⟩
      | succ i => simpa using ih i

theorem forall₂_set {R : σ → τ → Prop} {xs : List σ} {ys : List τ} {x : σ} {y : τ}
    (h : List.Forall₂ R xs ys) (hxy : R x y) (i : Nat) :
    List.Forall₂ R (xs.set i x) (ys.set i y) := by
  induction h generalizing i with
  | nil => exact .nil
  | cons hhead htail ih =>
      cases i with
      | zero => exact .cons hxy htail
      | succ i => exact .cons hhead (ih i)

/-- Related states give the same entry, if any, and are related afterwards. -/
structure Alike (first : Source σ) (second : Source τ) (R : σ → τ → Prop) : Prop where
  next : ∀ s t, R s t → (first.next s = none ∧ second.next t = none) ∨
    ∃ entry s' t', first.next s = some (entry, s') ∧ second.next t = some (entry, t') ∧ R s' t'
  restart : ∀ s t, R s t → R (first.restart s) (second.restart t)

namespace Alike

variable {first : Source σ} {second : Source τ} {R : σ → τ → Prop} {states : List σ}
  {states' : List τ}

theorem call (h : Alike first second R) (hstates : List.Forall₂ R states states') (c : Call) :
    (first.call states c).1 = (second.call states' c).1 ∧
      List.Forall₂ R (first.call states c).2 (second.call states' c).2 := by
  cases c with
  | next i =>
      rcases forall₂_getElem? hstates i with ⟨hs, ht⟩ | ⟨s, t, hs, ht, hst⟩
      · simp [Source.call, hs, ht, hstates]
      · rcases h.next s t hst with ⟨hs', ht'⟩ | ⟨entry, s', t', hs', ht', hst'⟩
        · simp [Source.call, hs, ht, hs', ht', hstates]
        · simp [Source.call, hs, ht, hs', ht', forall₂_set hstates hst']
  | restart i =>
      rcases forall₂_getElem? hstates i with ⟨hs, ht⟩ | ⟨s, t, hs, ht, hst⟩
      · simp [Source.call, hs, ht, hstates]
      · simp [Source.call, hs, ht, forall₂_set hstates (h.restart s t hst)]
  | clone i =>
      refine ⟨rfl, List.rel_append hstates ?_⟩
      rcases forall₂_getElem? hstates i with ⟨hs, ht⟩ | ⟨s, t, hs, ht, hst⟩
      · simp [hs, ht]
      · simp [hs, ht, hst]

/-- Related sources give the same answers to all calls, and are related after them. -/
theorem answers_eq (h : Alike first second R) (hstates : List.Forall₂ R states states')
    (calls : List Call) :
    first.answers states calls = second.answers states' calls ∧
      List.Forall₂ R (first.after states calls) (second.after states' calls) := by
  induction calls generalizing states states' with
  | nil => exact ⟨rfl, hstates⟩
  | cons c rest ih =>
      obtain ⟨hanswer, hnext⟩ := h.call hstates c
      obtain ⟨hanswers, hafter⟩ := ih hnext
      exact ⟨by rw [answers, answers, hanswer, hanswers], hafter⟩

end Alike

/-! ## Positions -/

/-- Positions in a listing: how many entries were taken since the beginning. -/
def positions (listing : List Entry) : Source Nat where
  next taken := listing[taken]?.map (·, taken + 1)
  restart _ := 0

theorem next_positions (listing : List Entry) (taken : Nat) :
    (positions listing).next taken = listing[taken]?.map (·, taken + 1) := rfl

/-- One position that only goes on takes the entries of the listing, and then none. -/
theorem answers_positions_replicate (listing : List Entry) (taken n : Nat) :
    (positions listing).answers [taken] (List.replicate n (.next 0)) =
      (List.range n).map fun i => listing[taken + i]? := by
  induction n generalizing taken with
  | zero => rfl
  | succ n ih =>
      rw [List.replicate_succ, List.range_succ_eq_map, List.map_cons, List.map_map, answers]
      cases hentry : listing[taken]? with
      | some entry =>
          have hcall : (positions listing).call [taken] (.next 0) = (some entry, [taken + 1]) := by
            simp [call, next_positions, hentry]
          rw [hcall, ih]
          refine congrArg _ (List.map_congr_left fun i _ => ?_)
          rw [Function.comp_apply, Nat.succ_eq_add_one, Nat.add_right_comm, Nat.add_assoc]
      | none =>
          have hcall : (positions listing).call [taken] (.next 0) = (none, [taken]) := by
            simp [call, next_positions, hentry]
          -- the position stays, but there is no entry at any position from here on
          have hend : ∀ i, listing[taken + i]? = none := fun i => by
            rw [List.getElem?_eq_none_iff] at hentry ⊢
            omega
          rw [hcall, ih]
          simp only [hend, Function.comp_def]

end Source

namespace Walker

/-- Walkers as sources of entries. -/
def source : Source Walker := ⟨next, restart⟩

/-- A walker over some roots that has taken a number of entries: its stack lists the others. -/
structure Took (roots : List Node) (w : Walker) (taken : Nat) : Prop where
  roots_eq : w.roots = roots
  listing_eq : Pending.listing w.stack = (preorder roots).drop taken

theorem took_start (roots : List Node) : Took roots (start roots) 0 :=
  ⟨rfl, Pending.listing_siblings none 0 0 roots⟩

theorem Took.next {roots : List Node} {w : Walker} {taken : Nat} (h : Took roots w taken) :
    (w.next = none ∧ (preorder roots)[taken]? = none) ∨
      ∃ entry w', w.next = some (entry, w') ∧ (preorder roots)[taken]? = some entry ∧
        Took roots w' (taken + 1) := by
  obtain ⟨roots', stack⟩ := w
  obtain ⟨rfl, hlisting⟩ := h
  cases stack with
  | nil =>
      refine Or.inl ⟨rfl, List.getElem?_eq_none ?_⟩
      exact List.drop_eq_nil_iff.1 hlisting.symm
  | cons p stack =>
      rw [Pending.listing_cons] at hlisting
      refine Or.inr ⟨p.entry, ⟨roots', p.children ++ stack⟩, rfl, ?_, rfl, ?_⟩
      · rw [← List.head?_drop, ← hlisting, List.head?_cons]
      · rw [← List.tail_drop, ← hlisting, List.tail_cons]

theorem Took.rest {roots : List Node} {w : Walker} {taken : Nat} (h : Took roots w taken) :
    w.rest = (preorder roots).drop taken := by
  rw [Walker.rest, take_eq_listing w.roots _ w.stack (Nat.le_refl _), h.listing_eq]

/-- Walkers over a forest are positions in its listing. -/
theorem alike_positions (roots : List Node) :
    Source.Alike source (.positions (preorder roots)) (Took roots) where
  next w taken h := by
    rcases h.next with ⟨hnone, hend⟩ | ⟨entry, w', hnext, hentry, h'⟩
    · exact Or.inl ⟨hnone, by rw [Source.next_positions, hend]; rfl⟩
    · exact Or.inr ⟨entry, w', taken + 1, hnext, by rw [Source.next_positions, hentry]; rfl, h'⟩
  restart w taken h := by
    have hrestart : source.restart w = start roots := by rw [← h.roots_eq]; rfl
    rw [hrestart]
    exact took_start roots

/-- The listing of a forest has one entry for each of its nodes, in order and with the place of the
node. A walker gives the entries of the listing one after the other and then none for ever. However
walkers are called, begun again and copied, each of them answers as its own position in the listing
does, and what is still to come from it is the rest of the listing behind that position. -/
theorem refines_positions (roots : List Node) :
    IsPreorder roots (preorder roots) ∧
      (∀ name, (SceneTree.mk name roots).nodeCount = (preorder roots).length) ∧
      (∀ n, source.answers [start roots] (List.replicate n (.next 0)) =
        (List.range n).map ((preorder roots)[·]?)) ∧
      ∀ calls, source.answers [start roots] calls =
          (Source.positions (preorder roots)).answers [0] calls ∧
        (source.after [start roots] calls).map Walker.rest =
          ((Source.positions (preorder roots)).after [0] calls).map (preorder roots).drop := by
  have hcalls := fun calls =>
    (alike_positions roots).answers_eq (.cons (took_start roots) .nil) calls
  refine ⟨isPreorder_preorder roots, fun _ => (length_entriesIn none 0 0 roots).symm, ?_, ?_⟩
  · intro n
    rw [(hcalls _).1, Source.answers_positions_replicate]
    simp only [Nat.zero_add]
  · intro calls
    refine ⟨(hcalls calls).1, ?_⟩
    have hafter := (hcalls calls).2
    rw [← List.forall₂_eq_eq_eq, List.forall₂_map_left_iff, List.forall₂_map_right_iff]
    exact hafter.imp fun w taken h => h.rest

end Walker

end SceneMarkup
