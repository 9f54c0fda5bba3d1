/-
  SceneMarkup/Proofs/Minting.lean --- the names that a namer gives one after the other.

  WHAT THIS FILE IS FOR.  A name is taken as it is suggested if it is new, and otherwise
  with the least number from two on that makes it new.  What is new depends on all names
  given before, numbered ones included.  Trying one number after the other, with no bound
  on how many are tried, comes to an end at that name (`LeastUnused.search_eq`), and no
  number is higher than one more than the names given before.
-/
import SceneMarkup.Proofs.ClassName

set_option autoImplicit false

namespace SceneMarkup.ClassName

/-! ## One name -/

/-- Tries at most `steps` names: the one at hand, and if it is in use the base with the next
number. -/
def search (used : List String) (base : String) : Nat → String → Nat → Option String
  | 0, _, _ => none
  | steps + 1, name, number =>
      if name ∈ used then search used base steps (base ++ "-" ++ toString number) (number + 1)
      else some name

/-- The search goes from one candidate to the next until one is free. -/
theorem search_eq_some {used : List String} {base : String} {skipped steps : Nat} (first : Nat)
    (hsteps : skipped < steps) (hused : ∀ j < skipped, candidate base (first + j) ∈ used)
    (hfree : candidate base (first + skipped) ∉ used) :
    search used base steps (candidate base first) (first + 2) =
      some (candidate base (first + skipped)) := by
  induction skipped generalizing first steps with
  | zero =>
      obtain ⟨steps, rfl⟩ := Nat.exists_eq_succ_of_ne_zero (Nat.ne_of_gt hsteps)
      rw [search, if_neg (by simpa using hfree), Nat.add_zero]
  | succ skipped ih =>
      obtain ⟨steps, rfl⟩ := Nat.exists_eq_succ_of_ne_zero (Nat.ne_of_gt (Nat.zero_lt_of_lt hsteps))
      have hhere : candidate base first ∈ used := hused 0 (Nat.succ_pos skipped)
      have hnext : ∀ j, first + 1 + j = first + (j + 1) := fun j => by omega
      have hlater := @ih steps (first + 1) (by omega)
        (fun j hj => by rw [hnext]; exact hused (j + 1) (by omega)) (by rwa [hnext])
      rw [search, if_pos hhere, ← hnext skipped, ← hlater]
      rfl

/-- The name that something is given after the names in `earlier`: it is new, it is the base if the
base is new, and otherwise the base with the least number from two on that makes it new. -/
structure LeastUnused (earlier : List String) (base given : String) : Prop where
  new : given ∉ earlier
  plain : base ∉ earlier → given = base
  numbered : base ∈ earlier → ∃ number, 2 ≤ number ∧ given = base ++ "-" ++ toString number ∧
    (∀ lower, 2 ≤ lower → lower < number → base ++ "-" ++ toString lower ∈ earlier) ∧
    number ≤ earlier.length + 1

theorem leastUnused_firstFree (used : List String) (base : String) :
    LeastUnused used base (firstFree used base) := by
  obtain ⟨k, hk, hfree, hbefore⟩ := firstFree_eq used base
  rw [hk]
  refine ⟨hfree, fun hbase => ?_, fun hbase => ?_⟩
  · cases k with
    | zero => rfl
    | succ k => exact absurd (hbefore 0 (Nat.succ_pos k)) hbase
  · cases k with
    | zero => exact absurd hbase hfree
    | succ k =>
        refine ⟨k + 2, Nat.le_add_left 2 k, rfl, fun lower htwo hlower => ?_, ?_⟩
        · obtain ⟨j, rfl⟩ := Nat.exists_eq_add_of_le' htwo
          exact hbefore (j + 1) (by omega)
        · have hlength := le_length_of_candidates_mem hbefore
          omega

namespace LeastUnused

variable {earlier : List String} {base given : String}

/-- The order in which the earlier names were given does not matter. -/
theorem perm (h : LeastUnused earlier base given) {others : List String}
    (hperm : earlier.Perm others) : LeastUnused others base given := by
  refine ⟨fun hmem => h.new (hperm.mem_iff.2 hmem),
    fun hbase => h.plain fun hmem => hbase (hperm.mem_iff.1 hmem), fun hbase => ?_⟩
  obtain ⟨number, htwo, hgiven, hlower, hlength⟩ := h.numbered (hperm.mem_iff.2 hbase)
  exact ⟨number, htwo, hgiven, fun lower h2 hlt => hperm.mem_iff.1 (hlower lower h2 hlt),
    hperm.length_eq ▸ hlength⟩

/-- The search ends at the least unused name, if only it may go on for long enough. -/
theorem search_eq (h : LeastUnused earlier base given) :
    ∃ enough, ∀ steps ≥ enough, search earlier base steps base 2 = some given := by
  by_cases hbase : base ∈ earlier
  · obtain ⟨number, htwo, hgiven, hlower, -⟩ := h.numbered hbase
    obtain ⟨k, rfl⟩ := Nat.exists_eq_add_of_le' htwo
    have hused : ∀ j < k + 1, candidate base (0 + j) ∈ earlier := by
      intro j hj
      rw [Nat.zero_add]
      cases j with
      | zero => exact hbase
      | succ j => exact hlower (j + 2) (Nat.le_add_left 2 j) (by omega)
    have hfree : candidate base (0 + (k + 1)) ∉ earlier := by
      rw [Nat.zero_add, candidate, ← hgiven]
      exact h.new
    refine ⟨k + 2, fun steps hsteps => (search_eq_some 0 hsteps hused hfree).trans ?_⟩
    rw [hgiven, Nat.zero_add]
    rfl
  · refine ⟨1, fun steps hsteps => (search_eq_some 0 hsteps (fun j hj => ?_) hbase).trans ?_⟩
    · exact absurd hj (Nat.not_lt_zero j)
    · rw [h.plain hbase]
      rfl

end LeastUnused

/-! ## Many names -/

namespace Namer

/-- The names that are given one after the other, for pairs of a name and a fallback. -/
def minted (namer : Namer) : List (String × String) → List String
  | [] => []
  | (name, fallback) :: rest =>
      let (given, namer) := namer.mint name fallback
      given :: namer.minted rest

theorem minted_cons (namer : Namer) (name fallback : String) (rest : List (String × String)) :
    namer.minted ((name, fallback) :: rest) =
      (namer.mint name fallback).1 :: (namer.mint name fallback).2.minted rest := rfl

theorem used_mint (namer : Namer) (name fallback : String) :
    (namer.mint name fallback).2.used = (namer.mint name fallback).1 :: namer.used := rfl

theorem start_mint (namer : Namer) (name fallback : String) :
    (namer.mint name fallback).2.start = namer.start := rfl

theorem length_minted (namer : Namer) (requests : List (String × String)) :
    (namer.minted requests).length = requests.length := by
  induction requests generalizing namer with
  | nil => rfl
  | cons request rest ih => rw [minted_cons, List.length_cons, List.length_cons, ih]

/-- Every name that is given is different from those in use and from the other given ones. -/
theorem nodup_minted {namer : Namer} (h : namer.used.Nodup) (requests : List (String × String)) :
    (namer.used.reverse ++ namer.minted requests).Nodup := by
  induction requests generalizing namer with
  | nil =>
      rw [minted, List.append_nil]
      exact List.nodup_reverse.2 h
  | cons request rest ih =>
      have hused : (namer.mint request.1 request.2).2.used.Nodup :=
        List.nodup_cons.2 ⟨mint_not_mem namer request.1 request.2, h⟩
      have hrest := ih hused
      rwa [used_mint, List.reverse_cons, List.append_assoc, List.singleton_append] at hrest

/-- Each name is the first free one after the names in use and the ones given before it. -/
theorem minted_append_cons (namer : Namer) (before after : List (String × String))
    (name fallback : String) :
    ∃ later, namer.minted (before ++ (name, fallback) :: after) =
      namer.minted before ++
        firstFree ((namer.minted before).reverse ++ namer.used)
          (namer.start ++ suggest name fallback) :: later := by
  induction before generalizing namer with
  | nil => exact ⟨_, rfl⟩
  | cons request before ih =>
      obtain ⟨later, hlater⟩ := ih (namer.mint request.1 request.2).2
      refine ⟨later, ?_⟩
      rw [List.cons_append, minted_cons, hlater, minted_cons, List.cons_append, used_mint,
        start_mint, List.reverse_cons, List.append_assoc, List.singleton_append]

/-- A namer that begins gives as many names as it is asked for, all different. Each of them is the
least that was not given before, with a number only where it needs one, and trying one number after
the other ends there. -/
theorem minted_least_unused (start : String) :
    (∀ requests : List (String × String),
      ((fresh start).minted requests).length = requests.length ∧
        ((fresh start).minted requests).Nodup) ∧
    ∀ (before : List (String × String)) (name fallback : String)
      (after : List (String × String)),
      let base := start ++ suggest name fallback
      let earlier := (fresh start).minted before
      ∃ given later,
        (fresh start).minted (before ++ (name, fallback) :: after) = earlier ++ given :: later ∧
          LeastUnused earlier base given ∧
          ∃ enough, ∀ steps ≥ enough, search earlier base steps base 2 = some given := by
  refine ⟨fun requests => ⟨length_minted _ requests, ?_⟩, fun before name fallback after => ?_⟩
  · exact @nodup_minted (fresh start) List.nodup_nil requests
  · obtain ⟨later, hlater⟩ := minted_append_cons (fresh start) before after name fallback
    have hleast := leastUnused_firstFree (((fresh start).minted before).reverse ++ [])
      (start ++ suggest name fallback)
    rw [List.append_nil] at hleast
    have hearlier := hleast.perm (List.reverse_perm _)
    refine ⟨_, later, hlater, ?_, ?_⟩
    · rw [show (fresh start).used = [] from rfl, List.append_nil]
      exact hearlier
    · rw [show (fresh start).used = [] from rfl, List.append_nil]
      exact hearlier.search_eq

/-- A name that ends in a number takes the number away from a later one. -/
example : (fresh "").minted [("Card 2", "frame"), ("Card", "frame"), ("Card", "frame")] =
    ["card-2", "card", "card-3"] := by
  decide +kernel

end Namer

end SceneMarkup.ClassName
