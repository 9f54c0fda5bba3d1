/-
  SceneMarkup/Proofs/ClassName.lean --- a new class name is new.

  WHAT THIS FILE IS FOR.  A name is searched for among finitely many candidates.  The
  candidates are all different and there is one more of them than there are names in
  use, so the search always ends at a name that is free, and at the first such name.
-/
import Mathlib.Data.List.Nodup
import Mathlib.Data.List.Perm.Subperm
import SceneMarkup.ClassName
import SceneMarkup.Proofs.Style.Lexis
import SceneMarkup.Proofs.Words

set_option autoImplicit false

namespace SceneMarkup.ClassName

/-- Numbers are written differently if they are different. -/
theorem toString_nat_injective {m n : Nat} (h : toString m = toString n) : m = n := by
  have hchars := congrArg String.toList h
  rw [Nat.toString_eq_ofList_toDigits, Nat.toString_eq_ofList_toDigits, String.toList_ofList,
    String.toList_ofList] at hchars
  have hvalue := congrArg (fun digits => Nat.ofDigitChars 10 digits 0) hchars
  simpa only [Nat.ofDigitChars_ten_toDigits] using hvalue

theorem toList_candidate_succ (base : String) (k : Nat) :
    (candidate base (k + 1)).toList = base.toList ++ '-' :: (toString (k + 2)).toList := by
  rw [candidate, String.toList_append, String.toList_append, List.append_assoc]
  rfl

theorem candidate_injective (base : String) : Function.Injective (candidate base) := by
  have hzero : ∀ k, candidate base 0 ≠ candidate base (k + 1) := by
    intro k h
    have hlength := congrArg (fun s => s.toList.length) h
    rw [toList_candidate_succ, List.length_append, List.length_cons, candidate] at hlength
    omega
  intro i j h
  cases i with
  | zero =>
      cases j with
      | zero => rfl
      | succ j => exact absurd h (hzero j)
  | succ i =>
      cases j with
      | zero => exact absurd h.symm (hzero i)
      | succ j =>
          have hchars := congrArg String.toList h
          rw [toList_candidate_succ, toList_candidate_succ, List.append_cancel_left_eq,
            List.cons.injEq, String.toList_inj] at hchars
          have hnumber := toString_nat_injective hchars.2
          omega

/-- Names in use are at least as many as the first candidates that are all among them. -/
theorem le_length_of_candidates_mem {used : List String} {base : String} {n : Nat}
    (h : ∀ k < n, candidate base k ∈ used) : n ≤ used.length := by
  have hnodup : ((List.range n).map (candidate base)).Nodup :=
    (List.nodup_map_iff (candidate_injective base)).2 List.nodup_range
  have hsubset : (List.range n).map (candidate base) ⊆ used := by
    intro name hname
    obtain ⟨k, hk, rfl⟩ := List.mem_map.1 hname
    exact h k (List.mem_range.1 hk)
  have hlength := (hnodup.subperm hsubset).length_le
  rwa [List.length_map, List.length_range] at hlength

/-- Not all of the candidates that are tried can be in use. -/
theorem exists_candidate_not_mem (used : List String) (base : String) :
    ∃ k < used.length + 1, candidate base k ∉ used := by
  by_contra hall
  push Not at hall
  exact absurd (le_length_of_candidates_mem hall) (Nat.not_succ_le_self _)

/-- The name that is found is the first candidate that is not in use. -/
theorem firstFree_eq (used : List String) (base : String) :
    ∃ k, firstFree used base = candidate base k ∧ candidate base k ∉ used ∧
      ∀ j < k, candidate base j ∈ used := by
  cases hfind : (List.range (used.length + 1)).find? fun k => candidate base k ∉ used with
  | none =>
      obtain ⟨k, hk, hfree⟩ := exists_candidate_not_mem used base
      rw [List.find?_range_eq_none] at hfind
      exact absurd (hfind k hk) (by simpa using hfree)
  | some k =>
      obtain ⟨hfree, _, hbefore⟩ := List.find?_range_eq_some.1 hfind
      refine ⟨k, ?_, by simpa using hfree, fun j hj => by simpa using hbefore j hj⟩
      rw [firstFree, hfind, Option.getD_some]

theorem mint_not_mem (namer : Namer) (name fallback : String) :
    (namer.mint name fallback).1 ∉ namer.used := by
  obtain ⟨k, hk, hfree, _⟩ := firstFree_eq namer.used (namer.start ++ suggest name fallback)
  rw [Namer.mint, hk]
  exact hfree

/-! ## Characters -/

open Style (IsName isNameChar)

theorem isNameChar_of_isAlphanum {c : Char} (h : c.isAlphanum = true) : isNameChar c = true := by
  rw [isNameChar, h, Bool.true_or]

/-- A suggested name is usable if the name has a letter or a digit, or else if the fallback is. -/
theorem isName_suggest {name fallback : String}
    (h : Text.kebab name.toList = [] → IsName fallback) : IsName (suggest name fallback) := by
  have hbase : ∀ base : List Char, base ≠ [] → (∀ c ∈ base, isNameChar c = true) →
      IsName (String.ofList
        (if base.head?.any Char.isDigit then 'n' :: '-' :: base else base)) := by
    intro base hne hall
    split
    · refine ⟨fun hempty => ?_, ?_⟩
      · have hchars := congrArg String.toList hempty
        rw [String.toList_ofList] at hchars
        simp at hchars
      · rw [String.toList_ofList, List.all_cons, List.all_cons, List.all_eq_true.2 hall]
        rfl
    · refine ⟨fun hempty => ?_, ?_⟩
      · have hchars := congrArg String.toList hempty
        rw [String.toList_ofList] at hchars
        exact hne hchars
      · rw [String.toList_ofList, List.all_eq_true]
        exact hall
  cases hslug : (Text.kebab name.toList).isEmpty with
  | true =>
      obtain ⟨hne, hall⟩ := h (List.isEmpty_iff.1 hslug)
      simp only [suggest, hslug, if_true]
      exact hbase _ (fun hnil => hne (String.toList_inj.1 hnil)) (List.all_eq_true.1 hall)
  | false =>
      simp only [suggest, hslug, Bool.false_eq_true, if_false]
      refine hbase _ (List.isEmpty_eq_false_iff.1 hslug) fun c hc => ?_
      rcases Text.mem_kebab hc with hc | rfl
      · exact isNameChar_of_isAlphanum hc
      · decide

theorem isName_append {start base : String} (hstart : ∀ c ∈ start.toList, isNameChar c = true)
    (hbase : IsName base) : IsName (start ++ base) := by
  refine ⟨fun hempty => hbase.1 ?_, ?_⟩
  · have hchars := congrArg String.toList hempty
    rw [String.toList_append, String.toList_empty, List.append_eq_nil_iff] at hchars
    exact String.toList_inj.1 hchars.2
  · rw [String.toList_append, List.all_append, List.all_eq_true.2 hstart, hbase.2]
    rfl

theorem all_isNameChar_toString (n : Nat) : (toString n).toList.all isNameChar = true := by
  rw [Nat.toString_eq_ofList_toDigits, String.toList_ofList, List.all_eq_true]
  intro c hc
  refine isNameChar_of_isAlphanum ?_
  rw [Char.isAlphanum, Nat.isDigit_of_mem_toDigits (by decide) (by decide) hc, Bool.or_true]

theorem isName_candidate {base : String} (h : IsName base) (k : Nat) :
    IsName (candidate base k) := by
  cases k with
  | zero => exact h
  | succ k =>
      refine ⟨fun hempty => ?_, ?_⟩
      · have hchars := congrArg String.toList hempty
        rw [toList_candidate_succ] at hchars
        simp at hchars
      · rw [toList_candidate_succ, List.all_append, List.all_cons, h.2, all_isNameChar_toString]
        rfl

/-- A namer whose names begin with letters, digits and hyphens gives usable names. -/
theorem isName_mint {namer : Namer} (hstart : ∀ c ∈ namer.start.toList, isNameChar c = true)
    {name fallback : String} (h : IsName (suggest name fallback)) :
    IsName (namer.mint name fallback).1 := by
  obtain ⟨k, hk, _⟩ := firstFree_eq namer.used (namer.start ++ suggest name fallback)
  rw [Namer.mint, hk]
  exact isName_candidate (isName_append hstart h) k

end SceneMarkup.ClassName
