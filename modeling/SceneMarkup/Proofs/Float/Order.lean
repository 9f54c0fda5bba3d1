/-
  SceneMarkup/Proofs/Float/Order.lean --- the order of the floats that are numbers.

  WHAT THIS FILE IS FOR.  Comparing floats is no order, because one of them is not a
  number.  All others have a rank by which they compare (`le_iff_rank`), so that the
  laws of an order hold for them, and moving numbers into the unit interval keeps them
  in order (`clampUnit_le_clampUnit`).
-/
import Mathlib.Data.Prod.Lex
import SceneMarkup.Scene.Paint

set_option autoImplicit false

namespace SceneMarkup

open Float.Model (UnpackedFloat)

/-- A float that is a number; infinities are. -/
def IsNumber (x : Float) : Prop := x.isNaN = false

/-! ## Ranks -/

/-- The place of an unpacked float among the others: its sign, then its exponent, then its
mantissa. -/
def unpackedRank : UnpackedFloat → ℤ ×ₗ ℤ ×ₗ ℤ
  | .infinity .negative => toLex (-2, toLex (0, 0))
  | .finite .negative mantissa exponent _ => toLex (-1, toLex (-exponent, -mantissa))
  | .zero _ => toLex (0, toLex (0, 0))
  | .finite .positive mantissa exponent _ => toLex (1, toLex (exponent, mantissa))
  | .infinity .positive => toLex (2, toLex (0, 0))
  | .notANumber => toLex (3, toLex (0, 0))

/-- The place of a float among the others. -/
def rank (x : Float) : ℤ ×ₗ ℤ ×ₗ ℤ := unpackedRank x.toModel.unpack

theorem compare_toLex {α β : Type} [LinearOrder α] [LinearOrder β] (a a' : α) (b b' : β) :
    compare (toLex (a, b)) (toLex (a', b')) = (compare a a').then (compare b b') := by
  rw [Prod.Lex.compare_def]
  rfl

theorem compare_neg (a b : ℤ) : compare (-a) (-b) = (compare a b).swap := by
  rw [Int.compare_swap]
  simp only [compare, compareOfLessAndEq]
  grind

theorem compare_natCast (m n : ℕ) : compare (m : ℤ) (n : ℤ) = compare m n := by
  simp only [compare, compareOfLessAndEq, Int.ofNat_lt, Int.ofNat_inj]

/-- Two unpacked numbers compare as their ranks do. -/
theorem compare_eq_compare_unpackedRank {a b : UnpackedFloat} (ha : a.isNaN = false)
    (hb : b.isNaN = false) : a.compare b = some (compare (unpackedRank a) (unpackedRank b)) := by
  cases a with
  | notANumber => cases ha
  | infinity s =>
      cases b with
      | notANumber => cases hb
      | infinity t => cases s <;> cases t <;> rfl
      | zero t => cases s <;> rfl
      | finite t n f hn => cases s <;> cases t <;> rfl
  | zero s =>
      cases b with
      | notANumber => cases hb
      | infinity t => cases t <;> rfl
      | zero t => rfl
      | finite t n f hn => cases t <;> rfl
  | finite s m e hm =>
      cases b with
      | notANumber => cases hb
      | infinity t => cases s <;> cases t <;> rfl
      | zero t => cases s <;> rfl
      | finite t n f hn =>
          -- signs that differ settle the order
          cases s <;> cases t
          case negative.positive => rfl
          case positive.negative => rfl
          case negative.negative =>
            show _ = some (compare (toLex (-1, toLex (-e, -(m : ℤ))))
              (toLex (-1, toLex (-f, -(n : ℤ)))))
            rw [compare_toLex, compare_toLex, compare_neg e f, compare_neg (m : ℤ) n,
              compare_natCast, ← Ordering.swap_then]
            rfl
          case positive.positive =>
            show _ = some (compare (toLex (1, toLex (e, (m : ℤ)))) (toLex (1, toLex (f, (n : ℤ)))))
            rw [compare_toLex, compare_toLex, compare_natCast]
            rfl

variable {x y z : Float}

theorem compare_eq_compare_rank (hx : IsNumber x) (hy : IsNumber y) :
    x.toModel.unpack.compare y.toModel.unpack = some (compare (rank x) (rank y)) :=
  compare_eq_compare_unpackedRank hx hy

theorem le_iff_rank (hx : IsNumber x) (hy : IsNumber y) : x ≤ y ↔ rank x ≤ rank y := by
  have hle : x ≤ y ↔ x.toModel.unpack.le y.toModel.unpack = true := decide_eq_true_iff
  rw [hle, UnpackedFloat.le, compare_eq_compare_rank hx hy, Option.any_some,
    Ordering.isLE_iff_ne_gt, ← compare_le_iff_le]

theorem lt_iff_rank (hx : IsNumber x) (hy : IsNumber y) : x < y ↔ rank x < rank y := by
  have hlt : x < y ↔ x.toModel.unpack.lt y.toModel.unpack = true := decide_eq_true_iff
  rw [hlt, UnpackedFloat.lt, compare_eq_compare_rank hx hy, beq_iff_eq, Option.some_inj,
    compare_lt_iff_lt]

/-! ## The laws of an order -/

theorem not_le_iff (hx : IsNumber x) (hy : IsNumber y) : ¬ x ≤ y ↔ y < x := by
  rw [le_iff_rank hx hy, lt_iff_rank hy hx, not_le]

theorem not_lt_iff (hx : IsNumber x) (hy : IsNumber y) : ¬ x < y ↔ y ≤ x := by
  rw [← not_le_iff hy hx, not_not]

theorem le_refl_of_isNumber (hx : IsNumber x) : x ≤ x :=
  (le_iff_rank hx hx).2 (le_refl _)

theorem le_trans_of_isNumber (hx : IsNumber x) (hy : IsNumber y) (hz : IsNumber z) (hxy : x ≤ y)
    (hyz : y ≤ z) : x ≤ z := by
  rw [le_iff_rank hx hy] at hxy
  rw [le_iff_rank hy hz] at hyz
  exact (le_iff_rank hx hz).2 (hxy.trans hyz)

/-! ## The unit interval -/

theorem isNumber_zero : IsNumber 0 := by
  unfold IsNumber
  decide

theorem isNumber_one : IsNumber 1 := by
  unfold IsNumber
  decide

theorem zero_le_one_float : (0 : Float) ≤ 1 := by decide

/-- A number between zero and one. -/
def InUnit (x : Float) : Prop := 0 ≤ x ∧ x ≤ 1

theorem inUnit_clampUnit (hx : IsNumber x) : InUnit (clampUnit x) := by
  unfold clampUnit
  split
  · exact ⟨le_refl_of_isNumber isNumber_zero, zero_le_one_float⟩
  · rename_i hzero
    split
    · exact ⟨zero_le_one_float, le_refl_of_isNumber isNumber_one⟩
    · rename_i hone
      exact ⟨(not_lt_iff hx isNumber_zero).1 hzero, (not_lt_iff isNumber_one hx).1 hone⟩

/-- Moving numbers into the unit interval keeps their order. -/
theorem clampUnit_le_clampUnit (hx : IsNumber x) (hy : IsNumber y) (h : x ≤ y) :
    clampUnit x ≤ clampUnit y := by
  obtain ⟨hzero, hone⟩ := inUnit_clampUnit hy
  by_cases hlow : x < 0
  · rw [clampUnit, if_pos hlow]
    exact hzero
  · have hlow' : ¬ y < 0 := by
      rw [not_lt_iff hx isNumber_zero] at hlow
      rw [not_lt_iff hy isNumber_zero]
      exact le_trans_of_isNumber isNumber_zero hx hy hlow h
    by_cases hhigh : 1 < y
    · -- the larger number is moved to one, which is above all others
      have hmoved : clampUnit y = 1 := by rw [clampUnit, if_neg hlow', if_pos hhigh]
      rw [hmoved]
      exact (inUnit_clampUnit hx).2
    · have hhigh' : ¬ 1 < x := by
        rw [not_lt_iff isNumber_one hy] at hhigh
        rw [not_lt_iff isNumber_one hx]
        exact le_trans_of_isNumber hx hy isNumber_one h hhigh
      rw [clampUnit, clampUnit, if_neg hlow, if_neg hhigh', if_neg hlow', if_neg hhigh]
      exact h

/-! ## Lists of numbers -/

/-- Whether some float of the list is followed by a smaller one. -/
def decreases : List Float → Bool
  | a :: b :: rest => decide (b < a) || decreases (b :: rest)
  | _ => false

/-- Numbers are out of order just if they decrease somewhere. -/
theorem nonDecreasing_eq_not_decreases {xs : List Float} (h : ∀ x ∈ xs, IsNumber x) :
    nonDecreasing xs = !decreases xs := by
  fun_induction nonDecreasing xs with
  | case1 a b rest ih =>
      rw [List.forall_mem_cons] at h
      have hab : decide (a ≤ b) = !decide (b < a) := by
        rw [← decide_not, decide_eq_decide, not_lt_iff (h.2 b List.mem_cons_self) h.1]
      rw [decreases, hab, ih h.2, Bool.not_or]
  | case2 xs hshort =>
      rw [decreases]
      · rfl
      · exact hshort

/-- Numbers that never decrease from one to the next are in order at any distance. -/
theorem pairwise_le_of_nonDecreasing {xs : List Float} (h : ∀ x ∈ xs, IsNumber x)
    (hxs : nonDecreasing xs = true) : xs.Pairwise (· ≤ ·) := by
  fun_induction nonDecreasing xs with
  | case1 a b rest ih =>
      rw [List.forall_mem_cons] at h
      rw [Bool.and_eq_true, decide_eq_true_eq] at hxs
      obtain ⟨hab, hrest⟩ := hxs
      have hordered := ih h.2 hrest
      have hb : IsNumber b := h.2 b List.mem_cons_self
      refine List.pairwise_cons.2 ⟨fun c hc => ?_, hordered⟩
      rcases List.mem_cons.1 hc with rfl | hc
      · exact hab
      · exact le_trans_of_isNumber h.1 hb (h.2 c (List.mem_cons_of_mem b hc)) hab
          (List.rel_of_pairwise_cons hordered hc)
  | case2 xs hshort =>
      match xs, hshort with
      | [], _ => exact .nil
      | [a], _ => exact List.pairwise_singleton _ a
      | a :: b :: rest, hshort => exact absurd rfl (hshort a b rest)

/-- Floats in order at any distance never decrease. -/
theorem nonDecreasing_of_pairwise_le {xs : List Float} (h : xs.Pairwise (· ≤ ·)) :
    nonDecreasing xs = true := by
  fun_induction nonDecreasing xs with
  | case1 a b rest ih =>
      rw [List.pairwise_cons] at h
      rw [ih h.2, Bool.and_true, decide_eq_true_eq]
      exact h.1 b List.mem_cons_self
  | case2 => rfl

/-- Moving numbers into the unit interval keeps a list of them in order. -/
theorem pairwise_le_map_clampUnit {xs : List Float} (h : ∀ x ∈ xs, IsNumber x)
    (hxs : xs.Pairwise (· ≤ ·)) : (xs.map clampUnit).Pairwise (· ≤ ·) :=
  List.pairwise_map.2 (hxs.imp_of_mem fun ha hb hab => clampUnit_le_clampUnit (h _ ha) (h _ hb) hab)

end SceneMarkup
