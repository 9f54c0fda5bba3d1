/-
  SceneMarkup/Proofs/Scene/Compositing.lean --- laying colors over each other, in exact
  arithmetic.

  WHAT THIS FILE IS FOR.  Compositing is written over any type of channel.  Over the
  rationals it is associative, because it is an addition in disguise: with the channels
  multiplied by the alpha, laying `p` onto `q` is `p + q * (1 - alpha of p)`
  (`weighted_onto`), and a color that was composited can be told from its weighted form
  (`Composited.eq_of_weighted`).  A list of colors may then be cut anywhere.  Over numbers
  whose divisions are checked the same algorithm shows that nothing is divided by zero.
-/
import Mathlib.Algebra.Order.Field.Rat
import Mathlib.Order.Interval.Set.Defs
import Mathlib.Tactic.FieldSimp
import Mathlib.Tactic.Linarith
import Mathlib.Tactic.NormNum
import Mathlib.Tactic.Positivity
import Mathlib.Tactic.Ring
import SceneMarkup.Scene.Paint

set_option autoImplicit false

namespace SceneMarkup

/-! ## The unit interval -/

theorem clampUnit_mem (x : ℚ) : clampUnit x ∈ Set.Icc 0 1 := by
  unfold clampUnit
  split
  · exact ⟨le_refl 0, zero_le_one⟩
  · rename_i hnonneg
    split
    · exact ⟨zero_le_one, le_refl 1⟩
    · rename_i hle
      exact ⟨not_lt.1 hnonneg, not_lt.1 hle⟩

theorem clampUnit_of_mem {x : ℚ} (hnonneg : 0 ≤ x) (hle : x ≤ 1) : clampUnit x = x := by
  rw [clampUnit, if_neg (not_lt.2 hnonneg), if_neg (not_lt.2 hle)]

theorem clampUnit_pos {x : ℚ} (h : 0 < x) : 0 < clampUnit x := by
  unfold clampUnit
  rw [if_neg (not_lt.2 h.le)]
  split
  · exact zero_lt_one
  · exact h

/-! ## Checked divisions -/

/-- What is computed if divisions are checked: a number, unless something was divided by zero. -/
inductive Checked where
  | number (x : ℚ)
  | undefined
  deriving DecidableEq, Repr

namespace Checked

/-- An operation on numbers. What is computed from something undefined is undefined. -/
def combine (f : ℚ → ℚ → Checked) : Checked → Checked → Checked
  | number x, number y => f x y
  | _, _ => undefined

/-- A comparison of numbers. Something undefined compares with nothing. -/
def compares (p : ℚ → ℚ → Bool) : Checked → Checked → Bool
  | number x, number y => p x y
  | _, _ => false

instance : Add Checked := ⟨combine fun x y => number (x + y)⟩
instance : Sub Checked := ⟨combine fun x y => number (x - y)⟩
instance : Mul Checked := ⟨combine fun x y => number (x * y)⟩
instance : Div Checked := ⟨combine fun x y => if y = 0 then undefined else number (x / y)⟩
instance : LT Checked := ⟨fun a b => compares (fun x y => x < y) a b = true⟩
instance : LE Checked := ⟨fun a b => compares (fun x y => x ≤ y) a b = true⟩
instance : DecidableLT Checked := fun _ _ => inferInstanceAs (Decidable (_ = true))
instance : DecidableLE Checked := fun _ _ => inferInstanceAs (Decidable (_ = true))
instance : OfNat Checked 0 := ⟨number 0⟩
instance : OfNat Checked 1 := ⟨number 1⟩

theorem number_div {x y : ℚ} (h : y ≠ 0) : number x / number y = number (x / y) := if_neg h

theorem number_lt {x y : ℚ} : number x < number y ↔ x < y := decide_eq_true_iff

theorem number_le {x y : ℚ} : number x ≤ number y ↔ x ≤ y := decide_eq_true_iff

theorem clampUnit_number (x : ℚ) : clampUnit (number x) = number (clampUnit x) := by
  have hneg : number x < 0 ↔ x < 0 := number_lt
  have hlarge : 1 < number x ↔ 1 < x := number_lt
  rw [clampUnit, clampUnit]
  simp only [hneg, hlarge]
  split
  · rfl
  · split <;> rfl

end Checked

namespace Rgba

/-! ## Weighted colors -/

/-- How much of what lies below a color is covered by it. -/
def cover (c : Rgba ℚ) : ℚ := clampUnit c.a

/-- How much two colors that are laid over each other cover together. -/
def coverOnto (top below : Rgba ℚ) : ℚ := top.cover + below.cover * (1 - top.cover)

/-- A color whose channels are multiplied by how much it covers. -/
def weighted (c : Rgba ℚ) : Rgba ℚ := ⟨c.r * c.cover, c.g * c.cover, c.b * c.cover, c.cover⟩

/-- Weighted colors laid over each other. -/
def addBelow (p q : Rgba ℚ) : Rgba ℚ :=
  ⟨p.r + q.r * (1 - p.a), p.g + q.g * (1 - p.a), p.b + q.b * (1 - p.a), p.a + q.a * (1 - p.a)⟩

/-- A channel of a color that is laid onto another one. -/
def channelOnto (top below : Rgba ℚ) (t b : ℚ) : ℚ :=
  (t * top.cover + b * below.cover * (1 - top.cover)) / top.coverOnto below

/-- Colors as compositing leaves them: nothing at all, or with an alpha that is used as it is. -/
def Composited (c : Rgba ℚ) : Prop := c = transparent ∨ 0 < c.a ∧ c.a ≤ 1

variable {top below c d : Rgba ℚ}

theorem cover_nonneg (c : Rgba ℚ) : 0 ≤ c.cover := (clampUnit_mem c.a).1

theorem cover_transparent : (transparent : Rgba ℚ).cover = 0 := clampUnit_of_mem le_rfl zero_le_one

theorem cover_le_one (c : Rgba ℚ) : c.cover ≤ 1 := (clampUnit_mem c.a).2

theorem addBelow_assoc (p q s : Rgba ℚ) :
    p.addBelow (q.addBelow s) = (p.addBelow q).addBelow s := by
  simp only [addBelow, mk.injEq]
  refine ⟨?_, ?_, ?_, ?_⟩ <;> ring

/-! ## Laying one color onto another -/

theorem rest_nonneg (top below : Rgba ℚ) : 0 ≤ below.cover * (1 - top.cover) :=
  mul_nonneg below.cover_nonneg (sub_nonneg.2 top.cover_le_one)

theorem coverOnto_le_one (top below : Rgba ℚ) : top.coverOnto below ≤ 1 := by
  have hrest : below.cover * (1 - top.cover) ≤ 1 * (1 - top.cover) :=
    mul_le_mul_of_nonneg_right below.cover_le_one (sub_nonneg.2 top.cover_le_one)
  rw [coverOnto]
  linarith

/-- Colors that cover nothing together cover nothing each. -/
theorem cover_eq_zero (h : top.coverOnto below ≤ 0) : top.cover = 0 ∧ below.cover = 0 := by
  have htop := top.cover_nonneg
  have hrest := rest_nonneg top below
  rw [coverOnto] at h
  have hzero : top.cover = 0 := by linarith
  rw [hzero] at h hrest
  exact ⟨hzero, by linarith⟩

theorem onto_of_nonpos (h : top.coverOnto below ≤ 0) : top.onto below = transparent := if_pos h

theorem onto_of_pos (h : 0 < top.coverOnto below) :
    top.onto below = ⟨channelOnto top below top.r below.r, channelOnto top below top.g below.g,
      channelOnto top below top.b below.b, top.coverOnto below⟩ := if_neg (not_le.2 h)

theorem composited_onto (top below : Rgba ℚ) : (top.onto below).Composited := by
  rcases le_or_gt (top.coverOnto below) 0 with h | h
  · exact .inl (onto_of_nonpos h)
  · rw [onto_of_pos h]
    exact .inr ⟨h, coverOnto_le_one top below⟩

theorem Composited.cover_eq (h : c.Composited) : c.cover = c.a := by
  rcases h with rfl | ⟨hpos, hle⟩
  · rfl
  · exact clampUnit_of_mem hpos.le hle

/-- Multiplied by what they cover, colors are laid over each other without a division. -/
theorem weighted_onto (top below : Rgba ℚ) :
    (top.onto below).weighted = top.weighted.addBelow below.weighted := by
  rcases le_or_gt (top.coverOnto below) 0 with h | h
  · obtain ⟨htop, hbelow⟩ := cover_eq_zero h
    rw [onto_of_nonpos h]
    simp [weighted, addBelow, htop, hbelow, cover_transparent]
  · have hne : top.coverOnto below ≠ 0 := h.ne'
    have hchannel : ∀ t b, channelOnto top below t b * top.coverOnto below =
        t * top.cover + b * below.cover * (1 - top.cover) :=
      fun t b => div_mul_cancel₀ _ hne
    rw [weighted, (composited_onto top below).cover_eq, onto_of_pos h]
    dsimp only
    rw [hchannel, hchannel, hchannel]
    rfl

/-- Composited colors are told apart by their weighted forms. -/
theorem Composited.eq_of_weighted (hc : c.Composited) (hd : d.Composited)
    (h : c.weighted = d.weighted) : c = d := by
  simp only [weighted, mk.injEq] at h
  obtain ⟨hr, hg, hb, hcover⟩ := h
  have ha : c.a = d.a := by rw [← hc.cover_eq, ← hd.cover_eq, hcover]
  rcases hc with rfl | ⟨hpos, hle⟩
  · rcases hd with rfl | ⟨hpos, -⟩
    · rfl
    · exact absurd ha hpos.ne
  · have hne : d.cover ≠ 0 := hcover ▸ (clampUnit_pos hpos).ne'
    rw [hcover] at hr hg hb
    obtain ⟨r, g, b, a⟩ := c
    obtain ⟨r', g', b', a'⟩ := d
    rw [mk.injEq]
    exact ⟨mul_right_cancel₀ hne hr, mul_right_cancel₀ hne hg, mul_right_cancel₀ hne hb, ha⟩

theorem onto_assoc (a b c : Rgba ℚ) : a.onto (b.onto c) = (a.onto b).onto c := by
  refine (composited_onto _ _).eq_of_weighted (composited_onto _ _) ?_
  rw [weighted_onto, weighted_onto, weighted_onto, weighted_onto, addBelow_assoc]

/-- Nothing laid onto a color leaves the color as it is, up to the alpha that is used. -/
theorem transparent_onto (h : 0 < c.a) : transparent.onto c = { c with a := c.cover } := by
  have hpos : 0 < c.cover := clampUnit_pos h
  have hcover : coverOnto transparent c = c.cover := by
    rw [coverOnto, cover_transparent]
    ring
  have hchannel : ∀ t x, channelOnto transparent c t x = x := by
    intro t x
    rw [channelOnto, hcover, cover_transparent]
    field_simp
    ring
  rw [onto_of_pos (hpos.trans_eq hcover.symm), hchannel, hchannel, hchannel, hcover]

theorem Composited.transparent_onto (h : c.Composited) : transparent.onto c = c := by
  rcases h with rfl | ⟨hpos, hle⟩
  · exact onto_of_nonpos (by rw [coverOnto, cover_transparent]; norm_num)
  · rw [Rgba.transparent_onto hpos, cover, clampUnit_of_mem hpos.le hle]

/-- A color that covers everything hides what lies below it. -/
theorem onto_of_opaque (h : top.a = 1) (below : Rgba ℚ) : top.onto below = top := by
  have htop : top.cover = 1 := by rw [cover, h, clampUnit_of_mem zero_le_one le_rfl]
  have hcover : top.coverOnto below = 1 := by
    rw [coverOnto, htop]
    ring
  have hchannel : ∀ t b, channelOnto top below t b = t := by
    intro t b
    rw [channelOnto, hcover, htop]
    ring
  rw [onto_of_pos (hcover ▸ zero_lt_one), hchannel, hchannel, hchannel, hcover, ← h]

/-! ## Colors with checked channels -/

/-- A color for computing with checked divisions. -/
def checked (c : Rgba ℚ) : Rgba Checked := ⟨.number c.r, .number c.g, .number c.b, .number c.a⟩

/-- With checked divisions the same color comes out: nothing is divided by zero. -/
theorem onto_checked (top below : Rgba ℚ) :
    top.checked.onto below.checked = (top.onto below).checked := by
  have hcover : clampUnit top.checked.a +
      clampUnit below.checked.a * (1 - clampUnit top.checked.a) =
        .number (top.coverOnto below) := by
    rw [checked, checked, Checked.clampUnit_number, Checked.clampUnit_number]
    rfl
  rcases le_or_gt (top.coverOnto below) 0 with h | h
  · rw [onto_of_nonpos h]
    refine if_pos ?_
    rw [hcover]
    exact Checked.number_le.2 h
  · have hpos : ¬ Checked.number (top.coverOnto below) ≤ 0 := fun hle =>
      h.not_ge (Checked.number_le.1 hle)
    have hchannel : ∀ t b : ℚ,
        (.number t * clampUnit top.checked.a +
          .number b * clampUnit below.checked.a * (1 - clampUnit top.checked.a)) /
            .number (top.coverOnto below) = Checked.number (channelOnto top below t b) := by
      intro t b
      rw [checked, checked, Checked.clampUnit_number, Checked.clampUnit_number]
      exact Checked.number_div h.ne'
    rw [onto_of_pos h, onto]
    dsimp only
    rw [hcover, if_neg hpos]
    exact congr (congr (congr (congrArg mk (hchannel _ _)) (hchannel _ _)) (hchannel _ _)) rfl

/-! ## Colors of a document -/

/-- A color whose channels and alpha lie in the unit interval. -/
structure InUnit (c : Rgba ℚ) : Prop where
  r : c.r ∈ Set.Icc 0 1
  g : c.g ∈ Set.Icc 0 1
  b : c.b ∈ Set.Icc 0 1
  a : c.a ∈ Set.Icc 0 1

/-- The channel of a composited color lies between those that it is made of. -/
theorem channelOnto_mem (h : 0 < top.coverOnto below) {t b : ℚ} (ht : t ∈ Set.Icc 0 1)
    (hb : b ∈ Set.Icc 0 1) : channelOnto top below t b ∈ Set.Icc 0 1 := by
  have htop := top.cover_nonneg
  have hrest := rest_nonneg top below
  have htle : t * top.cover ≤ top.cover := mul_le_of_le_one_left htop ht.2
  have hble : b * (below.cover * (1 - top.cover)) ≤ below.cover * (1 - top.cover) :=
    mul_le_of_le_one_left hrest hb.2
  rw [channelOnto, mul_assoc b]
  constructor
  · exact div_nonneg (add_nonneg (mul_nonneg ht.1 htop) (mul_nonneg hb.1 hrest)) h.le
  · rw [div_le_one h, coverOnto]
    exact add_le_add htle hble

theorem InUnit.onto (htop : top.InUnit) (hbelow : below.InUnit) : (top.onto below).InUnit := by
  rcases le_or_gt (top.coverOnto below) 0 with h | h
  · rw [onto_of_nonpos h]
    exact ⟨⟨le_rfl, zero_le_one⟩, ⟨le_rfl, zero_le_one⟩, ⟨le_rfl, zero_le_one⟩,
      ⟨le_rfl, zero_le_one⟩⟩
  · rw [onto_of_pos h]
    exact ⟨channelOnto_mem h htop.r hbelow.r, channelOnto_mem h htop.g hbelow.g,
      channelOnto_mem h htop.b hbelow.b, h.le, coverOnto_le_one top below⟩

/-! ## Lists of colors -/

theorem composite_concat {α : Type} [Add α] [Sub α] [Mul α] [Div α] [LT α] [LE α] [DecidableLT α]
    [DecidableLE α] [OfNat α 0] [OfNat α 1] (colors : List (Rgba α)) (c : Rgba α) :
    composite (colors ++ [c]) = c.onto (composite colors) := List.foldl_concat _ _ _ _

/-- Nothing is divided by zero in compositing any colors. -/
theorem composite_checked (colors : List (Rgba ℚ)) :
    composite (colors.map checked) = (composite colors).checked := by
  induction colors using List.reverseRecOn with
  | nil => rfl
  | append_singleton colors c ih =>
      rw [List.map_append, List.map_singleton, composite_concat, ih, onto_checked,
        composite_concat]

theorem composited_composite (colors : List (Rgba ℚ)) : (composite colors).Composited := by
  induction colors using List.reverseRecOn with
  | nil => exact .inl rfl
  | append_singleton colors c _ =>
      rw [composite_concat]
      exact composited_onto _ _

/-- Colors above others are laid onto these as the one color that they make together. -/
theorem composite_append (lower upper : List (Rgba ℚ)) :
    composite (lower ++ upper) = (composite upper).onto (composite lower) := by
  induction upper using List.reverseRecOn with
  | nil =>
      rw [List.append_nil]
      exact (composited_composite lower).transparent_onto.symm
  | append_singleton upper c ih =>
      rw [← List.append_assoc, composite_concat, composite_concat, ih, onto_assoc]

/-- What lies below a color that covers everything does not count. -/
theorem composite_append_opaque (lower : List (Rgba ℚ)) (h : c.a = 1)
    (upper : List (Rgba ℚ)) : composite (lower ++ c :: upper) = composite (c :: upper) := by
  rw [composite, composite, List.foldl_append, List.foldl_cons, List.foldl_cons,
    onto_of_opaque h, onto_of_opaque h]

end Rgba

/-! ## Paints -/

/-- A paint as compositing sees it: its color, if it is of one color, and its opacity. -/
structure Swatch (α : Type) where
  color : Option (Rgba α)
  opacity : α

namespace Swatch

section

variable {α : Type} [Add α] [Sub α] [Mul α] [Div α] [LT α] [LE α] [DecidableLT α] [DecidableLE α]
  [OfNat α 0] [OfNat α 1]

/-- The color of a swatch, its opacity included. -/
def effective? (s : Swatch α) : Option (Rgba α) := s.color.map (·.withOpacity s.opacity)

/-- The swatches of one color laid over each other. -/
def compositeAll (swatches : List (Swatch α)) : Rgba α :=
  .composite (swatches.filterMap effective?)

end

/-- A swatch for computing with checked divisions. -/
def checked (s : Swatch ℚ) : Swatch Checked := ⟨s.color.map Rgba.checked, .number s.opacity⟩

theorem effective?_checked (s : Swatch ℚ) :
    s.checked.effective? = s.effective?.map Rgba.checked := by
  obtain ⟨color, opacity⟩ := s
  cases color with
  | none => rfl
  | some c =>
      have halpha : clampUnit (c.checked.a * .number opacity) =
          Checked.number (clampUnit (c.a * opacity)) := Checked.clampUnit_number _
      rw [effective?, effective?, checked, Option.map_some, Option.map_some, Option.map_some,
        Option.map_some, Rgba.withOpacity, halpha]
      rfl

/-- Nothing is divided by zero in compositing any swatches. -/
theorem compositeAll_checked (swatches : List (Swatch ℚ)) :
    compositeAll (swatches.map checked) = (compositeAll swatches).checked := by
  have heffective : (swatches.map checked).filterMap effective? =
      (swatches.filterMap effective?).map Rgba.checked := by
    rw [List.filterMap_map, List.map_filterMap]
    exact List.filterMap_congr fun s _ => s.effective?_checked
  rw [compositeAll, heffective, Rgba.composite_checked, compositeAll]

theorem compositeAll_append (lower upper : List (Swatch ℚ)) :
    compositeAll (lower ++ upper) = (compositeAll upper).onto (compositeAll lower) := by
  rw [compositeAll, List.filterMap_append, Rgba.composite_append]
  rfl

theorem compositeAll_append_opaque (lower : List (Swatch ℚ)) {s : Swatch ℚ} {c : Rgba ℚ}
    (hs : s.effective? = some c) (ha : c.a = 1) (upper : List (Swatch ℚ)) :
    compositeAll (lower ++ s :: upper) = compositeAll (s :: upper) := by
  rw [compositeAll, compositeAll, List.filterMap_append, List.filterMap_cons_some hs,
    Rgba.composite_append_opaque _ ha]

end Swatch

/-- What compositing sees of a paint. -/
def Paint.swatch (p : Paint) : Swatch Float where
  color := match p.ink with
    | .solid color => some color
    | _ => none
  opacity := p.opacity

theorem Paint.effective?_swatch (p : Paint) : p.swatch.effective? = p.solidColor? := by
  rw [Swatch.effective?, swatch, solidColor?]
  cases p.ink <;> rfl

/-- Solid paints are composited as their swatches are. -/
theorem Paint.compositeSolids_eq (paints : List Paint) :
    compositeSolids paints = Swatch.compositeAll (paints.map swatch) := by
  rw [compositeSolids, Swatch.compositeAll, List.filterMap_map]
  exact congrArg Rgba.composite (List.filterMap_congr fun p _ => p.effective?_swatch.symm)

/-! ## The laws of compositing -/

/-- Solid paints are composited by an algorithm over any type of channel. On rationals it is
associative; nothing laid onto a color that is there leaves its channels as they are; colors of the
unit interval stay in it; and nothing is divided by zero, so that with checked divisions the same
colors come out. Hence a list of paints may be cut anywhere, the upper part being laid onto the
lower one, and what lies below a paint that covers everything does not count. -/
theorem compositing_laws :
    (∀ paints : List Paint,
      Paint.compositeSolids paints = Swatch.compositeAll (paints.map Paint.swatch)) ∧
    (∀ a b c : Rgba ℚ, a.onto (b.onto c) = (a.onto b).onto c) ∧
    (∀ c : Rgba ℚ, 0 < c.a → Rgba.transparent.onto c = { c with a := clampUnit c.a }) ∧
    (∀ a b : Rgba ℚ, a.InUnit → b.InUnit → (a.onto b).InUnit) ∧
    (∀ a b : Rgba ℚ, a.checked.onto b.checked = (a.onto b).checked) ∧
    (∀ swatches : List (Swatch ℚ),
      Swatch.compositeAll (swatches.map Swatch.checked) =
        (Swatch.compositeAll swatches).checked) ∧
    (∀ lower upper : List (Swatch ℚ), Swatch.compositeAll (lower ++ upper) =
      (Swatch.compositeAll upper).onto (Swatch.compositeAll lower)) ∧
    ∀ (lower upper : List (Swatch ℚ)) (s : Swatch ℚ) (c : Rgba ℚ),
      s.effective? = some c → c.a = 1 →
        Swatch.compositeAll (lower ++ s :: upper) = Swatch.compositeAll (s :: upper) := by
  refine ⟨Paint.compositeSolids_eq, Rgba.onto_assoc, fun c => Rgba.transparent_onto,
    fun a b => Rgba.InUnit.onto, Rgba.onto_checked, Swatch.compositeAll_checked,
    Swatch.compositeAll_append, ?_⟩
  intro lower upper s c hs ha
  exact Swatch.compositeAll_append_opaque lower hs ha upper

/-- Half transparent blue on red, above green that the red hides although its own alpha is too
large; and two colors that cover nothing. -/
theorem compositing_laws_blue_over_red :
    let green : Swatch ℚ := ⟨some ⟨0, 1, 0, 1⟩, 1⟩
    let image : Swatch ℚ := ⟨none, 1⟩
    let red : Swatch ℚ := ⟨some ⟨1, 0, 0, 3⟩, 1 / 2⟩
    let blue : Swatch ℚ := ⟨some ⟨0, 0, 1, 1⟩, 1 / 2⟩
    red.effective? = some ⟨1, 0, 0, 1⟩ ∧
      Swatch.compositeAll [green, image, red, blue] = Swatch.compositeAll [red, blue] ∧
      Swatch.compositeAll [red, blue] = ⟨1 / 2, 0, 1 / 2, 1⟩ ∧
      Rgba.transparent.onto (⟨1, 0, 0, 3⟩ : Rgba ℚ) = ⟨1, 0, 0, 1⟩ ∧
      (Rgba.checked ⟨1, 0, 0, 0⟩).onto (Rgba.checked ⟨0, 0, 1, -1⟩) = .transparent := by
  intro green image red blue
  obtain ⟨-, -, htransparent, -, hchecked, -, -, hopaque⟩ := compositing_laws
  have hred : red.effective? = some ⟨1, 0, 0, 1⟩ := by decide +kernel
  refine ⟨hred, hopaque [green, image] [blue] red _ hred rfl, by decide +kernel, ?_, ?_⟩
  · rw [htransparent _ (by decide +kernel)]
    decide +kernel
  · rw [hchecked]
    decide +kernel

end SceneMarkup
