/-
  SceneMarkup/Proofs/DesignLink/Key.lean --- where the key of a file stands in a text.

  WHAT THIS FILE IS FOR.  The key of a file is the run of letters and digits behind a
  marker, at the first place that has one; a marker without a key is passed over.  No part
  of a marker goes on as a marker begins, and so none begins within a host that has none in
  it, whatever stands behind that host.
-/
import Mathlib.Data.List.Basic
import SceneMarkup.DesignLink

set_option autoImplicit false

namespace SceneMarkup.DesignLink

/-! ## Keys -/

/-- What stands in front of the key of a file. -/
inductive Marker where
  | file
  | design

def Marker.text : Marker → List Char
  | .file => "figma.com/file/".toList
  | .design => "figma.com/design/".toList

theorem exists_marker {cs : List Char} (h : cs ∈ markers) :
    ∃ marker : Marker, cs = marker.text := by
  rw [markers, List.mem_cons, List.mem_singleton] at h
  obtain rfl | rfl := h
  · exact ⟨.file, rfl⟩
  · exact ⟨.design, rfl⟩

/-- A text that is cut around a key: in front of the key stands a marker, and the key takes all
letters and digits that there are. -/
structure KeyAt (cs before key after : List Char) : Prop where
  text : ∃ marker : Marker, cs = before ++ (marker.text ++ (key ++ after))
  nonempty : key ≠ []
  alphanum : ∀ c ∈ key, c.isAlphanum = true
  maximal : ∀ c ∈ after.head?, c.isAlphanum = false

/-- The first place of a text at which there is a key. -/
structure FirstKeyAt (cs before key after : List Char) : Prop extends
    KeyAt cs before key after where
  least : ∀ {before' key' after'}, KeyAt cs before' key' after' → before.length ≤ before'.length

/-- At most one marker stands at the beginning of a text. -/
theorem findSome?_markers_eq_some_iff {cs rest : List Char} :
    (markers.findSome? fun marker => marker.isPrefixOf? cs) = some rest ↔
      ∃ marker : Marker, cs = marker.text ++ rest := by
  constructor
  · intro h
    obtain ⟨found, hfound, hprefix⟩ := List.exists_of_findSome?_eq_some h
    obtain ⟨marker, rfl⟩ := exists_marker hfound
    exact ⟨marker, (List.isPrefixOf?_eq_some_iff_append_eq.1 hprefix).symm⟩
  · rintro ⟨marker, rfl⟩
    cases marker with
    | file => rfl
    | design => rfl

theorem takeWhile_eq_of_maximal {p : Char → Bool} {key after : List Char}
    (hkey : ∀ c ∈ key, p c = true) (hafter : ∀ c ∈ after.head?, p c = false) :
    (key ++ after).takeWhile p = key := by
  rw [List.takeWhile_append_of_pos hkey]
  cases after with
  | nil => rw [List.takeWhile_nil, List.append_nil]
  | cons c after =>
      have hc : p c = false := hafter c rfl
      rw [List.takeWhile_cons_of_neg (by simp [hc]), List.append_nil]

theorem keyHere?_eq_some_iff {cs key : List Char} :
    keyHere? cs = some key ↔ ∃ after, KeyAt cs [] key after := by
  rw [keyHere?, Option.bind_eq_bind, Option.bind_eq_some_iff]
  constructor
  · rintro ⟨rest, hmarker, hkey⟩
    dsimp only at hkey
    split at hkey
    · cases hkey
    · rename_i hne
      cases hkey
      obtain ⟨marker, rfl⟩ := findSome?_markers_eq_some_iff.1 hmarker
      refine ⟨rest.dropWhile Char.isAlphanum, ⟨marker, ?_⟩, by simpa using hne,
        fun c hc => ?_, fun c hc => ?_⟩
      · rw [List.takeWhile_append_dropWhile, List.nil_append]
      · exact List.all_eq_true.1 List.all_takeWhile c hc
      · have hnot := List.head?_dropWhile_not Char.isAlphanum rest
        rw [Option.mem_def.1 hc] at hnot
        simpa using hnot
  · rintro ⟨after, ⟨marker, rfl⟩, hne, halphanum, hmaximal⟩
    refine ⟨key ++ after, findSome?_markers_eq_some_iff.2 ⟨marker, rfl⟩, ?_⟩
    dsimp only
    rw [takeWhile_eq_of_maximal halphanum hmaximal, if_neg (by simpa using hne)]

theorem KeyAt.ne_nil {cs before key after : List Char} (h : KeyAt cs before key after) :
    cs ≠ [] := by
  obtain ⟨marker, rfl⟩ := h.text
  simp [h.nonempty]

theorem keyAt_cons_iff {c : Char} {cs before key after : List Char} :
    KeyAt (c :: cs) (c :: before) key after ↔ KeyAt cs before key after := by
  constructor
  · rintro ⟨⟨marker, htext⟩, hne, halphanum, hmaximal⟩
    exact ⟨⟨marker, List.tail_eq_of_cons_eq htext⟩, hne, halphanum, hmaximal⟩
  · rintro ⟨⟨marker, rfl⟩, hne, halphanum, hmaximal⟩
    exact ⟨⟨marker, rfl⟩, hne, halphanum, hmaximal⟩

/-- A key does not stand at the beginning, or else behind the first character. -/
theorem KeyAt.cons_cases {c : Char} {cs before key after : List Char}
    (h : KeyAt (c :: cs) before key after) :
    before = [] ∨ ∃ before', before = c :: before' ∧ KeyAt cs before' key after := by
  cases before with
  | nil => exact .inl rfl
  | cons d before =>
      obtain ⟨marker, htext⟩ := h.text
      obtain rfl : c = d := List.head_eq_of_cons_eq htext
      exact .inr ⟨before, rfl, keyAt_cons_iff.1 h⟩

/-- The key of a text is found at the first place that has one, and only there. -/
theorem keyIn?_eq_some_iff {cs key : List Char} :
    keyIn? cs = some key ↔ ∃ before after, FirstKeyAt cs before key after := by
  induction cs with
  | nil =>
      constructor
      · intro h
        cases h
      · rintro ⟨before, after, h⟩
        exact absurd rfl h.toKeyAt.ne_nil
  | cons c cs ih =>
      -- a key that begins here is the first one; else every key stands behind `c`
      rw [keyIn?]
      cases hhere : keyHere? (c :: cs) with
      | some found =>
          obtain ⟨rest, hfound⟩ := keyHere?_eq_some_iff.1 hhere
          constructor
          · intro h
            cases h
            exact ⟨[], rest, hfound, fun _ => Nat.zero_le _⟩
          · rintro ⟨before, after, h⟩
            obtain rfl : before = [] := List.length_eq_zero_iff.1 (Nat.le_zero.1 (h.least hfound))
            exact hhere.symm.trans (keyHere?_eq_some_iff.2 ⟨after, h.toKeyAt⟩)
      | none =>
          have hlater : ∀ {before key after}, KeyAt (c :: cs) before key after →
              ∃ before', before = c :: before' ∧ KeyAt cs before' key after := by
            intro before key after h
            obtain rfl | hlater := h.cons_cases
            · rw [keyHere?_eq_some_iff.2 ⟨after, h⟩] at hhere
              cases hhere
            · exact hlater
          refine ih.trans ⟨?_, ?_⟩
          · rintro ⟨before, after, h⟩
            refine ⟨c :: before, after, keyAt_cons_iff.2 h.toKeyAt, fun h' => ?_⟩
            obtain ⟨before', rfl, hrest⟩ := hlater h'
            exact Nat.succ_le_succ (h.least hrest)
          · rintro ⟨before, after, h⟩
            obtain ⟨before, rfl, hrest⟩ := hlater h.toKeyAt
            exact ⟨before, after, hrest, fun h' =>
              Nat.le_of_succ_le_succ (h.least (keyAt_cons_iff.2 h'))⟩

/-! ## Markers behind a host -/

/-- What is left of a marker behind a part of it does not begin as a marker does. -/
theorem not_prefix_of_drop (marker other : Marker) :
    ∀ n ∈ List.range' 1 (other.text.length - 1),
      ¬ (other.text.drop n).take 3 <+: marker.text.take 3 := by
  cases marker <;> cases other <;> decide

theorem three_le_length (marker : Marker) : 3 ≤ marker.text.length := by
  cases marker <;> decide

/-- A marker that begins with what is left of a marker begins with all of that one. -/
theorem eq_nil_of_overlap {marker other : Marker} {gap left rest rest' : List Char}
    (hcut : other.text = gap ++ left) (hleft : left ≠ [])
    (h : marker.text ++ rest = left ++ rest') : gap = [] := by
  refine Classical.byContradiction fun hgap => ?_
  have hlength : other.text.length = gap.length + left.length := by rw [hcut, List.length_append]
  have hgap0 : 0 < gap.length := List.length_pos_iff.2 hgap
  have hleft0 : 0 < left.length := List.length_pos_iff.2 hleft
  refine not_prefix_of_drop marker other gap.length
    (List.mem_range'_1.2 ⟨hgap0, by omega⟩) ?_
  have hdrop : other.text.drop gap.length = left := by rw [hcut, List.drop_left]
  have htake : (left ++ rest').take 3 = marker.text.take 3 := by
    rw [← h, List.take_append_of_le_length (three_le_length marker)]
  rw [hdrop, ← htake, List.take_append]
  exact List.prefix_append _ _

/-- In front of the end of a host without markers no marker begins. -/
theorem length_le_of_marker {host rest before rest' : List Char} {marker other : Marker}
    (hhost : ∀ marker : Marker, ¬ marker.text <:+: host)
    (h : host ++ (marker.text ++ rest) = before ++ (other.text ++ rest')) :
    host.length ≤ before.length := by
  obtain ⟨more, rfl, -⟩ | ⟨gap, rfl, hgap⟩ := List.append_eq_append_iff.1 h
  · rw [List.length_append]
    exact Nat.le_add_right _ _
  · -- `gap` is the part of the host behind which the marker stands
    have hnot : ∀ more, gap ≠ other.text ++ more := by
      rintro more rfl
      exact hhost other ⟨before, more, List.append_assoc _ _ _⟩
    obtain ⟨more, hinside, -⟩ | ⟨left, hcut, hleft⟩ := List.append_eq_append_iff.1 hgap
    · exact absurd hinside (hnot more)
    · have hne : left ≠ [] := by
        rintro rfl
        exact hnot [] (by rw [hcut, List.append_nil, List.append_nil])
      have hnone : gap = [] := eq_nil_of_overlap hcut hne hleft
      exact Nat.le_of_eq (by rw [hnone, List.append_nil])

/-- Behind a host without markers the first key is the one that is written there. -/
theorem firstKeyAt_of_host {host key after : List Char}
    (hhost : ∀ marker : Marker, ¬ marker.text <:+: host) (marker : Marker)
    (hne : key ≠ []) (halphanum : ∀ c ∈ key, c.isAlphanum = true)
    (hmaximal : ∀ c ∈ after.head?, c.isAlphanum = false) :
    FirstKeyAt (host ++ (marker.text ++ (key ++ after))) host key after := by
  refine ⟨⟨⟨marker, rfl⟩, hne, halphanum, hmaximal⟩, fun h => ?_⟩
  obtain ⟨other, htext⟩ := h.text
  exact length_le_of_marker hhost htext

end SceneMarkup.DesignLink
