/-
  SceneMarkup/Proofs/Words.lean --- the words of a name hold its letters and digits.

  WHAT THIS FILE IS FOR.  A name is cut in many places, but nothing of its ASCII letters
  and digits is lost and nothing else is kept.  So a name with one letter has a word, and
  its words with hyphens between them can stand in a class name.
-/
import SceneMarkup.Text.Words

set_option autoImplicit false

namespace SceneMarkup.Text

/-! ## Letters and digits -/

theorem isAlpha_eq (c : Char) : c.isAlpha = (c.isUpper || c.isLower) := rfl

/-- The capitals, the small letters and the digits are three ranges of characters. -/
theorem range_of_isAlphanum {c : Char} (h : c.isAlphanum = true) :
    (65 ≤ c.toNat ∧ c.toNat ≤ 90 ∨ 97 ≤ c.toNat ∧ c.toNat ≤ 122) ∨
      48 ≤ c.toNat ∧ c.toNat ≤ 57 := by
  have hbetween (first last : Char) (h : first.val ≤ c.val ∧ c.val ≤ last.val) :
      first.toNat ≤ c.toNat ∧ c.toNat ≤ last.toNat :=
    h.imp UInt32.le_iff_toNat_le.1 UInt32.le_iff_toNat_le.1
  rw [Char.isAlphanum, isAlpha_eq, Bool.or_eq_true, Bool.or_eq_true] at h
  rcases h with (hupper | hlower) | hdigit
  · exact .inl (.inl (hbetween 'A' 'Z' (of_decide_eq_true hupper)))
  · have hlower := Bool.and_eq_true_iff.1 hlower
    exact .inl (.inr (hbetween 'a' 'z' (hlower.imp of_decide_eq_true of_decide_eq_true)))
  · have hdigit := Bool.and_eq_true_iff.1 hdigit
    exact .inr (hbetween '0' '9' (hdigit.imp of_decide_eq_true of_decide_eq_true))

/-- What holds of the ASCII characters one by one holds of all letters and digits. -/
theorem of_isAlphanum {p : Char → Prop} (h : ∀ n < 128, p (Char.ofNat n)) {c : Char}
    (hc : c.isAlphanum = true) : p c := by
  have hascii : c.toNat < 128 := by
    have hrange := range_of_isAlphanum hc
    omega
  have hp := h c.toNat hascii
  rwa [Char.ofNat_toNat] at hp

theorem isAlphanum_toLower {c : Char} (h : c.isAlphanum = true) : c.toLower.isAlphanum = true :=
  of_isAlphanum (p := fun c => c.isAlphanum = true → c.toLower.isAlphanum = true)
    (by decide) h h

theorem isAlphanum_toUpper {c : Char} (h : c.isAlphanum = true) : c.toUpper.isAlphanum = true :=
  of_isAlphanum (p := fun c => c.isAlphanum = true → c.toUpper.isAlphanum = true)
    (by decide) h h

/-- A capital is a digit just if the letter or digit is one. -/
theorem isDigit_toUpper {c : Char} (h : c.isAlphanum = true) : c.toUpper.isDigit = c.isDigit :=
  of_isAlphanum (p := fun c => c.toUpper.isDigit = c.isDigit) (by decide) h

theorem toLower_toLower {c : Char} (h : c.isAlphanum = true) : c.toLower.toLower = c.toLower :=
  of_isAlphanum (p := fun c => c.toLower.toLower = c.toLower) (by decide) h

theorem toLower_toUpper {c : Char} (h : c.isAlphanum = true) : c.toUpper.toLower = c.toLower :=
  of_isAlphanum (p := fun c => c.toUpper.toLower = c.toLower) (by decide) h

/-- A letter is not a digit. -/
theorem isAlpha_eq_not_isDigit {c : Char} (h : c.isAlphanum = true) : c.isAlpha = !c.isDigit :=
  of_isAlphanum (p := fun c => c.isAlphanum = true → c.isAlpha = !c.isDigit) (by decide) h h

/-- A letter is small or a capital. -/
theorem isUpper_eq_not_isLower {c : Char} (h : c.isAlpha = true) : c.isUpper = !c.isLower :=
  of_isAlphanum (p := fun c => c.isAlpha = true → c.isUpper = !c.isLower) (by decide)
    (Bool.or_eq_true_iff.2 (.inl h)) h

theorem isLower_toLower {c : Char} (h : c.isAlpha = true) : c.toLower.isLower = true :=
  of_isAlphanum (p := fun c => c.isAlpha = true → c.toLower.isLower = true) (by decide)
    (Bool.or_eq_true_iff.2 (.inl h)) h

theorem isUpper_toUpper {c : Char} (h : c.isAlpha = true) : c.toUpper.isUpper = true :=
  of_isAlphanum (p := fun c => c.isAlpha = true → c.toUpper.isUpper = true) (by decide)
    (Bool.or_eq_true_iff.2 (.inl h)) h

/-- What is no capital is as it is in small letters. -/
theorem toLower_eq_self {c : Char} (h : c.isLower = true ∨ c.isDigit = true) : c.toLower = c := by
  have halphanum : c.isAlphanum = true := by
    rw [Char.isAlphanum, isAlpha_eq]
    rcases h with h | h <;> simp [h]
  exact of_isAlphanum (p := fun c => c.isLower = true ∨ c.isDigit = true → c.toLower = c)
    (by decide) halphanum h

/-! ## Words -/

/-- The words together are the letters and digits in order. -/
theorem flatten_pieces (cs : List Char) : (pieces cs).flatten = cs.filter isWordChar := by
  induction cs with
  | nil => rfl
  | cons c rest ih =>
      cases hword : isWordChar c with
      | false =>
          rw [pieces, hword, List.filter_cons_of_neg (by simp [hword]), ← ih]
          rfl
      | true =>
          rw [pieces, hword, List.filter_cons_of_pos hword, ← ih, Bool.not_true,
            if_neg Bool.false_ne_true]
          cases pieces rest with
          | nil => rfl
          | cons word words =>
              dsimp only
              split
              · rfl
              · rfl

theorem isAlphanum_of_mem_words {cs word : List Char} (hword : word ∈ words cs) {c : Char}
    (hc : c ∈ word) : c.isAlphanum = true := by
  have hflat : c ∈ (pieces cs).flatten :=
    List.mem_flatten.2 ⟨word, (List.mem_filter.1 hword).1, hc⟩
  rw [flatten_pieces] at hflat
  exact (List.mem_filter.1 hflat).2

theorem words_ne_nil {cs : List Char} {c : Char} (hc : c ∈ cs) (hword : isWordChar c = true) :
    words cs ≠ [] := by
  intro hnone
  have hflat : c ∈ (pieces cs).flatten := by
    rw [flatten_pieces]
    exact List.mem_filter.2 ⟨hc, hword⟩
  obtain ⟨word, hpiece, hmem⟩ := List.mem_flatten.1 hflat
  rw [words, List.filter_eq_nil_iff] at hnone
  have hempty : word = [] := by simpa using hnone word hpiece
  rw [hempty] at hmem
  simp at hmem

theorem mem_intercalate {separator : List Char} {parts : List (List Char)} {c : Char}
    (h : c ∈ List.intercalate separator parts) : c ∈ separator ∨ ∃ part ∈ parts, c ∈ part := by
  induction parts with
  | nil => simp [List.intercalate] at h
  | cons part rest ih =>
      cases rest with
      | nil =>
          have hpart : c ∈ part := by simpa [List.intercalate] using h
          exact Or.inr ⟨part, List.mem_cons_self, hpart⟩
      | cons next rest =>
          have hsplit : List.intercalate separator (part :: next :: rest) =
              part ++ (separator ++ List.intercalate separator (next :: rest)) := by
            simp [List.intercalate]
          rw [hsplit, List.mem_append, List.mem_append] at h
          rcases h with h | h | h
          · exact Or.inr ⟨part, List.mem_cons_self, h⟩
          · exact Or.inl h
          · exact (ih h).imp_right fun ⟨other, hother, hc⟩ =>
              ⟨other, List.mem_cons_of_mem part hother, hc⟩

/-- A hyphenated name is made of ASCII letters, digits and hyphens. -/
theorem mem_kebab {cs : List Char} {c : Char} (h : c ∈ kebab cs) :
    c.isAlphanum = true ∨ c = '-' := by
  rcases mem_intercalate h with h | ⟨part, hpart, hc⟩
  · exact Or.inr (List.mem_singleton.1 h)
  · obtain ⟨word, hword, rfl⟩ := List.mem_map.1 hpart
    obtain ⟨d, hd, rfl⟩ := List.mem_map.1 hc
    exact Or.inl (isAlphanum_toLower (isAlphanum_of_mem_words hword hd))

/-- A name with a letter or a digit has a hyphenated form. -/
theorem kebab_ne_nil {cs : List Char} {c : Char} (hc : c ∈ cs) (hword : isWordChar c = true) :
    kebab cs ≠ [] := by
  obtain ⟨word, rest, hwords⟩ := List.exists_cons_of_ne_nil (words_ne_nil hc hword)
  have hmem : word ∈ words cs := by rw [hwords]; exact List.mem_cons_self
  have hne : word ≠ [] := by simpa using (List.mem_filter.1 hmem).2
  obtain ⟨d, tail, rfl⟩ := List.exists_cons_of_ne_nil hne
  rw [kebab, hwords]
  cases rest with
  | nil => simp [List.intercalate]
  | cons next rest => simp [List.intercalate]

end SceneMarkup.Text
