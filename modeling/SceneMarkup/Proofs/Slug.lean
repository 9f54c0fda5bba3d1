/-
  SceneMarkup/Proofs/Slug.lean --- what the name suggested for something looks like.

  WHAT THIS FILE IS FOR.  The words of a name are in letters or in digits, never in both,
  and small letters do not begin a new word.  So words with hyphens between them are found
  again as they are (`words_intercalate`), and a suggested name suggests itself.
-/
import Mathlib.Data.List.Basic
import Mathlib.Data.List.Chain
import SceneMarkup.ClassName
import SceneMarkup.Proofs.Text.Indent
import SceneMarkup.Proofs.Words

set_option autoImplicit false

namespace SceneMarkup

namespace Text

/-! ## Words of one kind -/

theorem isAlpha_eq_false_of_isDigit {c : Char} (h : c.isDigit = true) : c.isAlpha = false := by
  rw [isAlpha_eq_not_isDigit (Bool.or_eq_true_iff.2 (.inr h)), h, Bool.not_true]

theorem isDigit_eq_false_of_isAlpha {c : Char} (h : c.isAlpha = true) : c.isDigit = false := by
  rwa [isAlpha_eq_not_isDigit (Bool.or_eq_true_iff.2 (.inl h)), Bool.not_eq_true'] at h

/-- Whether all characters of a word are letters, or all are digits. -/
def isUniform (word : List Char) : Bool := word.all Char.isAlpha || word.all Char.isDigit

/-- A character in front of a word that it does not end is of the kind of the word. -/
theorem isUniform_cons {c b : Char} {next : Option Char} {word : List Char}
    (hc : c.isAlphanum = true) (hsplit : splitsBetween c b next = false)
    (hword : isUniform (b :: word) = true) : isUniform (c :: b :: word) = true := by
  simp only [splitsBetween, Bool.or_eq_false_iff, Bool.and_eq_false_iff] at hsplit
  obtain ⟨⟨⟨-, halpha⟩, hdigit⟩, -⟩ := hsplit
  simp only [isUniform, Bool.or_eq_true, List.all_cons, Bool.and_eq_true] at hword ⊢
  rw [Char.isAlphanum, Bool.or_eq_true] at hc
  rcases hword with hword | hword
  · refine .inl ⟨hc.resolve_right fun h => ?_, hword⟩
    simp [h, hword.1] at hdigit
  · refine .inr ⟨hc.resolve_left fun h => ?_, hword⟩
    simp [h, hword.1] at halpha

/-- All words of a text are uniform, and what the first one begins with, the text begins with. -/
theorem pieces_uniform (cs : List Char) : ∃ word others, pieces cs = word :: others ∧
    (∀ b ∈ word.head?, b ∈ cs.head?) ∧ ∀ w ∈ word :: others, isUniform w = true := by
  induction cs with
  | nil => exact ⟨[], [], rfl, by simp, by simp [isUniform]⟩
  | cons c rest ih =>
      obtain ⟨word, others, hpieces, hhead, huniform⟩ := ih
      cases hword : isWordChar c with
      | false =>
          refine ⟨[], word :: others, by simp [pieces, hword, hpieces], by simp, ?_⟩
          exact List.forall_mem_cons.2 ⟨rfl, huniform⟩
      | true =>
          have hone : isUniform [c] = true := by
            simpa [isUniform, isWordChar, Char.isAlphanum] using hword
          cases hsplit : splitsAfter c rest with
          | true =>
              refine ⟨[c], word :: others, by simp [pieces, hword, hpieces, hsplit], by simp, ?_⟩
              exact List.forall_mem_cons.2 ⟨hone, huniform⟩
          | false =>
              refine ⟨c :: word, others, by simp [pieces, hword, hpieces, hsplit], by simp, ?_⟩
              rw [List.forall_mem_cons] at huniform ⊢
              refine ⟨?_, huniform.2⟩
              cases word with
              | nil => exact hone
              | cons b word =>
                  -- the word goes on with the next character of the text
                  obtain ⟨more, rfl⟩ := List.head?_eq_some_iff.1 (hhead b rfl)
                  exact isUniform_cons hword hsplit huniform.1

theorem isUniform_of_mem_words {cs word : List Char} (h : word ∈ words cs) :
    isUniform word = true := by
  obtain ⟨first, others, hpieces, -, huniform⟩ := pieces_uniform cs
  refine huniform word ?_
  rw [← hpieces]
  exact (List.mem_filter.1 h).1

/-! ## Words in small letters -/

/-- Whether a word is in small letters or in digits. -/
def isPlain (word : List Char) : Bool := word.all Char.isLower || word.all Char.isDigit

theorem isPlain_iff {word : List Char} : isPlain word = true ↔
    (∀ c ∈ word, c.isLower = true) ∨ ∀ c ∈ word, c.isDigit = true := by
  rw [isPlain, Bool.or_eq_true, List.all_eq_true, List.all_eq_true]

theorem isDigit_eq_false_of_isLower {c : Char} (h : c.isLower = true) : c.isDigit = false :=
  isDigit_eq_false_of_isAlpha (Bool.or_eq_true_iff.2 (.inr h))

theorem isUpper_eq_false_of_isLower {c : Char} (h : c.isLower = true) : c.isUpper = false := by
  rw [isUpper_eq_not_isLower (Bool.or_eq_true_iff.2 (.inr h)), h, Bool.not_true]

theorem isUpper_eq_false_of_isDigit {c : Char} (h : c.isDigit = true) : c.isUpper = false :=
  (Bool.or_eq_false_iff.1 (isAlpha_eq_false_of_isDigit h)).1

theorem isPlain_map_toLower {word : List Char} (h : isUniform word = true) :
    isPlain (word.map Char.toLower) = true := by
  rw [isUniform, Bool.or_eq_true, List.all_eq_true, List.all_eq_true] at h
  rw [isPlain_iff, List.forall_mem_map, List.forall_mem_map]
  refine h.imp (fun h c hc => ?_) fun h c hc => ?_
  · exact isLower_toLower (h c hc)
  · rw [toLower_eq_self (.inr (h c hc))]
    exact h c hc

theorem map_toLower_of_isPlain {word : List Char} (h : isPlain word = true) :
    word.map Char.toLower = word := by
  rw [isPlain_iff] at h
  have hsame : ∀ c ∈ word, c.toLower = c := fun c hc =>
    toLower_eq_self (h.imp (fun h => h c hc) fun h => h c hc)
  exact (List.map_congr_left hsame).trans (List.map_id word)

/-- Nothing splits small letters, or digits. -/
theorem splitsBetween_of_isPlain {c d : Char} {word : List Char} {next : Option Char}
    (h : isPlain (c :: d :: word) = true) : splitsBetween c d next = false := by
  simp only [isPlain_iff, List.forall_mem_cons] at h
  rcases h with ⟨hc, hd, -⟩ | ⟨hc, hd, -⟩
  · simp [splitsBetween, isUpper_eq_false_of_isLower hc, isUpper_eq_false_of_isLower hd,
      isDigit_eq_false_of_isLower hc, isDigit_eq_false_of_isLower hd]
  · simp [splitsBetween, isAlpha_eq_false_of_isDigit hc, isAlpha_eq_false_of_isDigit hd,
      isUpper_eq_false_of_isDigit hc, isUpper_eq_false_of_isDigit hd]

theorem splitsBetween_of_not_isWordChar (c : Char) {d : Char} {next : Option Char}
    (h : isWordChar d = false) : splitsBetween c d next = false := by
  simp only [isWordChar, Char.isAlphanum, isAlpha_eq, Bool.or_eq_false_iff] at h
  simp [splitsBetween, isAlpha_eq, h]

/-- A word in small letters is found as it is in front of anything that is no word. -/
theorem pieces_append {word rest : List Char} {others : List (List Char)}
    (hword : isPlain word = true) (hrest : pieces rest = [] :: others)
    (hstop : ∀ d ∈ rest.head?, isWordChar d = false) :
    pieces (word ++ rest) = word :: others := by
  induction word with
  | nil => exact hrest
  | cons c word ih =>
      have hchar : isWordChar c = true := by
        rw [isPlain_iff, List.forall_mem_cons, List.forall_mem_cons] at hword
        rw [isWordChar, Char.isAlphanum, isAlpha_eq]
        rcases hword with h | h
        · rw [h.1, Bool.or_true, Bool.true_or]
        · rw [h.1, Bool.or_true]
      have hnot : splitsAfter c (word ++ rest) = false := by
        cases word with
        | nil =>
            cases rest with
            | nil => rfl
            | cons d rest => exact splitsBetween_of_not_isWordChar c (hstop d rfl)
        | cons d word => exact splitsBetween_of_isPlain hword
      have htail : isPlain word = true := by
        rw [isPlain_iff, List.forall_mem_cons, List.forall_mem_cons] at hword
        exact isPlain_iff.2 (hword.imp And.right And.right)
      rw [List.cons_append, pieces, hchar, ih htail]
      simp [hnot]

/-- Words in small letters are found again when there are hyphens between them. -/
theorem words_intercalate {ws : List (List Char)} (hplain : ∀ w ∈ ws, isPlain w = true)
    (hne : ∀ w ∈ ws, w ≠ []) : words (List.intercalate ['-'] ws) = ws := by
  induction ws with
  | nil => rfl
  | cons w ws ih =>
      rw [List.forall_mem_cons] at hplain hne
      have hfirst : ∀ rest : List (List Char),
          (w :: rest).filter (fun word => !word.isEmpty) =
            w :: rest.filter fun word => !word.isEmpty :=
        fun rest => List.filter_cons_of_pos (by simpa using hne.1)
      cases ws with
      | nil =>
          have hpieces := @pieces_append w [] _ hplain.1 rfl (by simp)
          rw [List.append_nil] at hpieces
          rw [List.intercalate_singleton, words, hpieces, hfirst]
          rfl
      | cons second ws =>
          have hhyphen : pieces ('-' :: List.intercalate ['-'] (second :: ws)) =
              [] :: pieces (List.intercalate ['-'] (second :: ws)) := rfl
          have hpieces := pieces_append hplain.1 hhyphen (by simp; rfl)
          rw [List.intercalate_cons_cons, List.append_assoc, List.singleton_append, words, hpieces,
            hfirst]
          exact congrArg (w :: ·) (ih hplain.2 hne.2)

/-- The words of a hyphenated name. -/
theorem exists_words_kebab (cs : List Char) : ∃ ws, kebab cs = List.intercalate ['-'] ws ∧
    (∀ w ∈ ws, isPlain w = true) ∧ ∀ w ∈ ws, w ≠ [] := by
  refine ⟨(words cs).map fun word => word.map Char.toLower, rfl, ?_, ?_⟩
  · rw [List.forall_mem_map]
    exact fun w hw => isPlain_map_toLower (isUniform_of_mem_words hw)
  · rw [List.forall_mem_map]
    intro w hw
    simpa using (List.mem_filter.1 hw).2

theorem kebab_intercalate {ws : List (List Char)} (hplain : ∀ w ∈ ws, isPlain w = true)
    (hne : ∀ w ∈ ws, w ≠ []) :
    kebab (List.intercalate ['-'] ws) = List.intercalate ['-'] ws := by
  have hsame : ws.map (fun word => word.map Char.toLower) = ws :=
    (List.map_congr_left fun w hw => map_toLower_of_isPlain (hplain w hw)).trans (List.map_id ws)
  rw [kebab, words_intercalate hplain hne, hsame]

end Text

namespace ClassName

open Text (isPlain kebab)

/-! ## Slugs -/

/-- Small letters, digits and single hyphens, of which the first is a letter and the last is no
hyphen. -/
structure IsSlug (cs : List Char) : Prop where
  chars : ∀ c ∈ cs, c.isLower = true ∨ c.isDigit = true ∨ c = '-'
  first : ∃ c ∈ cs.head?, c.isLower = true
  last : '-' ∉ cs.getLast?
  single : cs.IsChain fun c next => c = '-' → next ≠ '-'

/-- The words of a slug are in small letters or in digits, and the first of them is in letters. -/
structure AreSlugWords (first : List Char) (others : List (List Char)) : Prop where
  plain : ∀ w ∈ first :: others, isPlain w = true
  ne_nil : ∀ w ∈ first :: others, w ≠ []
  letter : ∃ c ∈ first.head?, c.isLower = true

theorem not_mem_hyphen_of_isPlain {word : List Char} (h : isPlain word = true) : '-' ∉ word := by
  intro hmem
  rcases Text.isPlain_iff.1 h with h | h
  · exact absurd (h '-' hmem) (by decide)
  · exact absurd (h '-' hmem) (by decide)

theorem isChain_of_isPlain {word : List Char} (h : isPlain word = true) :
    word.IsChain fun c next => c = '-' → next ≠ '-' := by
  refine List.Pairwise.isChain (List.pairwise_of_forall_mem_list fun c hc next _ hhyphen => ?_)
  exact absurd (hhyphen ▸ hc) (not_mem_hyphen_of_isPlain h)

/-- Each hyphen stands between two words. -/
theorem hyphens_intercalate {first : List Char} {others : List (List Char)}
    (hplain : ∀ w ∈ first :: others, isPlain w = true) (hne : ∀ w ∈ first :: others, w ≠ []) :
    let cs := List.intercalate ['-'] (first :: others)
    '-' ∉ cs.head? ∧ '-' ∉ cs.getLast? ∧ cs.IsChain fun c next => c = '-' → next ≠ '-' := by
  intro cs
  induction others generalizing first with
  | nil =>
      have hnot := not_mem_hyphen_of_isPlain (hplain first List.mem_cons_self)
      have hcs : cs = first := List.intercalate_singleton
      rw [hcs]
      refine ⟨fun hmem => hnot (List.mem_of_mem_head? hmem),
        fun hmem => hnot (List.mem_of_mem_getLast? hmem), ?_⟩
      exact isChain_of_isPlain (hplain first List.mem_cons_self)
  | cons second others ih =>
      rw [List.forall_mem_cons] at hplain hne
      obtain ⟨hhead, hlast, hchain⟩ := ih hplain.2 hne.2
      have hnot := not_mem_hyphen_of_isPlain hplain.1
      have hcs : cs = first ++ '-' :: List.intercalate ['-'] (second :: others) := by
        rw [← List.singleton_append, ← List.append_assoc]
        exact List.intercalate_cons_cons
      have hrest : List.intercalate ['-'] (second :: others) ≠ [] := by
        rw [Text.intercalate_cons]
        exact List.append_ne_nil_of_left_ne_nil (hne.2 second List.mem_cons_self) _
      rw [hcs]
      refine ⟨fun hmem => ?_, fun hmem => ?_, ?_⟩
      · rw [List.head?_append_of_ne_nil _ hne.1] at hmem
        exact hnot (List.mem_of_mem_head? hmem)
      · rw [List.getLast?_append_of_ne_nil _ (List.cons_ne_nil _ _), ← List.singleton_append,
          List.getLast?_append_of_ne_nil _ hrest] at hmem
        exact hlast hmem
      · refine List.isChain_append.2
          ⟨isChain_of_isPlain hplain.1, List.isChain_cons.2 ⟨?_, hchain⟩, ?_⟩
        · intro next hnext _ heq
          exact hhead (heq ▸ hnext)
        · intro c hc next _ heq
          exact absurd (heq ▸ List.mem_of_mem_getLast? hc) hnot

theorem AreSlugWords.isSlug {first : List Char} {others : List (List Char)}
    (h : AreSlugWords first others) : IsSlug (List.intercalate ['-'] (first :: others)) := by
  obtain ⟨-, hlast, hchain⟩ := hyphens_intercalate h.plain h.ne_nil
  refine ⟨fun c hc => ?_, ?_, hlast, hchain⟩
  · rcases Text.mem_intercalate hc with hc | ⟨word, hword, hc⟩
    · exact .inr (.inr (List.mem_singleton.1 hc))
    · have hplain := Text.isPlain_iff.1 (h.plain word hword)
      exact hplain.elim (fun h => .inl (h c hc)) fun h => .inr (.inl (h c hc))
  · rw [Text.intercalate_cons, List.head?_append_of_ne_nil _ (h.ne_nil first List.mem_cons_self)]
    exact h.letter

/-- What is suggested for a name is words with hyphens between them. -/
theorem exists_words_suggest {name fallback : String}
    (h : kebab name.toList = [] → AreSlugWords fallback.toList []) :
    ∃ first others, AreSlugWords first others ∧
      suggest name fallback = String.ofList (List.intercalate ['-'] (first :: others)) := by
  obtain ⟨ws, hkebab, hplain, hne⟩ := Text.exists_words_kebab name.toList
  cases ws with
  | nil =>
      have hwords := h hkebab
      obtain ⟨c, hc, hlower⟩ := hwords.letter
      have hdigit : fallback.toList.head?.any Char.isDigit = false := by
        rw [Option.mem_def.1 hc, Option.any_some]
        exact Text.isDigit_eq_false_of_isLower hlower
      refine ⟨fallback.toList, [], hwords, ?_⟩
      simp [suggest, hkebab, hdigit]
  | cons first others =>
      obtain ⟨c, rest, rfl⟩ := List.exists_cons_of_ne_nil (hne first List.mem_cons_self)
      have hcons : kebab name.toList =
          c :: (rest ++ others.flatMap fun word => ['-'] ++ word) := by
        rw [hkebab, Text.intercalate_cons, List.cons_append]
      cases hdigit : c.isDigit with
      | true =>
          refine ⟨['n'], (c :: rest) :: others, ⟨?_, ?_, 'n', rfl, by decide⟩, ?_⟩
          · exact List.forall_mem_cons.2 ⟨by decide, hplain⟩
          · exact List.forall_mem_cons.2 ⟨by decide, hne⟩
          · rw [List.intercalate_cons_cons, ← hkebab]
            simp [suggest, hcons, hdigit]
      | false =>
          refine ⟨c :: rest, others, ⟨hplain, hne, c, rfl, ?_⟩, ?_⟩
          · have hfirst := hplain (c :: rest) List.mem_cons_self
            simp only [isPlain, List.all_cons, hdigit, Bool.false_and, Bool.or_false,
              Bool.and_eq_true] at hfirst
            exact hfirst.1
          · rw [← hkebab]
            simp [suggest, hcons, hdigit]

/-- A slug suggests itself. -/
theorem AreSlugWords.suggest_eq {first : List Char} {others : List (List Char)}
    (h : AreSlugWords first others) (fallback : String) :
    suggest (String.ofList (List.intercalate ['-'] (first :: others))) fallback =
      String.ofList (List.intercalate ['-'] (first :: others)) := by
  have hkebab := Text.kebab_intercalate h.plain h.ne_nil
  obtain ⟨c, hc, hlower⟩ := h.isSlug.first
  have hdigit := Text.isDigit_eq_false_of_isLower hlower
  obtain ⟨rest, hcons⟩ := List.head?_eq_some_iff.1 hc
  rw [suggest, String.toList_ofList, hkebab]
  simp [hcons, hdigit]

end ClassName

end SceneMarkup
